/-
The shortest decimal that reads back as a given binary number, and the
nearest of those: for one digit, two digits and so on, the two decimals
next to the number on that grid are tried against the interval of reals
that round to it.
-/
import LabLease.Number.Binary64

namespace LabLease.Binary64

/-- A decimal in scientific form: `d₀.d₁d₂… · 10 ^ exponent`. -/
structure Scientific where
  digits : List Nat
  exponent : Int
deriving DecidableEq, Repr

/-- The decimal digits of a number, the leading one first. -/
def digitsOf (n : Nat) : List Nat :=
  (Nat.toDigits 10 n).map fun c => c.toNat - '0'.toNat

/-- The order of `d · 10 ^ k` and `x · 2 ^ p`. -/
def comparePowers (d : Nat) (k : Int) (x : Nat) (p : Int) : Ordering :=
  compare (d * tenTo k.toNat * twoTo (-p).toNat)
    (x * twoTo p.toNat * tenTo (-k).toNat)

/-- The exponent of the leading digit of `m · 2 ^ q`. A shift by 400
places makes every nonzero number's integer part nonzero. -/
def leadingExponent (m : Nat) (q : Int) : Int :=
  let shifted := m * twoTo q.toNat * tenTo 400 / twoTo (-q).toNat
  ((digitsOf shifted).length : Int) - 401

/-- Whether `d · 10 ^ k` rounds to `m · 2 ^ q`. The ends of the interval
belong to it when the significand is even; below a power of two it
reaches only half as far. -/
def roundsTo (d : Nat) (k : Int) (m : Nat) (q : Int) : Bool :=
  let low := if m = twoTo 52 ∧ leastExponent < q then 4 * m - 1
    else 4 * m - 2
  let high := 4 * m + 2
  let above := comparePowers d k low (q - 2)
  let below := comparePowers d k high (q - 2)
  if m % 2 = 0 then above != .lt && below != .gt
  else above == .gt && below == .lt

/-- The decimal of `n` digits next to `m · 2 ^ q` that rounds to it; of
two such the nearer. -/
def onGrid (m : Nat) (q : Int) (lead : Int) (n : Nat) :
    Option (Nat × Int) :=
  let k := lead - n + 1
  let d := m * twoTo q.toNat * tenTo (-k).toNat
    / (twoTo (-q).toNat * tenTo k.toNat)
  match roundsTo d k m q, roundsTo (d + 1) k m q with
  | true, true =>
    -- `d` is nearer exactly when the midpoint lies above the number
    if comparePowers (2 * d + 1) k (2 * m) q == .lt then some (d + 1, k)
    else some (d, k)
  | true, false => some (d, k)
  | false, true => some (d + 1, k)
  | false, false => none

/-- The shortest decimal of a positive magnitude. Seventeen digits
always suffice. -/
def shortest (m : Nat) (q : Int) : Scientific :=
  let lead := leadingExponent m q
  match (List.range 17).findSome? fun n => onGrid m q lead (n + 1) with
  | some (d, k) =>
    let ds := digitsOf d
    ⟨(ds.reverse.dropWhile (· = 0)).reverse, k + (ds.length : Int) - 1⟩
  | none => ⟨[0], 0⟩

def digitChar (d : Nat) : Char := Char.ofNat ('0'.toNat + d)

/-- Numbers are written positionally while the exponent of their leading
digit lies between -5 and 15, then with at least one place; beyond that
scientifically, with a signed exponent. -/
def Scientific.render (s : Scientific) : List Char :=
  let ds := s.digits.map digitChar
  if s.exponent < -5 ∨ 15 < s.exponent then
    let sign := if s.exponent < 0 then '-' else '+'
    let fraction := if ds.length ≤ 1 then [] else '.' :: ds.tail
    ds.take 1 ++ fraction
      ++ 'e' :: sign :: Nat.toDigits 10 s.exponent.natAbs
  else if s.exponent < 0 then
    '0' :: '.' :: List.replicate (s.exponent.natAbs - 1) '0' ++ ds
  else
    let whole := s.exponent.toNat + 1
    let fraction := ds.drop whole
    ds.take whole ++ List.replicate (whole - ds.length) '0'
      ++ '.' :: (if fraction.isEmpty then ['0'] else fraction)

/-- The text of a number. -/
def render (x : Binary64) : List Char :=
  let magnitude :=
    if x.isZero then ['0', '.', '0']
    else (shortest x.significand x.exponent).render
  if x.negative then '-' :: magnitude else magnitude

end LabLease.Binary64
