/-
Finite binary floating point of 64 bits, in exact integer arithmetic: a
number is a sign and `significand · 2 ^ exponent`, and every operation
rounds its exact result once, to the nearest number and from a midpoint
to the even one.
-/
import LabLease.Number.Whole

namespace LabLease

/-- A finite number of 53 significant bits. The significand of a nonzero
number has its top bit set unless the exponent is the least one. -/
structure Binary64 where
  negative : Bool
  significand : Nat
  exponent : Int
deriving DecidableEq, Repr

namespace Binary64

def leastExponent : Int := -1074

def greatestExponent : Int := 971

def zero : Binary64 := ⟨false, 0, leastExponent⟩

/-- A quotient rounded to the nearest integer, a half to the even
neighbour. -/
def roundDiv (num den : Nat) : Nat :=
  let q := num / den
  let twice := 2 * (num % den)
  if twice < den then q
  else if den < twice then q + 1
  else q + q % 2

/-- The rounded quotient of `num` and `den · 2 ^ e`. -/
def scaled (num den : Nat) (e : Int) : Nat :=
  roundDiv (num * twoTo (-e).toNat) (den * twoTo e.toNat)

/-- The number nearest to a quotient; nothing when that is beyond the
largest one. -/
def ofRatio (negative : Bool) (num den : Nat) : Option Binary64 :=
  if num = 0 then some ⟨negative, 0, leastExponent⟩
  else
    let guess : Int := (num.log2 : Int) - (den.log2 : Int) - 52
    let small :=
      num * twoTo (-guess).toNat < twoTo 52 * (den * twoTo guess.toNat)
    let e := max leastExponent (if small then guess - 1 else guess)
    let m := scaled num den e
    let (m, e) := if m = twoTo 53 then (twoTo 52, e + 1) else (m, e)
    if greatestExponent < e then none else some ⟨negative, m, e⟩

/-- The number nearest to the decimal `digits · 10 ^ exponent`; nothing
when that is beyond the largest one. Decimals of which the place of the
first digit settles that are not worked out. -/
def nearest (negative : Bool) (digits : Nat) (exponent : Int) :
    Option Binary64 :=
  let places : Int := (Nat.toDigits 10 digits).length + exponent
  if digits = 0 ∨ places < -330 then some ⟨negative, 0, leastExponent⟩
  else if 310 < places then none
  else ofRatio negative (digits * tenTo exponent.toNat)
    (tenTo (-exponent).toNat)

/-- The magnitude as a quotient of two integers. -/
def ratio (x : Binary64) : Nat × Nat :=
  (x.significand * twoTo x.exponent.toNat, twoTo (-x.exponent).toNat)

/-- The magnitude times a power of ten that was itself rounded. -/
def timesPowerOfTen (x : Binary64) (k : Nat) : Option Binary64 := do
  let p ← ofRatio false (tenTo k) 1
  ofRatio x.negative (x.ratio.1 * p.ratio.1) (x.ratio.2 * p.ratio.2)

/-- The magnitude over a power of ten that was itself rounded. -/
def overPowerOfTen (x : Binary64) (k : Nat) : Option Binary64 := do
  let p ← ofRatio false (tenTo k) 1
  ofRatio x.negative (x.ratio.1 * p.ratio.2) (x.ratio.2 * p.ratio.1)

def isZero (x : Binary64) : Bool := x.significand = 0

/-- Equality as numbers, under which the two zeros are one. -/
def sameNumber (x y : Binary64) : Bool :=
  x = y || x.isZero && y.isZero

/-- The largest power of ten that is a number. -/
def topPower : Nat := 308

/-- A decimal `digits · 10 ^ exponent` by repeated scaling: powers of ten
beyond the largest one are divided out in steps. `steps` bounds them. -/
def scaleDown (x : Binary64) (k : Nat) : Nat → Option Binary64
  | 0 => some x
  | steps + 1 =>
    if k ≤ topPower then x.overPowerOfTen k
    else if x.isZero then some x
    else do
      scaleDown (← x.overPowerOfTen topPower) (k - topPower) steps

/-- The number that a decimal literal stands for. The digits are rounded
first and the power of ten is applied to that, so the last bit may differ
from the nearest number's. Nothing when the result is too large. -/
def ofDecimal (negative : Bool) (digits : Nat) (exponent : Int) :
    Option Binary64 := do
  let x ← ofRatio negative digits 1
  if exponent < 0 then scaleDown x (-exponent).toNat (-exponent).toNat
  else if x.isZero then some x
  else if topPower < exponent.toNat then none
  else x.timesPowerOfTen exponent.toNat

end Binary64

end LabLease
