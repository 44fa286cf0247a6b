/-
Number literals of JSON and the numbers they denote. A literal without
fraction and exponent denotes an integer when that fits in 64 bits, with
or without sign; every other literal denotes a binary floating-point
number.
-/
import LabLease.Number.Binary64

namespace LabLease.Json

/-- A number literal as written. -/
structure Numeral where
  negative : Bool
  whole : List Nat
  /-- The digits behind the point; none when there is no point. -/
  fraction : List Nat
  exponent : Option Int
deriving DecidableEq, Repr

/-- A number that a document can hold. -/
inductive Number where
  | integer (n : Int)
  | real (x : Binary64)
deriving DecidableEq, Repr

/-- Equality as numbers within one kind: an integer is never the same as
a real, and the two real zeros are the same. -/
def Number.same : Number → Number → Bool
  | .integer m, .integer n => m = n
  | .real x, .real y => x.sameNumber y
  | _, _ => false

namespace Numeral

def wordLimit : Nat := twoTo 64

/-- Appends digits while the result stays below the limit; the digits
that no longer fit are returned. -/
def absorb (significand : Nat) : List Nat → Nat × List Nat
  | [] => (significand, [])
  | d :: rest =>
    let next := significand * 10 + d
    if next < wordLimit then absorb next rest
    else (significand, d :: rest)

/-- The floating-point number of a literal. Digits that do not fit in 64
bits are dropped: those in front of the point still count as places,
those behind it count for nothing. -/
def real? (n : Numeral) : Option Binary64 :=
  let (whole, unread) := absorb 0 n.whole
  let (significand, dropped) := absorb whole n.fraction
  let places : Int :=
    (unread.length : Int) - (n.fraction.length - dropped.length)
  Binary64.ofDecimal n.negative significand
    (places + n.exponent.getD 0)

def isWhole (n : Numeral) : Bool :=
  n.fraction.isEmpty && n.exponent.isNone

/-- The integer that a literal denotes. The literal `-0` denotes a real
zero. -/
def integer? (n : Numeral) : Option Int :=
  let (m, unread) := absorb 0 n.whole
  if !n.isWhole || !unread.isEmpty then none
  else if n.negative then
    if 0 < m ∧ m ≤ twoTo 63 then some (-m) else none
  else some m

/-- The number that a literal denotes; nothing when it is too large. -/
def number? (n : Numeral) : Option Number :=
  match n.integer? with
  | some i => some (.integer i)
  | none => n.real?.map .real

end Numeral

end LabLease.Json
