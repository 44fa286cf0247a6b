/-
Whole numbers: the powers that are the sizes of words and the scales of
binary and decimal fractions, and numbers as they are written in decimal,
with a sign or without. Digits are those of ASCII; zeros in front count
for nothing.
-/
namespace LabLease

def twoTo (n : Nat) : Nat := Nat.pow 2 n

def tenTo (n : Nat) : Nat := Nat.pow 10 n

theorem twoTo_pos (n : Nat) : 0 < twoTo n := Nat.pow_pos (by decide)

namespace Whole

/-- The number that digits write, one at least. -/
def digits? (s : List Char) : Option Nat :=
  if s.isEmpty || !s.all Char.isDigit then none
  else some (s.foldl (fun n c => n * 10 + (c.toNat - '0'.toNat)) 0)

/-- A number of so many bits; a plus sign may stand in front. -/
def unsigned? (bits : Nat) (s : String) : Option Nat :=
  let digits := match s.toList with
    | '+' :: rest => rest
    | cs => cs
  (digits? digits).filter (· < twoTo bits)

/-- A number of so many bits, one of them the sign; a sign may stand in
front. -/
def signed? (bits : Nat) (s : String) : Option Int :=
  let n? : Option Int := match s.toList with
    | '-' :: rest => (digits? rest).map fun n => -(n : Int)
    | '+' :: rest => (digits? rest).map fun n => (n : Int)
    | cs => (digits? cs).map fun n => (n : Int)
  n?.filter fun n => -(twoTo (bits - 1) : Int) ≤ n ∧ n < twoTo (bits - 1)

end Whole

end LabLease
