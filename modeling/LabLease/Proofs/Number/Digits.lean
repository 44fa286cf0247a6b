/-
Decimal digits as they are written: what they stand for, that none of
them is a zero in front, and how many there are behind zeros that fill up
to a width.
-/
import LabLease.Number.Whole
import LabLease.Time.Timestamp

namespace LabLease

variable {n width : Nat}

/-- The readers put digits together as core does. -/
theorem foldl_digits (ds : List Char) (init : Nat) :
    ds.foldl (fun n c => n * 10 + (c.toNat - '0'.toNat)) init
      = Nat.ofDigitChars 10 ds init := by
  rw [Nat.ofDigitChars_eq_foldl]
  refine congrArg (fun f => ds.foldl f init) (funext fun n => ?_)
  funext c
  rw [Nat.mul_comm]

theorem isDigit_of_mem_toDigits {c : Char} (h : c ∈ Nat.toDigits 10 n) :
    c.isDigit = true :=
  Nat.isDigit_of_mem_toDigits (by decide) (by decide) h

/-- Only zero is written with a zero in front. -/
theorem toDigits_ne_zero_cons (h : 0 < n) (ds : List Char) :
    Nat.toDigits 10 n ≠ '0' :: ds := by
  induction n using Nat.strongRecOn generalizing ds with
  | ind n ih =>
    rw [Nat.toDigits_eq_if (by decide)]
    split
    · next hlt =>
      intro heq
      have hdigit : ∀ d < 10, Nat.digitChar d = '0' → d = 0 := by decide
      have := hdigit n hlt (List.cons.inj heq).1
      omega
    · next hge =>
      cases hfront : Nat.toDigits 10 (n / 10) with
      | nil => exact absurd hfront Nat.toDigits_ne_nil
      | cons d front =>
        intro heq
        have hd : d = '0' := (List.cons.inj heq).1
        exact ih (n / 10) (by omega) (by omega) front (hd ▸ hfront)

/-- A number is read back from its digits. -/
theorem Whole.digits?_toDigits (n : Nat) :
    digits? (Nat.toDigits 10 n) = some n := by
  unfold digits?
  have hsome : (Nat.toDigits 10 n).isEmpty = false :=
    List.isEmpty_eq_false_iff.2 Nat.toDigits_ne_nil
  have hall : (Nat.toDigits 10 n).all Char.isDigit = true :=
    List.all_eq_true.2 fun c hc => isDigit_of_mem_toDigits hc
  rw [hsome, hall]
  show some _ = some n
  rw [foldl_digits, Nat.ofDigitChars_ten_toDigits]

namespace Timestamp

theorem isDigit_of_mem_padded {c : Char} (h : c ∈ padded width n) :
    c.isDigit = true := by
  unfold padded at h
  rcases List.mem_append.1 h with hzero | hdigit
  · rw [List.eq_of_mem_replicate hzero]
    decide
  · exact isDigit_of_mem_toDigits hdigit

theorem length_padded (hwidth : 0 < width) (h : n < tenTo width) :
    (padded width n).length = width := by
  have hle := (Nat.length_toDigits_le_iff (by decide) hwidth).2 h
  unfold padded
  rw [List.length_append, List.length_replicate]
  omega

/-- Zeros in front count for nothing. -/
theorem natOf_padded (width n : Nat) : natOf (padded width n) = n := by
  have hzeros : ∀ k, Nat.ofDigitChars 10 (List.replicate k '0') 0 = 0 := by
    intro k
    induction k with
    | zero => rfl
    | succ k ih => exact ih
  unfold natOf padded
  rw [foldl_digits, Nat.ofDigitChars_append, hzeros,
    Nat.ofDigitChars_ten_toDigits]

end Timestamp

end LabLease
