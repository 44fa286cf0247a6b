/-
A refusal is rebuilt from its kind and its detail. Only one kind has a
detail that is a number, and that number is one of 64 bits.
-/
import LabLease.Refusal
import LabLease.Proofs.Number.Digits

namespace LabLease

/-- A number comes out of its text, if it has no more bits than are
read. -/
theorem Whole.unsigned?_toString {bits n : Nat} (h : n < twoTo bits) :
    unsigned? bits (toString n) = some n := by
  have htext : (toString n).toList = Nat.toDigits 10 n := by
    rw [Nat.toString_eq_ofList_toDigits, String.toList_ofList]
  have hplus : ∀ rest, Nat.toDigits 10 n ≠ '+' :: rest := fun rest heq =>
    absurd (isDigit_of_mem_toDigits (heq ▸ List.mem_cons_self)) (by decide)
  unfold unsigned?
  rw [htext]
  dsimp only
  split
  · next rest heq => exact absurd heq (hplus rest)
  · rw [digits?_toDigits, Option.filter_some, if_pos (decide_eq_true h)]

namespace Refusal

/-- The number of a refusal, if it has one, is one of 64 bits. -/
def Proper : Refusal → Prop
  | .resyncRequired n => n < twoTo 64
  | _ => True

theorem ofWire_kind_detail {e : Refusal} (h : e.Proper) :
    ofWire e.kind e.detail = e := by
  cases e with
  | resyncRequired n =>
    show resyncRequired ((Whole.unsigned? 64 (toString n)).getD 0) = _
    rw [Whole.unsigned?_toString h]
    rfl
  | _ => rfl

end Refusal

end LabLease
