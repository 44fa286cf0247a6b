/-
What the text of a real number is made of: digits, signs, a point and the
mark of an exponent. To whoever looks for strings and containers in a text
of JSON none of these means anything.
-/
import LabLease.Number.Shortest
import LabLease.Proofs.Number.Digits

namespace LabLease.Binary64

/-- The characters of real numbers. -/
def IsMark (c : Char) : Prop :=
  c.isDigit = true ∨ c = '-' ∨ c = '+' ∨ c = '.' ∨ c = 'e'

theorem isMark_zero : IsMark '0' := Or.inl rfl

theorem isMark_point : IsMark '.' := Or.inr (Or.inr (Or.inr (Or.inl rfl)))

theorem isMark_toDigits (n : Nat) : ∀ c ∈ Nat.toDigits 10 n, IsMark c :=
  fun _ hc => Or.inl (isDigit_of_mem_toDigits hc)

/-- The digits of a number are written as they were read. -/
theorem isMark_digitsOf {n d : Nat} (h : d ∈ digitsOf n) :
    IsMark (digitChar d) := by
  obtain ⟨c, hc, rfl⟩ := List.mem_map.1 h
  have hdigit := isDigit_of_mem_toDigits hc
  have hsame : digitChar (c.toNat - '0'.toNat) = c := by
    have hlow : '0'.toNat ≤ c.toNat := by
      rw [Char.isDigit, Bool.and_eq_true, decide_eq_true_eq] at hdigit
      exact hdigit.1
    unfold digitChar
    rw [Nat.add_sub_cancel' hlow, Char.ofNat_toNat]
  rw [hsame]
  exact Or.inl hdigit

/-- The shortest decimal consists of digits of a number. -/
theorem digits_shortest (m : Nat) (q : Int) :
    ∀ d ∈ (shortest m q).digits, ∃ n, d ∈ digitsOf n := by
  intro d hd
  unfold shortest at hd
  dsimp only at hd
  split at hd
  · next n k _ =>
    refine ⟨n, ?_⟩
    have hmem := (List.dropWhile_sublist _).subset (List.mem_reverse.1 hd)
    exact List.mem_reverse.1 hmem
  · exact ⟨0, hd⟩

theorem isMark_scientific {s : Scientific}
    (h : ∀ d ∈ s.digits, ∃ n, d ∈ digitsOf n) :
    ∀ c ∈ s.render, IsMark c := by
  have hdigits : ∀ c ∈ s.digits.map digitChar, IsMark c := by
    intro c hc
    obtain ⟨d, hd, rfl⟩ := List.mem_map.1 hc
    obtain ⟨n, hn⟩ := h d hd
    exact isMark_digitsOf hn
  have hzeros : ∀ n, ∀ c ∈ List.replicate n '0', IsMark c := by
    intro n c hc
    rw [List.eq_of_mem_replicate hc]
    exact isMark_zero
  unfold Scientific.render
  dsimp only
  split
  · -- with an exponent
    refine List.forall_mem_append.2 ⟨List.forall_mem_append.2 ⟨?_, ?_⟩, ?_⟩
    · exact fun c hc => hdigits c (List.mem_of_mem_take hc)
    · split
      · exact nofun
      · exact List.forall_mem_cons.2
          ⟨isMark_point, fun c hc => hdigits c (List.mem_of_mem_tail hc)⟩
    · refine List.forall_mem_cons.2 ⟨?_, List.forall_mem_cons.2
        ⟨?_, isMark_toDigits _⟩⟩
      · exact Or.inr (Or.inr (Or.inr (Or.inr rfl)))
      · split
        · exact Or.inr (Or.inl rfl)
        · exact Or.inr (Or.inr (Or.inl rfl))
  · split
    · -- below one
      exact List.forall_mem_cons.2 ⟨isMark_zero, List.forall_mem_cons.2
        ⟨isMark_point, List.forall_mem_append.2 ⟨hzeros _, hdigits⟩⟩⟩
    · refine List.forall_mem_append.2 ⟨List.forall_mem_append.2
        ⟨fun c hc => hdigits c (List.mem_of_mem_take hc), hzeros _⟩,
        List.forall_mem_cons.2 ⟨isMark_point, ?_⟩⟩
      split
      · exact List.forall_mem_singleton.2 isMark_zero
      · exact fun c hc => hdigits c (List.mem_of_mem_drop hc)

theorem isMark_render (x : Binary64) : ∀ c ∈ x.render, IsMark c := by
  have hmagnitude : ∀ c ∈ (if x.isZero then ['0', '.', '0']
      else (shortest x.significand x.exponent).render), IsMark c := by
    split
    · exact List.forall_mem_cons.2 ⟨isMark_zero, List.forall_mem_cons.2
        ⟨isMark_point, List.forall_mem_singleton.2 isMark_zero⟩⟩
    · exact isMark_scientific (digits_shortest _ _)
  unfold render
  dsimp only
  split
  · exact List.forall_mem_cons.2 ⟨Or.inr (Or.inl rfl), hmagnitude⟩
  · exact hmagnitude

end LabLease.Binary64
