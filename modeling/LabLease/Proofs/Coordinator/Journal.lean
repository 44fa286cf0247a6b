/-
The journal in closed form: of the numbered changes so far it keeps the
last few, and it hands out exactly those that follow on a number.
-/
import LabLease.Proofs.Coordinator.Emission
import Mathlib.Data.List.Induction

namespace LabLease.Coordinator

-- ============================================================= numbering

theorem drop_numbered (k n : Nat) (cs : List Change) :
    (numbered n cs).drop k = numbered (n + k) (cs.drop k) := by
  induction k generalizing n cs with
  | zero => rfl
  | succ k ih =>
    cases cs with
    | nil => rfl
    | cons c cs =>
      have hswap : n + 1 + k = n + (k + 1) := by omega
      rw [numbered, List.drop_succ_cons, ih, List.drop_succ_cons, hswap]

theorem lt_seq_of_mem_numbered {n : Nat} {cs : List Change} {e : Event}
    (h : e ∈ numbered n cs) : n < e.seq := by
  have hseq : e.seq ∈ List.range' (n + 1) cs.length := by
    rw [← map_seq_numbered]
    exact List.mem_map_of_mem h
  exact (List.mem_range'_1.1 hseq).1

/-- The events after a number. -/
theorem filter_numbered {k n : Nat} (h : k ≤ n) (cs : List Change) :
    (numbered k cs).filter (fun e => n < e.seq)
      = numbered n (cs.drop (n - k)) := by
  obtain ⟨d, rfl⟩ := Nat.exists_eq_add_of_le h
  rw [Nat.add_sub_cancel_left, ← drop_numbered]
  clear h
  induction d generalizing k cs with
  | zero =>
    refine List.filter_eq_self.2 fun e he => ?_
    exact decide_eq_true (lt_seq_of_mem_numbered he)
  | succ d ih =>
    cases cs with
    | nil => rfl
    | cons c cs =>
      have hswap : k + (d + 1) = k + 1 + d := by omega
      have hnot : ¬ k + (d + 1) < k + 1 := by omega
      rw [numbered, List.filter_cons, if_neg (mt of_decide_eq_true hnot),
        List.drop_succ_cons, hswap]
      exact ih cs

namespace Journal

-- ============================================================ what is kept

@[simp] theorem extend_retention (j : Journal) (cs : List Change) :
    (j.extend cs).retention = j.retention := by
  induction cs generalizing j with
  | nil => rfl
  | cons c cs ih => exact ih (j.append c).2

/-- Of the changes so far the last ones are kept. -/
theorem events_extend (retention : Nat) (cs : List Change) :
    ((new retention).extend cs).events
      = (numbered 0 cs).drop (cs.length - max retention 1) := by
  induction cs using List.reverseRecOn with
  | nil => exact List.drop_nil.symm
  | append_singleton cs c ih =>
    have hlast : ((new retention).extend cs).last = cs.length :=
      (extend_last _ cs).trans (Nat.zero_add _)
    have hmore : numbered 0 (cs ++ [c])
        = numbered 0 cs ++ [⟨cs.length + 1, c⟩] := by
      rw [numbered_append, Nat.zero_add]
      rfl
    -- what goes now comes after what has gone before
    rw [extend_append]
    show List.drop _ (((new retention).extend cs).events
      ++ [⟨((new retention).extend cs).last + 1, c⟩]) = _
    rw [extend_retention, ih, hlast, hmore,
      ← List.drop_append_of_le_length, List.drop_drop]
    · congr 1
      show _ + (_ - max retention 1) = _
      simp only [List.length_drop, List.length_append, length_numbered,
        List.length_singleton]
      omega
    · rw [length_numbered]
      omega

theorem last_extend (retention : Nat) (cs : List Change) :
    ((new retention).extend cs).last = cs.length :=
  (extend_last _ cs).trans (Nat.zero_add _)

theorem firstRetained_extend (retention : Nat) (cs : List Change) :
    ((new retention).extend cs).firstRetained
      = cs.length - max retention 1 + 1 := by
  have hkept := events_extend retention cs
  rw [drop_numbered, Nat.zero_add] at hkept
  unfold firstRetained
  rw [hkept, last_extend]
  cases hcs : cs.drop (cs.length - max retention 1) with
  | cons c rest => rfl
  | nil =>
    -- one event at least is kept, so that there has been none
    have hlen := congrArg List.length hcs
    rw [List.length_drop, List.length_nil] at hlen
    show cs.length + 1 = _
    omega

-- ============================================================ what follows

/-- Who asks for what follows on a number gets all of it, or nothing: if
the number is yet to come, or not all of that is kept. -/
theorem since_extend (retention n : Nat) (cs : List Change) :
    ((new retention).extend cs).since n
      = if cs.length < n ∨ n + max retention 1 < cs.length
        then .error (.resyncRequired n)
        else .ok (numbered n (cs.drop n)) := by
  have hkept := events_extend retention cs
  rw [drop_numbered, Nat.zero_add] at hkept
  unfold since
  rw [last_extend, firstRetained_extend, hkept]
  by_cases hout : cs.length < n ∨ n + max retention 1 < cs.length
  · rw [if_pos (by omega), if_pos hout]
  · have hk : cs.length - max retention 1 ≤ n := by omega
    rw [if_neg (by omega), if_neg hout, filter_numbered hk,
      List.drop_drop, Nat.add_sub_cancel' hk]

theorem since_ok {retention n : Nat} {cs : List Change}
    {events : List Event}
    (h : ((new retention).extend cs).since n = .ok events) :
    n ≤ cs.length ∧ events = numbered n (cs.drop n) := by
  rw [since_extend] at h
  split at h
  · cases h
  · next hin =>
    rw [not_or, Nat.not_lt] at hin
    cases h
    exact ⟨hin.1, rfl⟩

end Journal

end LabLease.Coordinator
