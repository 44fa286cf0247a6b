/-
How long a reservation lives without being asked for: what the operations
of the queue make of its poll deadline.

A creation sets the deadline, a poll of a pending reservation and the
lapse of an allocation set it anew, and everything else leaves it where it
is. In particular an allocation that is lost with a resource goes back to
waiting with the deadline that it had before (`Renewed.invalidate`), which
may be long over.
-/
import LabLease.Proofs.Registry.Descent

namespace LabLease.Queue

/-- The poll deadline of what is stored under an id counts from an
instant, if there is one, and otherwise is what it was before. -/
structure Renewed (q' q : Queue) (i : String) (since : Option Nat) :
    Prop where
  timeout : q'.pollTimeout = q.pollTimeout
  deadline : ∀ e', q'.entries.get? i = some e' →
    (since.map (· + q.pollTimeout)).or
      ((q.entries.get? i).map (·.pollDeadline)) = some e'.pollDeadline

namespace Renewed

variable {q q' q'' : Queue} {i id : String} {now : Moment}
  {session : SessionId} {r : Reservation} {e e' : QueueEntry}
  {earlier later : Option Nat}

/-- Whatever is stored was stored before, with the same deadline. -/
theorem of_lasting (ht : q'.pollTimeout = q.pollTimeout)
    (hsame : ∀ e', q'.entries.get? i = some e' →
      ∃ e, q.entries.get? i = some e
        ∧ e'.pollDeadline = e.pollDeadline) :
    q'.Renewed q i none := by
  refine ⟨ht, fun e' he' => ?_⟩
  obtain ⟨e, he, heq⟩ := hsame e' he'
  rw [he, heq]
  rfl

/-- What is left has its deadline. -/
theorem refl (q : Queue) (i : String) : q.Renewed q i none :=
  of_lasting rfl fun e he => ⟨e, he, rfl⟩

/-- The later instant counts. -/
theorem trans (h : q''.Renewed q' i later) (h' : q'.Renewed q i earlier) :
    q''.Renewed q i (later.or earlier) := by
  refine ⟨h.timeout.trans h'.timeout, fun e'' he'' => ?_⟩
  have hlast := h.deadline e'' he''
  cases later with
  | some t => rwa [h'.timeout] at hlast
  | none =>
    obtain ⟨e', he', heq⟩ := Option.map_eq_some_iff.1 hlast
    rw [← heq]
    exact h'.deadline e' he'

-- ============================================================== one entry

section Insert

variable (hq : q'.entries = q.entries.insert id e')
  (ht : q'.pollTimeout = q.pollTimeout)
include hq ht

/-- An entry under another id is none of it. -/
theorem insert_other (hne : id ≠ i) : q'.Renewed q i none := by
  refine of_lasting ht fun f hf => ⟨f, ?_, rfl⟩
  rwa [hq, Table.get?_insert, if_neg hne] at hf

/-- An entry is put in place of one with the same deadline. -/
theorem insert_same (he : q.entries.get? id = some e)
    (hsame : e'.pollDeadline = e.pollDeadline) :
    q'.Renewed q i none := by
  by_cases hi : id = i
  · subst hi
    refine of_lasting ht fun f hf => ⟨e, he, ?_⟩
    rw [hq, Table.get?_insert, if_pos rfl] at hf
    cases hf
    exact hsame
  · exact insert_other hq ht hi

/-- An entry is put in with a deadline that counts from now. -/
theorem insert_anew
    (hnow : e'.pollDeadline = now.ticks + q.pollTimeout) :
    q'.Renewed q i (if id = i then some now.ticks else none) := by
  by_cases hi : id = i
  · rw [if_pos hi]
    refine ⟨ht, fun f hf => ?_⟩
    rw [hq, Table.get?_insert, if_pos hi] at hf
    cases hf
    rw [hnow]
    rfl
  · rw [if_neg hi]
    exact insert_other hq ht hi

end Insert

-- ==================================================== what leaves it alone

/-- A change of some entries that leaves their deadlines. -/
theorem changeWhere {test : QueueEntry → Bool}
    {f : QueueEntry → QueueEntry}
    (hf : ∀ e, (f e).pollDeadline = e.pollDeadline) :
    (q.changeWhere test f).2.Renewed q i none := by
  refine of_lasting rfl fun e' he' => ?_
  obtain ⟨e, he, ⟨-, rfl⟩ | ⟨-, rfl⟩⟩ := get?_changeWhere he'
  · exact ⟨e, he, hf e⟩
  · exact ⟨e', he, rfl⟩

/-- Taking up an allocation leaves the deadline. -/
theorem convert (q : Queue) (i : String) (session : SessionId)
    (bound : List ResourceId) (now : Moment) :
    (q.convert session bound now).2.Renewed q i none :=
  changeWhere fun _ => rfl

/-- So does losing one. -/
theorem invalidate (q : Queue) (i : String) (removed : List ResourceId) :
    (q.invalidate removed).2.Renewed q i none :=
  changeWhere fun _ => rfl

/-- And cancelling. -/
theorem cancel {out : Option Reservation}
    (h : q.cancel id session now = .ok (out, q')) :
    q'.Renewed q i none := by
  obtain ⟨e, he, -, ⟨-, -, rfl⟩ | ⟨-, -, rfl⟩⟩ := cancel_ok h
  · exact .refl _ _
  · exact insert_same rfl rfl he rfl

/-- And dropping the reservations of a session. -/
theorem removeSession (q : Queue) (i : String) (session : SessionId) :
    (q.removeSession session).2.Renewed q i none :=
  of_lasting rfl fun e he => ⟨e, (get?_removeSession.1 he).1, rfl⟩

theorem foldl_put_pollTimeout (es : List QueueEntry) (q : Queue) :
    (es.foldl put q).pollTimeout = q.pollTimeout := by
  induction es generalizing q with
  | nil => rfl
  | cons e es ih => exact ih (q.put e)

/-- To be served leaves the deadline of the poll beside the one of the
allocation. -/
theorem rescan (hq : q.Filed) {inv : Inventory} (hf : inv.Filed)
    (i : String) (free : Resource → Bool) (skip : List String)
    (now : Moment) : (q.rescan inv free skip now).2.Renewed q i none := by
  refine of_lasting (foldl_put_pollTimeout _ q) fun e' he' => ?_
  rcases get?_rescan he' with ⟨hs, rfl⟩ | ⟨-, he⟩
  · obtain ⟨e, ids, hall, -, -, rfl, -⟩ := (served_of_mem hf hs).origin
    exact ⟨e, hq.mem_all.1 hall, rfl⟩
  · exact ⟨e', he, rfl⟩

-- ========================================================= what renews it

/-- A new reservation lives from its creation. -/
theorem create {owner : Holder} {filters : List ResourcePattern}
    {priority : Int}
    (h : q.create owner filters priority now = .ok (r, q')) :
    q'.Renewed q i (if r.id = i then some now.ticks else none) := by
  obtain ⟨-, -, rfl⟩ := create_ok h
  exact insert_anew rfl rfl rfl

/-- A poll of a reservation that is finished does nothing. -/
theorem poll (h : q.poll id session now = .ok (r, q')) :
    q'.Renewed q i
      (if id = i ∧ r.state.isPending = true then some now.ticks
        else none) := by
  obtain ⟨e, -, -, rfl, ⟨hp, rfl⟩ | ⟨hp, rfl⟩⟩ := poll_ok h
  · simp only [hp, Bool.false_eq_true, and_false, if_false]
    exact .refl _ _
  · simp only [hp, and_true]
    exact insert_anew rfl rfl rfl

theorem lapseAll_pollTimeout (now : Moment) (es : List QueueEntry)
    (q : Queue) : (lapseAll now q es).2.pollTimeout = q.pollTimeout := by
  induction es generalizing q with
  | nil => rfl
  | cons e es ih => exact ih (lapse now q e).2

/-- One whose allocation lapsed lives from the check of deadlines. -/
theorem expire (hf : q.Filed) (i : String) (now : Moment) :
    (q.expire now).2.Renewed q i
      (if i ∈ (q.expire now).1.reverted then some now.ticks
        else none) := by
  refine ⟨lapseAll_pollTimeout now _ _, fun e' he' => ?_⟩
  obtain ⟨e, he, ⟨hl, arrival, rfl⟩ | ⟨hl, -, -, rfl⟩⟩ := get?_expire hf he'
  · rw [if_pos ((mem_reverted hf).2 ⟨e, he, hl⟩)]
    rfl
  · have hnot : i ∉ (q.expire now).1.reverted := by
      intro hback
      obtain ⟨f, hf', hl'⟩ := (mem_reverted hf).1 hback
      rw [he] at hf'
      cases hf'
      rw [hl] at hl'
      cases hl'
    rw [if_neg hnot, he]
    rfl

end Renewed

end LabLease.Queue
