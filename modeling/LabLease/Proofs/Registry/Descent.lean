/-
What the queue never does to a reservation: every operation but a
creation leaves only entries that were there before, and none of them
under another id, with another owner or with other wishes.

A rescan does less still: nothing comes or goes, and an entry changes
only if it waited and was served (`Advances`). That is closed under
composition, so any number of rescans in a row is described by it.
-/
import LabLease.Proofs.Registry.Queue

namespace LabLease

/-- A later entry of the same reservation: what was asked for, and by
whom, is the same. -/
structure QueueEntry.Continues (e' e : QueueEntry) : Prop where
  id : e'.id = e.id
  owner : e'.reservation.owner = e.reservation.owner
  filters : e'.reservation.filters = e.reservation.filters
  priority : e'.reservation.priority = e.reservation.priority

/-- Every entry of the later queue continues one that was stored under
the same key. -/
def Queue.Descends (q' q : Queue) : Prop :=
  ∀ i e', q'.entries.get? i = some e' →
    ∃ e, q.entries.get? i = some e ∧ e'.Continues e

variable {q q' : Queue} {i : String} {e : QueueEntry}

namespace QueueEntry.Continues

/-- An entry that is left continues itself. -/
theorem refl (e : QueueEntry) : e.Continues e := ⟨rfl, rfl, rfl, rfl⟩

/-- A step of its life asks for nothing new. -/
theorem moved (e : QueueEntry) (s : ReservationState) :
    (e.moved s).Continues e :=
  ⟨rfl, rfl, rfl, rfl⟩

/-- An allocation is beside what was asked for. -/
theorem allocated (e : QueueEntry) (ids : List ResourceId)
    (deadline : Nat) : (e.allocated ids deadline).Continues e :=
  ⟨rfl, rfl, rfl, rfl⟩

end QueueEntry.Continues

namespace Queue

/-- A queue that is left descends from itself. -/
theorem Descends.refl (q : Queue) : q.Descends q :=
  fun _ e he => ⟨e, he, .refl e⟩

/-- An entry is put in place of one that it continues. -/
theorem Descends.insert {e' : QueueEntry}
    (he : q.entries.get? i = some e) (hc : e'.Continues e) :
    Descends { q with entries := q.entries.insert i e' } q := by
  intro j f hf
  rw [Table.get?_insert] at hf
  split at hf
  · next hij =>
    cases hf
    exact ⟨e, hij ▸ he, hc⟩
  · exact ⟨f, hf, .refl f⟩

/-- What descends from a queue that is filed is filed. -/
theorem Filed.descends (h : q.Filed) (hd : q'.Descends q) :
    q'.Filed := by
  intro i e' he'
  obtain ⟨e, he, hc⟩ := hd i e' he'
  exact hc.id.trans (h i e he)

/-- Any change of some entries that continues each of them. -/
theorem changeWhere_descends {test : QueueEntry → Bool}
    {f : QueueEntry → QueueEntry} (hf : ∀ e, (f e).Continues e) :
    (q.changeWhere test f).2.Descends q := by
  intro i e' he'
  obtain ⟨e, he, ⟨-, rfl⟩ | ⟨-, rfl⟩⟩ := get?_changeWhere he'
  · exact ⟨e, he, hf e⟩
  · exact ⟨e', he, .refl e'⟩

/-- Taking up an allocation. -/
theorem convert_descends (q : Queue) (session : SessionId)
    (bound : List ResourceId) (now : Moment) :
    (q.convert session bound now).2.Descends q :=
  changeWhere_descends fun _ => ⟨rfl, rfl, rfl, rfl⟩

/-- Losing one. -/
theorem invalidate_descends (q : Queue) (removed : List ResourceId) :
    (q.invalidate removed).2.Descends q :=
  changeWhere_descends fun e => .moved e .waiting

/-- Serving whoever can be served. -/
theorem rescan_descends (hq : q.Filed) {inv : Inventory} (hf : inv.Filed)
    (free : Resource → Bool) (skip : List String) (now : Moment) :
    (q.rescan inv free skip now).2.Descends q := by
  intro i e' he'
  rcases get?_rescan he' with ⟨hs, rfl⟩ | ⟨-, he⟩
  · obtain ⟨e, ids, hall, -, -, rfl, -⟩ := (served_of_mem hf hs).origin
    exact ⟨e, hq.mem_all.1 hall, .allocated e ids _⟩
  · exact ⟨e', he, .refl e'⟩

/-- Cancelling one, whether or not it had come to its end. -/
theorem cancel_descends {session : SessionId} {now : Moment}
    {out : Option Reservation}
    (h : q.cancel i session now = .ok (out, q')) : q'.Descends q := by
  obtain ⟨e, he, -, ⟨-, -, rfl⟩ | ⟨-, -, rfl⟩⟩ := cancel_ok h
  · exact .refl _
  · exact .insert he ⟨rfl, rfl, rfl, rfl⟩

/-- Asking after one. -/
theorem poll_descends {session : SessionId} {now : Moment}
    {r : Reservation} (h : q.poll i session now = .ok (r, q')) :
    q'.Descends q := by
  obtain ⟨e, he, -, -, ⟨-, rfl⟩ | ⟨-, rfl⟩⟩ := poll_ok h
  · exact .refl _
  · exact .insert he ⟨rfl, rfl, rfl, rfl⟩

/-- Dropping those of a session. -/
theorem removeSession_descends (q : Queue) (session : SessionId) :
    (q.removeSession session).2.Descends q :=
  fun _ e' he' => ⟨e', (get?_removeSession.1 he').1, .refl e'⟩

/-- A sweep, in which an allocation that lapses is given a new arrival. -/
theorem expire_descends (hq : q.Filed) (now : Moment) :
    (q.expire now).2.Descends q := by
  intro i e' he'
  obtain ⟨e, he, ⟨-, arrival, rfl⟩ | ⟨-, -, -, rfl⟩⟩ := get?_expire hq he'
  · exact ⟨e, he, ⟨rfl, rfl, rfl, rfl⟩⟩
  · exact ⟨e', he, .refl e'⟩

-- ================================================================ counts

/-- What is counted and set about a queue is as it was. -/
structure Steady (q' q : Queue) : Prop where
  created : q'.created = q.created
  gracePeriod : q'.gracePeriod = q.gracePeriod

/-- A queue that is left is as it was. -/
theorem Steady.refl (q : Queue) : q.Steady q := ⟨rfl, rfl⟩

/-- Putting entries back counts nothing. -/
theorem Steady.foldl_put (es : List QueueEntry) (q : Queue) :
    (es.foldl put q).Steady q := by
  induction es generalizing q with
  | nil => exact .refl q
  | cons e es ih => exact ⟨(ih _).created, (ih _).gracePeriod⟩

/-- What lapses is no new reservation. -/
theorem Steady.lapseAll (now : Moment) (es : List QueueEntry)
    (q : Queue) : (lapseAll now q es).2.Steady q := by
  induction es generalizing q with
  | nil => exact .refl q
  | cons e es ih => exact ⟨(ih _).created, (ih _).gracePeriod⟩

/-- So a sweep counts none. -/
theorem Steady.expire (q : Queue) (now : Moment) :
    (q.expire now).2.Steady q := by
  have h := lapseAll now (q.all.filter (isLapsed now)) (q.kept now)
  exact ⟨h.created, h.gracePeriod⟩

/-- Nor does cancelling one. -/
theorem Steady.cancel {id : String} {session : SessionId} {now : Moment}
    {out : Option Reservation}
    (h : q.cancel id session now = .ok (out, q')) : q'.Steady q := by
  obtain ⟨e, -, -, ⟨-, -, rfl⟩ | ⟨-, -, rfl⟩⟩ := cancel_ok h
  · exact .refl _
  · exact ⟨rfl, rfl⟩

/-- Nor asking after one. -/
theorem Steady.poll {id : String} {session : SessionId} {now : Moment}
    {r : Reservation} (h : q.poll id session now = .ok (r, q')) :
    q'.Steady q := by
  obtain ⟨e, -, -, -, ⟨-, rfl⟩ | ⟨-, rfl⟩⟩ := poll_ok h
  · exact .refl _
  · exact ⟨rfl, rfl⟩

end Queue

-- =========================================================== only served

/-- An entry that is as it was, or that waited and was served. -/
inductive QueueEntry.Advances (e' e : QueueEntry) : Prop
  | same (h : e' = e)
  | served (ids : List ResourceId) (deadline : Nat)
      (hw : e.reservation.state = .waiting)
      (h : e' = e.allocated ids deadline)

/-- The same reservations, each as it was or served by now. -/
def Queue.Advances (q' q : Queue) : Prop :=
  ∀ i, Option.Rel QueueEntry.Advances (q'.entries.get? i)
    (q.entries.get? i)

namespace QueueEntry.Advances

variable {e' e'' : QueueEntry}

/-- Once it is served an entry does not wait, so it is served but once. -/
theorem trans (h : e''.Advances e') (h' : e'.Advances e) :
    e''.Advances e := by
  cases h with
  | same h => exact h ▸ h'
  | served ids deadline hw h =>
    cases h' with
    | same h' => exact .served ids deadline (h' ▸ hw) (h' ▸ h)
    | served _ _ _ h' =>
      rw [h'] at hw
      cases hw

/-- To be served asks for nothing new. -/
theorem continues (h : e'.Advances e) : e'.Continues e := by
  cases h with
  | same h => exact h ▸ .refl e
  | served ids deadline _ h => exact h ▸ .allocated e ids deadline

end QueueEntry.Advances

namespace Queue.Advances

variable {q'' : Queue}

/-- Nobody has been served. -/
theorem refl (q : Queue) : q.Advances q := by
  intro i
  cases q.entries.get? i with
  | none => exact .none
  | some e => exact .some (.same rfl)

/-- Rescans in a row. -/
theorem trans (h : q''.Advances q') (h' : q'.Advances q) :
    q''.Advances q := by
  intro i
  have hi := h i
  have hi' := h' i
  generalize q''.entries.get? i = x at hi
  generalize q'.entries.get? i = y at hi hi'
  generalize q.entries.get? i = z at hi'
  cases hi with
  | none =>
    cases hi'
    exact .none
  | some hxy =>
    cases hi' with
    | some hyz => exact .some (hxy.trans hyz)

/-- Nothing comes, and nothing asks for something new. -/
theorem descends (h : q'.Advances q) : q'.Descends q := by
  intro i e' he'
  have hi := h i
  rw [he'] at hi
  generalize q.entries.get? i = y at hi
  cases hi with
  | some hadv => exact ⟨_, rfl, hadv.continues⟩

/-- One rescan: whom it serves was waiting. -/
theorem rescan (hq : q.Filed) {inv : Inventory} (hf : inv.Filed)
    (free : Resource → Bool) (skip : List String) (now : Moment) :
    (q.rescan inv free skip now).2.Advances q := by
  intro i
  have hwas : ∀ e', (q.rescan inv free skip now).2.entries.get? i
      = some e' → ∃ e, q.entries.get? i = some e ∧ e'.Advances e := by
    intro e' he'
    rcases Queue.get?_rescan he' with ⟨hserved, rfl⟩ | ⟨-, he⟩
    · obtain ⟨e, ids, hall, hw, -, rfl, -⟩ :=
        (Queue.served_of_mem hf hserved).origin
      exact ⟨e, hq.mem_all.1 hall, .served ids _ hw rfl⟩
    · exact ⟨e', he, .same rfl⟩
  cases he' : (q.rescan inv free skip now).2.entries.get? i with
  | some e' =>
    obtain ⟨e, he, hadv⟩ := hwas e' he'
    rw [he]
    exact .some hadv
  | none =>
    cases he : q.entries.get? i with
    | none => exact .none
    | some e =>
      -- what is stored stays stored
      obtain ⟨e', hsome⟩ := q.rescan_isSome inv free skip now ⟨e, he⟩
      rw [he'] at hsome
      cases hsome

/-- The reservations of a session go alike from both queues. -/
theorem removeSession (h : q'.Advances q) (session : SessionId) :
    (q'.removeSession session).2.Advances (q.removeSession session).2 := by
  intro i
  have hi := h i
  unfold Queue.removeSession
  dsimp only
  rw [Table.get?_filter, Table.get?_filter]
  generalize q'.entries.get? i = x at hi
  generalize q.entries.get? i = y at hi
  cases hi with
  | none => exact .none
  | @some e' e hadv =>
    have howned : e'.isOwnedBy session = e.isOwnedBy session := by
      unfold QueueEntry.isOwnedBy
      rw [hadv.continues.owner]
    rw [Option.filter_some, Option.filter_some, howned]
    split
    · exact .some hadv
    · exact .none

/-- After some resources were lost and a session that has reserved
nothing is gone: who had a lost resource set aside waits again, or has
been served since, and everybody else is as before. -/
theorem of_lost {lost : List ResourceId} {session : SessionId}
    (hother : ∀ i e, q.entries.get? i = some e →
      e.isOwnedBy session = false)
    (h : q'.Advances ((q.invalidate lost).2.removeSession session).2)
    (i : String) :
    Option.Rel (fun e' e => e'.Advances e
        ∨ (e.holdsAny lost = true ∧ e'.Advances (e.moved .waiting)))
      (q'.entries.get? i) (q.entries.get? i) := by
  have hi := h i
  unfold Queue.removeSession Queue.invalidate at hi
  dsimp only at hi
  rw [Table.get?_filter, Queue.get?_entries_changeWhere] at hi
  generalize q'.entries.get? i = x at hi
  cases he : q.entries.get? i with
  | none =>
    rw [he] at hi
    cases hi
    exact .none
  | some e =>
    have hown := hother i e he
    rw [he, Option.map_some, Option.filter_some] at hi
    by_cases hlost : e.holdsAny lost = true
    · have hmoved : (e.moved .waiting).isOwnedBy session = false := hown
      rw [if_pos hlost, hmoved] at hi
      cases hi with
      | some hadv => exact .some (Or.inr ⟨hlost, hadv⟩)
    · rw [if_neg hlost, hown] at hi
      cases hi with
      | some hadv => exact .some (Or.inl hadv)

end Queue.Advances

end LabLease
