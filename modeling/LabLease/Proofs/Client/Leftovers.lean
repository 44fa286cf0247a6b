/-
Finished reservations in the replica of a client that has followed every
event.

Nothing is emitted when a finished reservation is forgotten, be it at once
as an expired one, when its time is over, or with the session of its
owner. A replica that has followed the events therefore keeps it as it was
reported last, while one that starts anew does not have it
(`leftovers_exact`, `expired_lingers`).

# What carries over

A replica has under each id what was reported last, or else what its
snapshot had (`applyAll_reservation`). Beside what is stored at the same
time, this is right for what is stored and final for what is not
(`Retained`), which is a matter of one stride at a time.
-/
import LabLease.Proofs.Client.Resumption
import LabLease.Proofs.Coordinator.Leasing
import LabLease.Proofs.Coordinator.LifeCycle

namespace LabLease

namespace Replica

variable (r : Replica) (id : String)

/-- A replica has a finished reservation under an id. -/
def Finished (x : Reservation) : Prop :=
  r.reservations.get? id = some x ∧ x.state.isFinal = true

theorem applyChange_reservation (c : Change) :
    (r.applyChange c).reservations.get? id
      = (reportsOf id (reported [c])).getLast?.or
          (r.reservations.get? id) := by
  cases c with
  | reservation x =>
    show (r.reservations.insert x.id x).get? id
      = (reportsOf id [x]).getLast?.or _
    rw [Table.get?_insert, Queue.reportsOf_singleton]
    split <;> rfl
  | _ => rfl

/-- Under each id there is what was reported last, or else what there was
before. -/
theorem applyAll_reservation (cs : List Change) :
    (r.applyAll cs).reservations.get? id
      = (reportsOf id (reported cs)).getLast?.or
          (r.reservations.get? id) := by
  induction cs generalizing r with
  | nil => rfl
  | cons c cs ih =>
    have hreports : reportsOf id (reported (c :: cs))
        = reportsOf id (reported [c]) ++ reportsOf id (reported cs) := by
      rw [← reportsOf_append, ← reported_append]
      rfl
    show ((r.applyChange c).applyAll cs).reservations.get? id = _
    rw [ih, applyChange_reservation, hreports, List.getLast?_append,
      Option.or_assoc]

end Replica

namespace Coordinator

/-- What is known of a reservation is what is stored, and final if nothing
is stored any more. -/
structure Retained (known stored : Option Reservation) : Prop where
  kept : ∀ x, stored = some x → known = some x
  finished : stored = none → ∀ x, known = some x → x.state.isFinal = true

namespace Retained

variable {known a b : Option Reservation} {rs : List Reservation}

theorem refl (a : Option Reservation) : Retained a a :=
  ⟨fun _ => id, fun hnone _ hsome => by rw [hnone] at hsome; cases hsome⟩

/-- A report that is final may be the end. -/
theorem ended {x : Reservation} (h : x.state.isFinal = true) :
    Retained (some x) none :=
  ⟨nofun, fun _ _ hx => Option.some.inj hx ▸ h⟩

theorem stride {Opens : Prop} (h : Retained known a)
    (hs : Stride Opens a rs b) : Retained (rs.getLast?.or known) b := by
  cases hs with
  | quiet => exact h
  | begun => exact .refl _
  | changed => exact .refl _
  | ended _ hfinal => exact .ended hfinal
  | forgotten hfinal =>
    rw [h.kept _ rfl]
    exact .ended hfinal

/-- The final states agree just if nothing that is known of has gone. -/
theorem finals_iff (h : Retained known a) :
    (∀ x, known = some x ∧ x.state.isFinal = true
      ↔ a = some x ∧ x.state.isFinal = true)
    ↔ (known ≠ none → a ≠ none) := by
  constructor
  · intro hsame hsome hnone
    obtain ⟨x, hx⟩ := Option.ne_none_iff_exists'.1 hsome
    have hleft := ((hsame x).1 ⟨hx, h.finished hnone x hx⟩).1
    rw [hnone] at hleft
    cases hleft
  · intro hstays x
    refine and_congr_left fun _ => ⟨fun hx => ?_, h.kept x⟩
    have hsome : known ≠ none := fun hnone => by
      rw [hnone] at hx
      cases hx
    obtain ⟨y, hy⟩ := Option.ne_none_iff_exists'.1 (hstays hsome)
    exact hy.trans ((h.kept y hy).symm.trans hx)

end Retained

/-- Who knows a state, and is told a log, knows what is left of each
reservation. -/
def Leaves (s : State) (log : List Change) (s' : State) : Prop :=
  ∀ id, Retained ((reportsOf id (reported log)).getLast?.or
    (s.queue.stored? id)) (s'.queue.stored? id)

namespace Leaves

variable {k : Kind} {l l' : Option SessionId} {s₀ s s' : State}

theorem move (h : Sound l s) (ht : Timed s) (hm : Move k l s l' s') :
    Carried (Leaves s₀) s s' := by
  obtain ⟨cs, hcs, ho⟩ := hm.operates
  refine ⟨cs, hcs, fun log hlog id => ?_⟩
  rw [reported_append, reportsOf_append, List.getLast?_append,
    Option.or_assoc]
  exact (hlog id).stride ((ho.strides h ht).stride id)

theorem run (h : Sound none s) (ht : Timed s) (inputs : List Input) :
    Leaves s (s.log inputs) (s.run inputs) := by
  have hstart : Leaves s [] s := fun id => .refl _
  have hrun := h.run_carried
    (fun h ht input _ => h.step_carried ht input (fun _ hp => hp) move)
    ht inputs hstart
  rwa [List.nil_append] at hrun

end Leaves

namespace Sound

variable {s : State}

theorem ofSnapshot_stored (h : Sound none s) (id : String) :
    (Replica.ofSnapshot s.snapshot).reservations.get? id
      = s.queue.stored? id := by
  rw [h.snapshot_reservations, Table.get?_mapValues]
  rfl

/-- Who follows has what was reported last, or else what was stored in the
beginning. -/
theorem followed_reservation (h : Sound none s) (inputs : List Input)
    (id : String) :
    ((Replica.ofSnapshot s.snapshot).applyEvents
        (s.appendedAll inputs)).2.reservations.get? id
      = (s.reports id inputs).getLast?.or (s.queue.stored? id) := by
  obtain ⟨cs, -, hall, -⟩ := h.run_told inputs
  have hlog : s.log inputs = cs := by
    unfold State.log
    rw [hall, map_change_numbered]
  rw [hall, Replica.applyEvents_numbered _ cs rfl]
  show (Replica.applyAll _ cs).reservations.get? id = _
  rw [Replica.applyAll_reservation, h.ofSnapshot_stored, ← hlog]
  rfl

end Sound

/-- A replica that has followed every event, and what a coordinator that
forgets has left. The replica has the number of the last event, and under
each id the report that came last since its snapshot, or else what the
snapshot had. What the coordinator has stored the replica has just so, and
what else it has is finished: these are the reservations that have been
forgotten. So it has the same finished reservations as one that starts
anew just if none that was in the snapshot, or has been reported since,
was forgotten. -/
theorem leftovers_exact (settings : Settings)
    (before inputs : List Input) :
    let s := (State.new settings).run before
    let s' := s.run inputs
    let r := ((Replica.ofSnapshot s.snapshot).applyEvents
      (s.appendedAll inputs)).2
    let fresh := Replica.ofSnapshot s'.snapshot
    r.lastEvent = some s'.eventNumber
      ∧ fresh.lastEvent = some s'.eventNumber
      ∧ (∀ id, fresh.reservations.get? id = s'.queue.stored? id)
      ∧ (∀ id, r.reservations.get? id
        = (s.reports id inputs).getLast?.or (s.queue.stored? id))
      ∧ (∀ id x, s'.queue.stored? id = some x →
        r.reservations.get? id = some x)
      ∧ (∀ id, s'.queue.stored? id = none → ∀ x,
        r.reservations.get? id = some x → x.state.isFinal = true)
      ∧ ((∀ id x, r.Finished id x ↔ fresh.Finished id x)
        ↔ ∀ id, s.queue.stored? id ≠ none ∨ s.reports id inputs ≠ [] →
          s'.queue.stored? id ≠ none) := by
  intro s s' r fresh
  have h : Sound none s := .reached settings before
  have ht : Timed s :=
    (Sound.new settings).run_timed (.new settings) before
  have hfresh : ∀ id, fresh.reservations.get? id = s'.queue.stored? id :=
    (h.run inputs).ofSnapshot_stored
  have hr : ∀ id, r.reservations.get? id
      = (s.reports id inputs).getLast?.or (s.queue.stored? id) :=
    h.followed_reservation inputs
  have hretained : ∀ id, Retained (r.reservations.get? id)
      (s'.queue.stored? id) := by
    intro id
    rw [hr]
    exact Leaves.run h ht inputs id
  -- what the replica knows of at all
  have hknown : ∀ id, r.reservations.get? id ≠ none
      ↔ s.queue.stored? id ≠ none ∨ s.reports id inputs ≠ [] := by
    intro id
    rw [hr, Ne, Option.or_eq_none_iff, List.getLast?_eq_none_iff,
      not_and_or, or_comm]
  refine ⟨followed_lastEvent settings before inputs, rfl, hfresh, hr,
    fun id => (hretained id).kept, fun id => (hretained id).finished, ?_⟩
  refine forall_congr' fun id => ?_
  rw [← hknown]
  unfold Replica.Finished
  rw [hfresh]
  exact (hretained id).finals_iff

/-- A reservation for what nobody offers is not polled and expires in the
next sweep. The coordinator lists no reservation after that, and whoever
starts anew has none. The replica that has followed both events has the
expired one. -/
theorem expired_lingers :
    let settings : Settings := { reservationPollTimeoutSecs := 10 }
    let noon : Moment := ⟨0, ⟨2024, 1, 1, 12, 0, 0, 0⟩⟩
    let later : Moment := ⟨10000, ⟨2024, 1, 1, 12, 0, 10, 0⟩⟩
    let any : ResourcePattern := ⟨everything, everything, everything, none⟩
    let s := (State.new settings).run [.register "alice" .client noon]
    let inputs : List Input :=
      [.execute 1 (.createReservation [any] 0) noon, .sweep later]
    let s' := s.run inputs
    let r := ((Replica.ofSnapshot s.snapshot).applyEvents
      (s.appendedAll inputs)).2
    r.lastEvent = some s'.eventNumber
      ∧ s'.eventNumber = 2
      ∧ s'.queue.list = []
      ∧ (r.reservations.get? (Reservation.idOf 1)).map (·.state)
        = some .expired
      ∧ ¬ ∀ id x, r.Finished id x
        ↔ (Replica.ofSnapshot s'.snapshot).Finished id x := by
  intro settings noon later any s inputs s' r
  obtain ⟨hlast, hnumber, hlist, hstate, hnone⟩ :
      r.lastEvent = some s'.eventNumber
        ∧ s'.eventNumber = 2
        ∧ s'.queue.list = []
        ∧ (r.reservations.get? (Reservation.idOf 1)).map (·.state)
          = some .expired
        ∧ (Replica.ofSnapshot s'.snapshot).reservations.get?
          (Reservation.idOf 1) = none := by
    decide +kernel
  refine ⟨hlast, hnumber, hlist, hstate, fun hsame => ?_⟩
  obtain ⟨x, hx, hexpired⟩ := Option.map_eq_some_iff.1 hstate
  have hfinal : x.state.isFinal = true := by
    rw [hexpired]
    rfl
  have hgone := ((hsame (Reservation.idOf 1) x).1 ⟨hx, hfinal⟩).1
  rw [hnone] at hgone
  cases hgone

end Coordinator

end LabLease
