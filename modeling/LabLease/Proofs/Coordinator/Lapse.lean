/-
What becomes of an allocation that lapses in a sweep: it is taken back
and offered to everybody else first.

# Two rescans

The check of the deadlines ends with a rescan that skips whoever it has
just put back. But the sweep goes on, and where places are released for
missing resources each release ends with a rescan of the whole queue. So
whoever was put back waits when the sweep is over if no such release
follows. If one does, it may have been served again, and if it was not
then because it could not be.

# The loop

Of the turns of the loop over the places only those of overdue ones do
anything to the queue (`State.checkOrphan_same`), and the first of these
settles it for good: what comes after eases (`Eases.checkOrphan`).
-/
import LabLease.Proofs.Coordinator.Idleness
import LabLease.Proofs.Coordinator.Orphans
import LabLease.Proofs.Coordinator.Teardown

namespace LabLease.Coordinator

variable {s : State} {now : Moment} {place : String} {limit : Nat}

-- ============================================================ who is served

namespace State

/-- A release serves who waits and does nothing else to the queue. -/
theorem releaseFrom_advances (hf : s.inventory.Filed) (hq : s.queue.Filed)
    (place : String) (session : SessionId) (holder : Option Holder)
    (now : Moment) :
    (s.releaseFrom place session holder now).queue.Advances s.queue := by
  unfold releaseFrom
  cases s.places.release place session true now.date with
  | error e => exact .refl _
  | ok out =>
    dsimp only
    rw [finishRelease_eq, rescan_queue]
    unfold vacated
    rw [emitAll_queue, emitAll_inventory]
    exact .rescan hq (hf.flag _ false) _ _ _

theorem checkOrphan_advances (hf : s.inventory.Filed) (hq : s.queue.Filed)
    (limit : Nat) (now : Moment) (place : String) :
    (s.checkOrphan limit now place).queue.Advances s.queue := by
  have hsame := Queue.Advances.refl s.queue
  have hrelease : ∀ t : State, t.inventory = s.inventory →
      t.queue = s.queue → ∀ session holder,
        (t.releaseFrom place session holder now).queue.Advances
          s.queue := by
    intro t hi hqueue session holder
    rw [← hqueue]
    exact releaseFrom_advances (hi ▸ hf) (hqueue ▸ hq) _ _ _ now
  unfold checkOrphan
  dsimp only
  split
  · exact hsame
  · split
    · split
      · refine hrelease _ ?_ ?_ _ _ <;> rfl
      · exact hsame
    · exact hsame

end State

namespace Sound

theorem checkOrphan (h : Sound none s) (limit : Nat) (now : Moment)
    (place : String) : Sound none (s.checkOrphan limit now place) := by
  have hm : Moves (fun _ => True) none s none
      (s.checkOrphan limit now place) :=
    .checkOrphan none limit now s trivial trivial fun _ _ => trivial
  exact h.moves hm

/-- Nobody loses anything while places are released. -/
theorem releaseOrphans_advances (h : Sound none s) (now : Moment) :
    (s.releaseOrphans now).queue.Advances s.queue := by
  have hloop : ∀ (limit : Nat) (names : List String) (t : State),
      Sound none t →
      (names.foldl (State.checkOrphan limit now) t).queue.Advances
        t.queue := by
    intro limit names
    induction names with
    | nil => exact fun _ _ => .refl _
    | cons name names ih =>
      intro t ht
      exact (ih _ (ht.checkOrphan limit now name)).trans
        (State.checkOrphan_advances ht.inventory ht.queue limit now name)
  cases hlimit : s.settings.orphanLimit with
  | none =>
    rw [State.releaseOrphans_none hlimit]
    exact .refl _
  | some limit =>
    rw [State.releaseOrphans_eq hlimit]
    exact hloop limit _ _ (h.move (.aside _ _ _))

/-- Where nothing is overdue the queue stays as it is. -/
theorem releaseOrphans_quiet (h : Sound none s)
    (hnone : ∀ place, ¬ s.Overdue now place) :
    (s.releaseOrphans now).queue = s.queue := by
  have hloop : ∀ (limit : Nat) (names : List String), names.Nodup →
      ∀ t : State, (∀ n ∈ names, ¬ limit ≤ now.since
          ((t.incompleteSince.get? n).getD now.ticks)) →
        (names.foldl (State.checkOrphan limit now) t).queue
          = t.queue := by
    intro limit names
    induction names with
    | nil => exact fun _ _ _ => rfl
    | cons name names ih =>
      intro hnd t hdue
      obtain ⟨hnot, hnd⟩ := List.nodup_cons.1 hnd
      refine (ih hnd _ fun n hn => ?_).trans ?_
      · -- the turn of one place leaves the timers of the others
        have hne : n ≠ name := fun heq => hnot (heq ▸ hn)
        rw [State.checkOrphan_incompleteSince limit now hne]
        exact hdue n (List.mem_cons_of_mem name hn)
      · rw [State.checkOrphan_same (hdue name List.mem_cons_self)]
  cases hlimit : s.settings.orphanLimit with
  | none => rw [State.releaseOrphans_none hlimit]
  | some limit =>
    rw [State.releaseOrphans_eq hlimit]
    refine hloop limit _ (State.nodup_incomplete h.places) _ fun n hn => ?_
    intro hdue
    obtain ⟨p, hp, hmiss⟩ := (State.mem_incomplete h.places).1 hn
    rw [State.get?_keptTimers hn] at hdue
    exact hnone n ⟨limit, p, hlimit, hp, hmiss, hdue⟩

-- ======================================================== who is left over

/-- Once a place has been released there is nobody left to be served. -/
theorem checkOrphan_settled (h : Sound none s) {p : Place} {held : Holder}
    (hp : s.places.entries.get? place = some p)
    (hh : p.holder = some held)
    (hdue : limit ≤ now.since
      ((s.incompleteSince.get? place).getD now.ticks)) :
    (s.checkOrphan limit now place).Settled fun _ => False := by
  have hnoted : Sound none { s with
      incompleteSince := s.incompleteSince.insert place
        ((s.incompleteSince.get? place).getD now.ticks) } :=
    h.move (.aside _ _ _)
  have hr := Places.release_of_held held.session now.date hp hh
  unfold State.checkOrphan
  dsimp only
  rw [if_neg (Nat.not_lt.2 hdue), Places.get_eq_ok.2 hp]
  dsimp only
  rw [hh]
  dsimp only
  unfold State.releaseFrom
  rw [hr]
  dsimp only
  rw [State.finishRelease_eq]
  exact ((hnoted.vacate (some held) hr).rescan_settled now []).mono
    fun _ hid => nomatch hid

/-- If any place of the loop is due, nobody is left over. -/
theorem checkOrphans_settled (h : Sound none s) {p : Place}
    {held : Holder} {names : List String} (hnd : names.Nodup)
    (hmem : place ∈ names) (hp : s.places.entries.get? place = some p)
    (hh : p.holder = some held)
    (hdue : limit ≤ now.since
      ((s.incompleteSince.get? place).getD now.ticks)) :
    (names.foldl (State.checkOrphan limit now) s).Settled
      fun _ => False := by
  induction names generalizing s with
  | nil => cases hmem
  | cons name names ih =>
    obtain ⟨hnot, hnd⟩ := List.nodup_cons.1 hnd
    have hnext := h.checkOrphan limit now name
    rw [List.foldl_cons]
    by_cases hname : place = name
    · subst hname
      refine State.Eases.foldl (fun n t ht => ?_) hnext _
        (h.checkOrphan_settled hp hh hdue)
      exact ⟨ht.checkOrphan limit now n, .checkOrphan ht limit now n⟩
    · refine ih hnext hnd ((List.mem_cons.1 hmem).resolve_left hname) ?_ ?_
      · rw [State.get?_checkOrphan limit now hname, hp]
      · rw [State.checkOrphan_incompleteSince limit now hname]
        exact hdue

theorem releaseOrphans_settled (h : Sound none s)
    (hdue : s.Overdue now place) :
    (s.releaseOrphans now).Settled fun _ => False := by
  obtain ⟨limit, p, hlimit, hp, hmiss, hsince⟩ := hdue
  -- what misses resources is held
  obtain ⟨held, hh⟩ := Option.isSome_iff_exists.1
    (Bool.and_eq_true_iff.1 hmiss).1
  have hmem := (State.mem_incomplete h.places).2 ⟨p, hp, hmiss⟩
  have hkept : Sound none { s with
      incompleteSince := s.incompleteSince.filter fun name _ =>
        s.incomplete.contains name } := h.move (.aside _ _ _)
  rw [State.releaseOrphans_eq hlimit]
  refine hkept.checkOrphans_settled (State.nodup_incomplete h.places) hmem
    hp hh ?_
  rw [State.get?_keptTimers hmem]
  exact hsince

end Sound

-- ======================================================= what has lapsed

/-- Whose allocations lapse, by what is stored. -/
theorem Sound.mem_reverted (h : Sound none s) {id : String} :
    id ∈ s.reverted now ↔ ∃ e,
      (s.evictSilent now).queue.entries.get? id = some e
        ∧ Queue.isLapsed now e = true :=
  Queue.mem_reverted (h.moves (Moves.evictSilent h now)).queue

/-- What lapses is offered to everybody else first. When a sweep has
checked the deadlines, whoever had a lapsed allocation waits, and apart
from those there is nobody left to be served. Whoever was put back still
waits when the sweep is over, unless the sweep also releases a place that
has missed resources for too long: then it may have been served again
meanwhile, and has been if it could be out of what is left. -/
theorem lapsed_served_last (settings : Settings) (inputs : List Input)
    (now : Moment) :
    let s := (State.new settings).run inputs
    let seen := s.inspected now
    ∀ id ∈ s.reverted now, ∃ e₀ e e',
      (s.evictSilent now).queue.entries.get? id = some e₀
        ∧ Queue.isLapsed now e₀ = true
        ∧ seen.queue.entries.get? id = some e
        ∧ e.reservation = e₀.reservation.transition .waiting
        ∧ seen.Settled (· ∈ s.reverted now)
        ∧ (s.sweep now).queue.entries.get? id = some e'
        ∧ e'.Advances e
        ∧ ((∀ place, ¬ seen.Overdue now place) → e' = e)
        ∧ ((∃ place, seen.Overdue now place) →
          e'.reservation.state = .waiting →
            ¬ (s.sweep now).Bindable e'.reservation.filters) := by
  intro s seen id hid
  have h : Sound none s := .reached settings inputs
  have hevict := h.moves (Moves.evictSilent h now)
  have hseen : Sound none seen := h.moves (Moves.inspected h now)
  obtain ⟨e₀, he₀, hl⟩ := h.mem_reverted.1 hid
  obtain ⟨⟨e, he, hback⟩, -⟩ :=
    State.expireReservations_lapsed hevict he₀ hl
  have hothers : seen.Settled (· ∈ s.reverted now) :=
    hevict.expireReservations_settled (List.ne_nil_of_mem hid)
  have hadv := hseen.releaseOrphans_advances now id
  rw [show seen.queue.entries.get? id = some e from he,
    ← State.sweep_eq] at hadv
  generalize he' : (s.sweep now).queue.entries.get? id = x at hadv
  cases hadv with
  | @some e' _ hadv =>
    refine ⟨e₀, e, e', he₀, hl, he, hback, hothers, rfl, hadv, ?_, ?_⟩
    · intro hquiet
      rw [State.sweep_eq, hseen.releaseOrphans_quiet hquiet] at he'
      exact Option.some.inj (he'.symm.trans he)
    · rintro ⟨place, hdue⟩ hw hb
      exact hseen.releaseOrphans_settled hdue e'
        (Queue.mem_all.2 ⟨id, he'⟩) hw hb

/-- A client holds a place whose resource has gone and has that of another
exporter set aside. A sweep notices the place. -/
def rebooking : List Input :=
  let any : ResourcePattern := ⟨everything, everything, everything, none⟩
  let noon : Moment := ⟨0, ⟨2024, 1, 1, 12, 0, 0, 0⟩⟩
  stranding ++ [.register "rack" .exporter noon,
    .execute 3 (.setResources [⟨"io", "fan", .sysfsGpio 7⟩]) noon,
    .execute 2 (.createReservation [any] 0) noon,
    .sweep noon]

/-- A grace period of a second, and some time for places to miss
resources. -/
def strict (orphanSecs : Nat) : Settings :=
  { reservationGraceSecs := 1, orphanedPlaceReleaseSecs := some orphanSecs }

/-- If the place may stay as it is for a minute, whoever has lost its
allocation after a second waits. -/
theorem lapsed_served_last_rebooking :
    let s := (State.new (strict 60)).run rebooking
    let late : Moment := ⟨1000, ⟨2024, 1, 1, 12, 0, 1, 0⟩⟩
    let id := Reservation.idOf 1
    id ∈ s.reverted late
      ∧ ∃ e', (s.sweep late).queue.entries.get? id = some e'
        ∧ e'.reservation.state = .waiting := by
  intro s late id
  have hid : id ∈ s.reverted late := by decide +kernel +revert
  have hlimit : (s.inspected late).settings.orphanLimit = some 60000 := by
    rw [(Moves.inspected (.reached _ _) late).settings,
      (Sound.new _).run_settings]
    rfl
  obtain ⟨e₀, e, e', -, -, -, hback, -, he', -, hsame, -⟩ :=
    lapsed_served_last (strict 60) rebooking late id hid
  refine ⟨hid, e', he', ?_⟩
  rw [hsame ?_, hback]
  · rfl
  · rintro place ⟨limit, p, hlim, -, -, hdue⟩
    rw [hlimit] at hlim
    cases hlim
    have hshort : 60000 ≤ late.ticks := Nat.le_trans hdue (Nat.sub_le _ _)
    exact absurd hshort (by decide)

/-- If it may do so for a second only, the same sweep that takes the
allocation back also takes the place back and then sets the same resource
aside for the same reservation. -/
theorem lapsed_served_again :
    let s := (State.new (strict 1)).run rebooking
    let late : Moment := ⟨1000, ⟨2024, 1, 1, 12, 0, 1, 0⟩⟩
    let id := Reservation.idOf 1
    id ∈ s.reverted late
      ∧ ((s.sweep late).queue.entries.get? id).map (·.reservation.state)
        = some .allocated
      ∧ ((s.sweep late).queue.entries.get? id).map
          (·.reservation.allocations)
        = ((s.evictSilent late).queue.entries.get? id).map
          (·.reservation.allocations) := by
  decide +kernel

end LabLease.Coordinator
