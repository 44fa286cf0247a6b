/-
The invariant of the coordinator's state, and that every move keeps it.

# What it is made of

The leasing invariant ties flags to places, the allocation invariant ties
the queue to flags, and the attendance invariant ties all of them to the
roster. None of the three can be kept without the tables being filed
under the right keys, so this is part of it.
-/
import LabLease.Proofs.Coordinator.Move
import LabLease.Proofs.Registry.Allotment
import LabLease.Proofs.Registry.Attendance
import LabLease.Proofs.Registry.Lease

namespace LabLease.Coordinator

/-- The invariant, with a session on its way out or none. -/
structure Sound (leaving : Option SessionId) (s : State) : Prop where
  inventory : s.inventory.Filed
  places : s.places.Filed
  queue : s.queue.Filed
  leased : Leased s.inventory s.places
  allotted : Allotted s.inventory s.queue
  attended : Attended leaving s.roster s.inventory s.places s.queue

namespace Sound

variable {l l' : Option SessionId} {s s' : State}

/-- Nothing is stored, so nothing is filed wrongly or held. -/
theorem new (settings : Settings) : Sound none (.new settings) := by
  refine ⟨?_, ?_, ?_, .empty, .empty _ _, .empty _ _ _⟩
  · intro id e he
    cases he
  · intro n p hp
    cases hp
  · intro i e he
    cases he

/-- Emitting leaves the registries alone. -/
theorem emitAll (h : Sound l s) (cs : List Change) :
    Sound l (s.emitAll cs) := by
  rw [State.emitAll_eq]
  exact ⟨h.inventory, h.places, h.queue, h.leased, h.allotted, h.attended⟩

/-- Another roster that attends to everything may take the place of the
one there is. -/
theorem with_roster (h : Sound l s) {roster : Roster}
    (ha : Attended l roster s.inventory s.places s.queue) :
    Sound l { s with roster } :=
  ⟨h.inventory, h.places, h.queue, h.leased, h.allotted, ha⟩

/-- So may a queue that descends from the one there is. -/
theorem with_queue (h : Sound l s) {queue : Queue}
    (hd : queue.Descends s.queue) (ha : Allotted s.inventory queue) :
    Sound l { s with queue } :=
  ⟨h.inventory, h.places, h.queue.descends hd, h.leased, ha,
    h.attended.of_descends hd⟩

-- ============================================================= sessions

/-- A sign of life changes neither who is there nor what it has. -/
theorem heard (h : Sound l s) {session : SessionId} {now : Moment}
    {roster : Roster}
    (hr : s.roster.heartbeat session now = .ok roster) :
    Sound l { s with roster } :=
  h.with_roster (h.attended.of_roster (h.attended.roster.heartbeat hr)
    fun _ _ _ => .heartbeat hr)

/-- A session that joins has nothing yet. -/
theorem join (h : Sound l s) {name : String} {role : Role}
    {now : Moment} {session : SessionId} {roster : Roster}
    (hr : s.roster.register name role now = .ok (session, roster)) :
    Sound l { s with roster } :=
  h.with_roster (h.attended.of_roster (h.attended.roster.register hr)
    fun _ _ _ => .register h.attended.roster hr)

-- ============================================================ resources

/-- A rescan gives out what is free and not set aside. -/
theorem rescan (h : Sound l s) (now : Moment) (skip : List String) :
    Sound l (s.rescan now skip) := by
  rw [State.rescan_eq]
  refine (h.with_queue ?_ ?_).emitAll _
  · exact Queue.rescan_descends h.queue h.inventory _ skip now
  · refine h.allotted.rescan h.inventory h.queue (fun r hr => ?_) skip now
    unfold State.isFree at hr
    rw [Bool.and_eq_true, Bool.and_eq_true, Bool.not_eq_true'] at hr
    exact hr.1.1

/-- Restocking keeps everything but who attends to what, and with that
something may have happened before. -/
theorem restocked (h : Sound l s) {exporter : String} {owner : SessionId}
    {inventory : Inventory} {roster : Roster}
    {changes : List ResourceChange}
    (hr : s.inventory.Restock exporter owner inventory changes)
    (ha : Attended l' roster inventory s.places s.queue) :
    Sound l' ({ s with roster, inventory }.restocked owner changes) := by
  have hd := s.queue.invalidate_descends (State.lost changes)
  unfold State.restocked
  refine Sound.emitAll ?_ _
  refine ⟨?_, h.places, ?_, ?_, ?_, ?_⟩
  · exact (hr.filed h.inventory).flag _ true
  · exact h.queue.descends hd
  · exact h.leased.restock hr
  · refine h.allotted.restock hr (fun id => State.mem_lost.2) ?_
    intro id hid r hget
    exact (h.leased.flagged id r hget).2 (List.mem_filter.1 hid).2
  · exact ((ha.noteAll owner changes).flag _ true).of_descends hd

/-- What a live exporter publishes belongs to it. -/
theorem restock (h : Sound l s) {exporter : String} {owner : SessionId}
    {inventory : Inventory} {changes : List ResourceChange}
    (hl : s.roster.Live owner exporter .exporter)
    (hr : s.inventory.Restock exporter owner inventory changes) :
    Sound l ({ s with inventory }.restocked owner changes) :=
  h.restocked hr (h.attended.restock hl hr)

/-- The session has gone and its places and reservations are still there,
until it is forgotten. -/
theorem leave (h : Sound none s) (session : SessionId) :
    Sound (some session) ({ s with
      roster := s.roster.remove session
      inventory := (s.inventory.removeOwner session).1 }.restocked
        session (s.inventory.removeOwner session).2) :=
  h.restocked (s.inventory.removeOwner_restock "" session)
    (h.attended.leave session)

-- =============================================================== places

/-- Of the place that is given back the flags are lowered, and of no
other. -/
theorem vacate (h : Sound l s) {place : String} {session : SessionId}
    {force : Bool} {date : Timestamp} {freed : List ResourceId}
    {places : Places} (holder : Option Holder)
    (hr : s.places.release place session force date
      = .ok (freed, places)) :
    Sound l ({ s with places }.vacated place holder freed) := by
  obtain ⟨p, held, hp, -, -, rfl, rfl⟩ := Places.release_ok hr
  unfold State.vacated
  refine Sound.emitAll ?_ _
  refine ⟨?_, ?_, h.queue, ?_, ?_, ?_⟩
  · exact h.inventory.flag _ false
  · exact h.places.insert (h.places place p hp)
  · exact h.leased.free hp rfl rfl
  · exact h.allotted.lower _
  · refine ((h.attended.vacated place holder).putPlace ?_).flag _ false
    intro o ho
    cases ho

/-- A new place is free and has nothing bound. -/
theorem create (h : Sound l s) {name : String}
    {patterns : List ResourcePattern} {tags : Table String String}
    {date : Timestamp} {p : Place} {places : Places}
    (hc : s.places.create name patterns tags date = .ok (p, places)) :
    Sound l { s with places } := by
  obtain ⟨hnew, rfl, rfl⟩ := Places.create_ok hc
  refine ⟨h.inventory, h.places.insert rfl, h.queue, ?_, h.allotted, ?_⟩
  · exact h.leased.create hnew rfl rfl
  · refine h.attended.putPlace ?_
    intro o ho
    cases ho

/-- A change of patterns, tags or the comment is none of the lease. -/
theorem revise (h : Sound l s) {name : String} {p p' : Place}
    (hp : s.places.entries.get? name = some p) (hr : p'.Revises p) :
    Sound l { s with places := ⟨s.places.entries.insert name p'⟩ } := by
  refine ⟨h.inventory, ?_, h.queue, ?_, h.allotted, ?_⟩
  · exact h.places.insert (hr.name.trans (h.places name p hp))
  · exact h.leased.revise hp hr
  · refine h.attended.putPlace fun o ho => ?_
    exact h.attended.holders name p o hp (hr.holder.symm.trans ho)

/-- A place that is deleted is free. -/
theorem delete (h : Sound l s) {name : String} {places : Places}
    (hd : s.places.delete name = .ok places) :
    Sound l { s with places } := by
  obtain ⟨p, hp, hfree, rfl⟩ := Places.delete_ok hd
  exact ⟨h.inventory, h.places.erase name, h.queue,
    h.leased.erase hp hfree, h.allotted, h.attended.erasePlace name⟩

/-- What an acquisition binds is available to the session that
acquires. -/
theorem bound_available (h : Sound l s) {place : String} {client : Holder}
    {bound : List ResourceId} {places : Places} {date : Timestamp}
    (ha : s.places.acquire place client s.inventory
      (Action.isAvailable s client.session) date = .ok (bound, places)) :
    ∀ id ∈ bound, ∃ r, s.inventory.get? id = some r
      ∧ r.acquired = false
      ∧ s.queue.isAllocatedToOther id client.session = false := by
  intro id hid
  obtain ⟨p, -, -, -, hbind, -⟩ := Places.acquire_ok ha
  obtain ⟨r, hr, hav⟩ :=
    (Inventory.bind_firstFit h.inventory hbind).2 id hid
  unfold Action.isAvailable at hav
  rw [Bool.and_eq_true, Bool.and_eq_true, Bool.not_eq_true',
    Bool.not_eq_true', h.inventory.id_eq hr] at hav
  exact ⟨r, hr, hav.1.1, hav.2⟩

/-- What is bound was available, so no other place has it and no other
session's allocation. -/
theorem acquire (h : Sound l s) {place : String} {client : Holder}
    {bound : List ResourceId} {places : Places} {now : Moment}
    (hl : s.roster.Live client.session client.name .client)
    (ha : s.places.acquire place client s.inventory
      (Action.isAvailable s client.session) now.date
        = .ok (bound, places)) :
    Sound l ({ s with places }.occupied place client.session bound now) := by
  have hav := h.bound_available ha
  have hd := s.queue.convert_descends client.session bound now
  obtain ⟨p, hp, hfree, -, hbind, rfl⟩ := Places.acquire_ok ha
  unfold State.occupied
  refine Sound.emitAll ?_ _
  refine ⟨?_, ?_, ?_, ?_, ?_, ?_⟩
  · exact h.inventory.flag _ true
  · exact h.places.insert (h.places place p hp)
  · exact h.queue.descends hd
  · refine h.leased.occupy (q := Place.touched
        { p with holder := some client, bound } now.date) hp hfree
      (Option.some_ne_none client) rfl
      (Inventory.bind_firstFit h.inventory hbind).1 fun id hid => ?_
    obtain ⟨r, hr, hdown, -⟩ := hav id hid
    exact ⟨r, hr, hdown⟩
  · refine h.allotted.convert fun id hid => ?_
    obtain ⟨r, -, -, hother⟩ := hav id hid
    exact hother
  · have hkeep : Roster.KeepsIdentity fun o =>
        { o with places := o.places.insert place () } :=
      fun _ => ⟨rfl, rfl, rfl⟩
    refine ((Attended.putPlace (h.attended.edit hkeep client.session)
      ?_).flag _ true).of_descends hd
    intro o ho
    cases ho
    exact Or.inr ((Roster.live_edit_iff hkeep _).2 hl)

-- ========================================================= reservations

/-- A new reservation belongs to a live client. -/
theorem reserve (h : Sound l s) {owner : Holder}
    {filters : List ResourcePattern} {priority : Int} {now : Moment}
    {r : Reservation} {queue : Queue}
    (hl : s.roster.Live owner.session owner.name .client)
    (hc : s.queue.create owner filters priority now = .ok (r, queue)) :
    Sound l { s with queue } := by
  refine ⟨h.inventory, h.places, ?_, h.leased, h.allotted.create hc,
    h.attended.reserve hl hc⟩
  obtain ⟨-, rfl, rfl⟩ := Queue.create_ok hc
  intro i e he
  rw [Table.get?_insert] at he
  split at he
  · next hi =>
    cases he
    exact hi
  · exact h.queue i e he

/-- Once it holds no place, the reservations are all that is left of a
session. -/
theorem forget {session : SessionId} (h : Sound (some session) s)
    (hnone : s.places.heldBy session = []) :
    Sound none
      { s with queue := (s.queue.removeSession session).2 } :=
  ⟨h.inventory, h.places,
    h.queue.descends (s.queue.removeSession_descends session), h.leased,
    h.allotted.removeSession session, h.attended.forget hnone⟩

-- ================================================================ moves

/-- A move keeps the invariant. -/
theorem move (h : Sound l s) {k : Kind} (hm : Move k l s l' s') :
    Sound l' s' := by
  cases hm with
  | aside notices incompleteSince evictions =>
    exact ⟨h.inventory, h.places, h.queue, h.leased, h.allotted,
      h.attended⟩
  | heard hr => exact h.heard hr
  | join hr => exact h.join hr
  | rescan now skip => exact h.rescan now skip
  | restock hl hr => exact h.restock hl hr
  | leave session => exact h.leave session
  | vacate holder _ _ _ hr => exact h.vacate holder hr
  | create hc => exact (h.create hc).emitAll _
  | revise hp hr => exact (h.revise hp hr).emitAll _
  | delete hd => exact (h.delete hd).emitAll _
  | acquire _ _ hl ha => exact h.acquire hl ha
  | reserve _ hl hc => exact (h.reserve hl hc).emitAll _
  | cancel hc =>
    exact (h.with_queue (Queue.cancel_descends hc)
      (h.allotted.cancel hc)).emitAll _
  | poll hp =>
    exact h.with_queue (Queue.poll_descends hp) (h.allotted.poll hp)
  | expire now =>
    exact (h.with_queue (Queue.expire_descends h.queue now)
      (h.allotted.expire h.queue now)).emitAll _
  | forget hnone => exact (h.forget hnone).emitAll _

/-- And so does any number of them. -/
theorem moves {kinds : Kind → Prop} (h : Sound l s)
    (hm : Moves kinds l s l' s') : Sound l' s' := by
  induction hm with
  | refl => exact h
  | tail _ _ step ih => exact (ih h).move step

end Sound

end LabLease.Coordinator
