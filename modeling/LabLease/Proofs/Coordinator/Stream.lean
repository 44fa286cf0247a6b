/-
The event stream is complete: a replica that mirrors the state before a
move and takes over what the move emits mirrors the state after it.

# Why one relation is enough

A view of a place is a function of the place and the inventory, so a
replica mirrors a state (`Mirrors`) when three look-ups agree. A move
changes the registries and emits a list of changes; `Follows` says that
the list carries every replica over, whatever it has seen before. Moves
in a row follow on each other, and with them runs.

# What is emitted late

Within a cascade resources are reported first, then the places whose
views depend on them, then reservations. So each kind is taken over as a
whole, and the views are shown beside the inventory as it is at the end.
-/
import LabLease.Proofs.Client.Replica
import LabLease.Proofs.Coordinator.Run

namespace LabLease.Coordinator

-- ========================================================= kinds of change

section Kinds

variable (r : Replica)

theorem applyChange_resource (c : ResourceChange) :
    ∃ t, r.applyChange c.toChange = { r with resources := t }
      ∧ ∀ id, t.get? id
          = if c.id = id then c.resource? else r.resources.get? id := by
  cases c with
  | upserted x => exact ⟨_, rfl, fun id => Table.get?_insert _ _ _ _⟩
  | removed k => exact ⟨_, rfl, fun id => Table.get?_erase _ _ _⟩

/-- Resources that are reported as an inventory has them: after that the
replica has them as the inventory does. -/
theorem applyAll_changes {inv : Inventory} {changes : List ResourceChange}
    (hc : ∀ c ∈ changes, c.Current inv)
    (h : ∀ id, id ∉ changes.map (·.id) →
      r.resources.get? id = inv.get? id) :
    ∃ t, r.applyAll (changes.map ResourceChange.toChange)
        = { r with resources := t }
      ∧ ∀ id, t.get? id = inv.get? id := by
  induction changes generalizing r with
  | nil => exact ⟨r.resources, rfl, fun id => h id List.not_mem_nil⟩
  | cons c changes ih =>
    obtain ⟨t, ht, hget⟩ := applyChange_resource r c
    have hrest := fun d hd => hc d (List.mem_cons_of_mem c hd)
    obtain ⟨u, hu, hall⟩ := ih { r with resources := t } hrest
      fun id hnot => by
        rw [hget]
        split
        · next hid => exact hid ▸ (hc c List.mem_cons_self).symm
        · next hid =>
          refine h id ?_
          rw [List.map_cons, List.mem_cons, not_or]
          exact ⟨Ne.symm hid, hnot⟩
    refine ⟨u, ?_, hall⟩
    show (r.applyChange c.toChange).applyAll _ = _
    rw [ht, hu]

/-- Flags that are set are reported. -/
theorem applyAll_flips (b : Bool) {inv : Inventory} (hf : inv.Filed)
    (ids : List ResourceId)
    (h : ∀ id, r.resources.get? id = inv.get? id) :
    ∃ t, r.applyAll ((State.flips b inv ids).map ResourceChange.toChange)
        = { r with resources := t }
      ∧ ∀ id, t.get? id = (inv.flag ids b).get? id := by
  induction ids generalizing r inv with
  | nil =>
    refine ⟨r.resources, rfl, fun id => ?_⟩
    rw [Inventory.flag_nil, h]
  | cons id ids ih =>
    have hsplit : inv.flag (id :: ids) b = (inv.flag [id] b).flag ids b :=
      inv.flag_append [id] ids b
    unfold State.flips
    rw [hsplit, List.map_append, Replica.applyAll_append]
    cases hs : (inv.setAcquired id b).2 with
    | none =>
      rw [Inventory.flag_of_setAcquired_snd_eq_none hs]
      exact ih r hf h
    | some c =>
      obtain ⟨x, hx, -, rfl⟩ := Inventory.setAcquired_snd_eq_some hs
      have hid := hf.id_eq hx
      refine ih { r with
        resources := r.resources.insert (x.flagged b).id (x.flagged b) }
        (hf.flag [id] b) fun k => ?_
      rw [Table.get?_insert, Resource.flagged_id]
      split
      · next hk =>
        subst hk
        rw [Inventory.get?_flag, hid, hx, Option.map_some,
          if_pos (List.mem_singleton_self id)]
      · next hk =>
        have hnot : k ∉ [id] := by
          rw [List.mem_singleton, ← hid]
          exact Ne.symm hk
        rw [h, Inventory.get?_flag_of_notMem hnot]

/-- Places that are shown: the replica has their views if it had those
of the others. -/
theorem applyAll_shown {ps : Places} (hf : ps.Filed) (inv : Inventory)
    {names : List String}
    (h : ∀ n, n ∉ names ∨ ps.entries.get? n = none →
      r.places.get? n = (ps.entries.get? n).map (·.view inv)) :
    ∃ t, r.applyAll (State.shown ps inv names) = { r with places := t }
      ∧ ∀ n, t.get? n = (ps.entries.get? n).map (·.view inv) := by
  induction names generalizing r with
  | nil => exact ⟨r.places, rfl, fun n => h n (Or.inl List.not_mem_nil)⟩
  | cons name names ih =>
    unfold State.shown
    rw [List.filterMap_cons]
    cases hp : ps.entries.get? name with
    | none =>
      refine ih r fun n hn => ?_
      by_cases hname : n = name
      · exact h n (Or.inr (hname ▸ hp))
      · refine h n (hn.imp_left fun hnot => ?_)
        rw [List.mem_cons, not_or]
        exact ⟨hname, hnot⟩
    | some p =>
      have hpname := hf name p hp
      refine ih { r with
        places := r.places.insert p.name (p.view inv) } fun n hn => ?_
      rw [Table.get?_insert]
      by_cases hname : name = n
      · subst hname
        rw [if_pos hpname, hp]
        rfl
      · rw [hpname, if_neg hname]
        refine h n (hn.imp_left fun hnot => ?_)
        rw [List.mem_cons, not_or]
        exact ⟨Ne.symm hname, hnot⟩

end Kinds

-- ============================================================== mirroring

/-- A replica has every resource, the view of every place and every
pending reservation of a state, and no others. -/
structure Mirrors (r : Replica) (s : State) : Prop where
  resources : ∀ id, r.resources.get? id = s.inventory.get? id
  places : ∀ n, r.places.get? n
    = (s.places.entries.get? n).map (·.view s.inventory)
  reservations : ∀ id,
    Queue.pendingOnly (r.reservations.get? id) = s.queue.pending? id

namespace Mirrors

variable {r : Replica} {s : State}

theorem resources_eq (h : Mirrors r s) :
    r.resources = s.inventory.entries.mapValues fun _ e => e.resource := by
  refine Table.ext_get? fun id => (h.resources id).trans ?_
  rw [Table.get?_mapValues]
  rfl

theorem places_eq (h : Mirrors r s) :
    r.places
      = s.places.entries.mapValues fun _ p => p.view s.inventory := by
  refine Table.ext_get? fun n => (h.places n).trans ?_
  rw [Table.get?_mapValues]

end Mirrors

/-- What was emitted between two states carries every replica over. -/
def Follows (s s' : State) : Prop :=
  ∃ cs, s'.journal = s.journal.extend cs
    ∧ s'.pending = s.pending ++ numbered s.journal.last cs
    ∧ ∀ r, Mirrors r s → Mirrors (r.applyAll cs) s'

namespace Follows

variable {l l' : Option SessionId} {s s' s'' t : State}

/-- Nothing is emitted and there is nothing to tell. -/
theorem quiet (hj : t.journal = s.journal) (hp : t.pending = s.pending)
    (hm : ∀ r, Mirrors r s → Mirrors r t) : Follows s t := by
  refine ⟨[], hj, ?_, hm⟩
  rw [hp]
  exact (List.append_nil _).symm

theorem refl (s : State) : Follows s s := quiet rfl rfl fun _ hm => hm

theorem trans (h : Follows s s') (h' : Follows s' s'') :
    Follows s s'' := by
  obtain ⟨cs, hj, hp, hm⟩ := h
  obtain ⟨ds, hj', hp', hm'⟩ := h'
  refine ⟨cs ++ ds, ?_, ?_, fun r hr => ?_⟩
  · rw [hj', hj, Journal.extend_append]
  · rw [hp', hp, hj, Journal.extend_last, numbered_append,
      List.append_assoc]
  · rw [Replica.applyAll_append]
    exact hm' _ (hm r hr)

/-- The registries change, and then all that is to be told is emitted. -/
theorem emitAll {cs : List Change} (hj : t.journal = s.journal)
    (hp : t.pending = s.pending)
    (hm : ∀ r, Mirrors r s → Mirrors (r.applyAll cs) t) :
    Follows s (t.emitAll cs) := by
  refine ⟨cs, ?_, ?_, fun r hr => ?_⟩
  · rw [State.emitAll_journal, hj]
  · rw [State.emitAll_pending, hp, hj]
  · rw [State.emitAll_eq]
    exact ⟨(hm r hr).resources, (hm r hr).places, (hm r hr).reservations⟩

-- ============================================================== resources

/-- A restocking is told: the changes as they are settled, the places
that one of them affects and the allocations that lost a resource. -/
theorem restocked (h : Sound l s) {exporter : String} {owner : SessionId}
    {inventory : Inventory} {changes : List ResourceChange}
    (roster : Roster)
    (hr : s.inventory.Restock exporter owner inventory changes) :
    Follows s ({ s with roster, inventory }.restocked owner changes) := by
  unfold State.restocked
  dsimp only
  refine emitAll rfl rfl fun r hm => ?_
  have hresources : ∀ id,
      id ∉ (changes.map (State.settled s.places)).map (·.id) →
      r.resources.get? id = (inventory.flag ((changes.map
        ResourceChange.id).filter s.places.isBound) true).get? id := by
    intro id hid
    rw [State.map_settled_id] at hid
    rw [hm.resources, Inventory.get?_flag_of_notMem
      fun hin => hid (List.mem_filter.1 hin).1, hr.get?_same hid]
  have hplaces : ∀ n, n ∉ s.places.affectedBy
      (changes.map ResourceChange.id) ∨ s.places.entries.get? n = none →
      r.places.get? n = (s.places.entries.get? n).map (·.view
        (inventory.flag ((changes.map ResourceChange.id).filter
          s.places.isBound) true)) := by
    intro n hn
    rw [hm.places]
    cases hp : s.places.entries.get? n with
    | none => rfl
    | some p =>
      have hnot := hn.resolve_right (by rw [hp]; exact Option.some_ne_none p)
      have hview := Places.view_eq_of_not_affected h.places h.inventory hr
        hp hnot
      rw [Option.map_some, Option.map_some,
        p.view_flag (hr.filed h.inventory), hview]
  obtain ⟨t, ht, hget⟩ :=
    applyAll_changes r (State.settled_current hr.current) hresources
  obtain ⟨u, hu, hview⟩ := applyAll_shown { r with resources := t }
    h.places _ hplaces
  obtain ⟨v, hv, hpending⟩ := Replica.applyAll_reservations
    { r with resources := t, places := u }
    (s.queue.invalidate (State.lost changes)).1
  rw [Replica.applyAll_append, Replica.applyAll_append, ht, hu, hv]
  refine ⟨hget, hview, fun id => ?_⟩
  rw [hpending, hm.reservations]
  exact (Queue.pending?_invalidate h.queue _ id).symm

-- =============================================================== places

/-- A place is put in or replaced, and shown. -/
theorem put {name : String} {p : Place} (hname : p.name = name) :
    Follows s
      ({ s with
        places := ⟨s.places.entries.insert name p⟩ }.emitAll
          [.place (p.view s.inventory)]) := by
  refine emitAll rfl rfl fun r hm => ⟨hm.resources, ?_, hm.reservations⟩
  intro n
  show (r.places.insert p.name (p.view s.inventory)).get? n
    = ((s.places.entries.insert name p).get? n).map _
  rw [Table.get?_insert, Table.get?_insert, hname, hm.places]
  split <;> rfl

theorem delete {name : String} {places : Places}
    (hd : s.places.delete name = .ok places) :
    Follows s ({ s with places }.emitAll [.placeDeleted name]) := by
  obtain ⟨p, -, -, rfl⟩ := Places.delete_ok hd
  refine emitAll rfl rfl fun r hm => ⟨hm.resources, ?_, hm.reservations⟩
  intro n
  show (r.places.erase name).get? n
    = ((s.places.entries.erase name).get? n).map _
  rw [Table.get?_erase, Table.get?_erase, hm.places]
  split <;> rfl

/-- A place changes hands: the flags of what it binds or has bound are
told, and then the place. Flags change no other view. -/
theorem relet (h : Sound l s) {r : Replica} (hm : Mirrors r s) (b : Bool)
    (ids : List ResourceId) {name : String} {p : Place}
    (hname : p.name = name) :
    ∃ t u, r.applyAll
        ((State.flips b s.inventory ids).map ResourceChange.toChange
          ++ State.shown ⟨s.places.entries.insert name p⟩
            (s.inventory.flag ids b) [name])
        = { r with resources := t, places := u }
      ∧ (∀ id, t.get? id = (s.inventory.flag ids b).get? id)
      ∧ ∀ n, u.get? n = ((s.places.entries.insert name p).get? n).map
          (·.view (s.inventory.flag ids b)) := by
  have hothers : ∀ n, n ∉ [name]
      ∨ (s.places.entries.insert name p).get? n = none →
      r.places.get? n = ((s.places.entries.insert name p).get? n).map
        (·.view (s.inventory.flag ids b)) := by
    intro n hn
    rw [Table.get?_insert] at hn ⊢
    by_cases hnn : name = n
    · rw [if_pos hnn] at hn
      rcases hn with hn | hn
      · exact absurd (List.mem_singleton.2 hnn.symm) hn
      · cases hn
    · rw [if_neg hnn, hm.places]
      cases s.places.entries.get? n with
      | none => rfl
      | some q =>
        rw [Option.map_some, Option.map_some, q.view_flag h.inventory]
  obtain ⟨t, ht, hget⟩ :=
    applyAll_flips r b h.inventory ids hm.resources
  obtain ⟨u, hu, hview⟩ := applyAll_shown { r with resources := t }
    (h.places.insert hname) _ hothers
  refine ⟨t, u, ?_, hget, hview⟩
  rw [Replica.applyAll_append, ht, hu]

theorem vacate (h : Sound l s) {place : String} {session : SessionId}
    {force : Bool} {date : Timestamp} {freed : List ResourceId}
    {places : Places} (holder : Option Holder)
    (hr : s.places.release place session force date
      = .ok (freed, places)) :
    Follows s ({ s with places }.vacated place holder freed) := by
  obtain ⟨p, held, hp, -, -, rfl, rfl⟩ := Places.release_ok hr
  unfold State.vacated
  refine emitAll rfl rfl fun r hm => ?_
  obtain ⟨t, u, happly, hget, hview⟩ := relet h hm false p.bound
    (p := Place.touched { p with holder := none, bound := [] } date)
    (h.places place p hp)
  rw [happly]
  exact ⟨hget, hview, hm.reservations⟩

theorem acquire (h : Sound l s) {place : String} {client : Holder}
    {bound : List ResourceId} {places : Places} {now : Moment}
    (ha : s.places.acquire place client s.inventory
      (Action.isAvailable s client.session) now.date
        = .ok (bound, places)) :
    Follows s
      ({ s with places }.occupied place client.session bound now) := by
  obtain ⟨p, hp, -, -, -, rfl⟩ := Places.acquire_ok ha
  unfold State.occupied
  refine emitAll rfl rfl fun r hm => ?_
  obtain ⟨t, u, happly, hget, hview⟩ := relet h hm true bound
    (p := Place.touched { p with holder := some client, bound } now.date)
    (h.places place p hp)
  obtain ⟨v, hv, hpending⟩ := Replica.applyAll_reservations
    { r with resources := t, places := u }
    (s.queue.convert client.session bound now).1
  rw [Replica.applyAll_append, happly, hv]
  refine ⟨hget, hview, fun id => ?_⟩
  rw [hpending, hm.reservations]
  exact (Queue.pending?_convert h.queue _ bound now id).symm

-- ========================================================= reservations

/-- The queue changes and the reservations that changed are told. -/
theorem with_queue {queue : Queue} {rs : List Reservation}
    (hq : ∀ id, queue.pending? id
      = Queue.told id (s.queue.pending? id) rs) :
    Follows s
      ({ s with queue }.emitAll (rs.map .reservation)) := by
  refine emitAll rfl rfl fun r hm => ?_
  obtain ⟨t, ht, hpending⟩ := Replica.applyAll_reservations r rs
  rw [ht]
  refine ⟨hm.resources, hm.places, fun id => ?_⟩
  rw [hpending, hm.reservations]
  exact (hq id).symm

theorem rescan (s : State) (now : Moment) (skip : List String) :
    Follows s (s.rescan now skip) := by
  rw [State.rescan_eq]
  exact with_queue fun id => Queue.pending?_rescan ..

-- ================================================================ moves

/-- A move tells all that it does. -/
theorem move (h : Sound l s) {k : Kind} (hm : Move k l s l' s') :
    Follows s s' := by
  cases hm with
  | aside notices incompleteSince evictions =>
    exact quiet rfl rfl fun r hr =>
      ⟨hr.resources, hr.places, hr.reservations⟩
  | heard hr =>
    exact quiet rfl rfl fun r hr =>
      ⟨hr.resources, hr.places, hr.reservations⟩
  | join hr =>
    exact quiet rfl rfl fun r hr =>
      ⟨hr.resources, hr.places, hr.reservations⟩
  | rescan now skip => exact rescan s now skip
  | restock hl hr => exact restocked h s.roster hr
  | leave session =>
    exact restocked h _ (s.inventory.removeOwner_restock "" session)
  | vacate holder _ _ _ hr => exact vacate h holder hr
  | create hc =>
    obtain ⟨-, rfl, rfl⟩ := Places.create_ok hc
    exact put rfl
  | revise hp hr =>
    exact put (hr.name.trans (h.places _ _ hp))
  | delete hd => exact delete hd
  | acquire _ _ hl ha => exact acquire h ha
  | reserve _ hl hc =>
    exact with_queue fun id => Queue.pending?_create hc id
  | cancel hc =>
    exact with_queue fun id => Queue.pending?_cancel h.queue hc id
  | poll hp =>
    refine quiet rfl rfl fun r hr =>
      ⟨hr.resources, hr.places, fun id => ?_⟩
    rw [hr.reservations]
    exact (Queue.pending?_poll hp id).symm
  | expire now =>
    exact with_queue fun id =>
      Queue.pending?_expire h.queue h.allotted.sound now id
  | forget hnone =>
    exact with_queue fun id =>
      Queue.pending?_removeSession h.queue _ id

/-- And so does any number of them. -/
theorem moves {kinds : Kind → Prop} (h : Sound l s)
    (hm : Moves kinds l s l' s') : Follows s s' := by
  induction hm with
  | refl => exact refl _
  | tail hrun _ step ih => exact (ih h).trans (move (h.moves hrun) step)

end Follows

-- ================================================================ runs

/-- The events that a call appends. -/
def State.appended (s : State) (input : Input) : List Event :=
  (s.step input).pending.drop s.pending.length

/-- The events that some calls in turn append. -/
def State.appendedAll : State → List Input → List Event
  | _, [] => []
  | s, input :: inputs =>
    s.appended input ++ (s.step input).appendedAll inputs

namespace Sound

variable {s : State}

/-- What a call appends to the journal carries every replica over. Taking
the events out appends nothing and leaves nothing to tell. -/
theorem step_told (h : Sound none s) (input : Input) :
    ∃ cs, (s.step input).journal = s.journal.extend cs
      ∧ s.appended input = numbered s.journal.last cs
      ∧ ∀ r, Mirrors r s → Mirrors (r.applyAll cs) (s.step input) := by
  unfold State.appended
  rcases h.step_moves input with hm | hdrained
  · obtain ⟨cs, hj, hp, hr⟩ := Follows.moves h hm
    exact ⟨cs, hj, by rw [hp, List.drop_left], hr⟩
  · rw [hdrained]
    exact ⟨[], rfl, List.drop_nil, fun r hr =>
      ⟨hr.resources, hr.places, hr.reservations⟩⟩

theorem run_told (h : Sound none s) (inputs : List Input) :
    ∃ cs, (s.run inputs).journal = s.journal.extend cs
      ∧ s.appendedAll inputs = numbered s.journal.last cs
      ∧ ∀ r, Mirrors r s → Mirrors (r.applyAll cs) (s.run inputs) := by
  induction inputs generalizing s with
  | nil => exact ⟨[], rfl, rfl, fun r hr => hr⟩
  | cons input inputs ih =>
    obtain ⟨cs, hj, hp, hm⟩ := h.step_told input
    obtain ⟨ds, hj', hp', hm'⟩ := ih (h.step input)
    refine ⟨cs ++ ds, ?_, ?_, fun r hr => ?_⟩
    · show ((s.step input).run inputs).journal = _
      rw [hj', hj, Journal.extend_append]
    · unfold State.appendedAll
      rw [hp, hp', hj, Journal.extend_last, numbered_append]
    · rw [Replica.applyAll_append]
      exact hm' _ (hm r hr)

-- ============================================================= snapshots

theorem snapshot_resources (h : Sound none s) :
    (Replica.ofSnapshot s.snapshot).resources
      = s.inventory.entries.mapValues fun _ e => e.resource := by
  have hlist : s.inventory.all.map (fun x => (x.id, x))
      = s.inventory.entries.values.map
          fun e => (e.resource.id, e.resource) :=
    List.map_map
  show Table.ofList (s.inventory.all.map fun x => (x.id, x)) = _
  rw [hlist]
  exact Table.ofList_values Published.resource Resource.id h.inventory
    (.refl _)

theorem snapshot_places (h : Sound none s) :
    (Replica.ofSnapshot s.snapshot).places
      = s.places.entries.mapValues fun _ p => p.view s.inventory := by
  have hlist : (s.places.views s.inventory).map
        (fun v => (v.place.name, v))
      = s.places.all.map
          fun p => ((p.view s.inventory).place.name, p.view s.inventory) :=
    List.map_map
  show Table.ofList ((s.places.views s.inventory).map _) = _
  rw [hlist]
  exact Table.ofList_values (fun p : Place => p.view s.inventory)
    (fun v => v.place.name) h.places (.refl _)

theorem snapshot_reservations (h : Sound none s) :
    (Replica.ofSnapshot s.snapshot).reservations
      = s.queue.entries.mapValues fun _ e => e.reservation := by
  have hlist : s.queue.list.map (fun x => (x.id, x))
      = (s.queue.all.mergeSort QueueEntry.listsBefore).map
          fun e => (e.reservation.id, e.reservation) :=
    List.map_map
  show Table.ofList (s.queue.list.map fun x => (x.id, x)) = _
  rw [hlist]
  exact Table.ofList_values QueueEntry.reservation Reservation.id h.queue
    (List.mergeSort_perm _ _)

/-- The replica of a snapshot mirrors the state. -/
theorem mirrors_snapshot (h : Sound none s) :
    Mirrors (Replica.ofSnapshot s.snapshot) s := by
  refine ⟨fun id => ?_, fun n => ?_, fun id => ?_⟩
  · rw [h.snapshot_resources, Table.get?_mapValues]
    rfl
  · rw [h.snapshot_places, Table.get?_mapValues]
  · rw [h.snapshot_reservations, Table.get?_mapValues]
    rfl

end Sound

/-- The event stream is complete. A replica of a snapshot that is given
the events of what happens next, and of nothing else, applies all of them
and then has the resources, the views of the places and the pending
reservations of the state that was reached, as a snapshot of that state
would give them, and the number of its last event. -/
theorem stream_complete (settings : Settings)
    (before inputs : List Input) :
    let s := (State.new settings).run before
    let s' := s.run inputs
    let events := s.appendedAll inputs
    let outcome := (Replica.ofSnapshot s.snapshot).applyEvents events
    let fresh := Replica.ofSnapshot s'.snapshot
    s'.journal
        = events.foldl (fun j e => (j.append e.change).2) s.journal
      ∧ events.map (·.seq)
        = List.range' (s.eventNumber + 1) (s'.eventNumber - s.eventNumber)
      ∧ outcome.1 = .ok events.length
      ∧ outcome.2.lastEvent = some s'.eventNumber
      ∧ outcome.2.resources
        = s'.inventory.entries.mapValues (fun _ e => e.resource)
      ∧ outcome.2.places
        = s'.places.entries.mapValues (fun _ p => p.view s'.inventory)
      ∧ (∀ id, Queue.pendingOnly (outcome.2.reservations.get? id)
          = s'.queue.pending? id)
      ∧ outcome.2.resources = fresh.resources
      ∧ outcome.2.places = fresh.places
      ∧ ∀ id, Queue.pendingOnly (outcome.2.reservations.get? id)
          = Queue.pendingOnly (fresh.reservations.get? id) := by
  intro s s' events outcome fresh
  have h : Sound none s := .reached settings before
  obtain ⟨cs, hj, hp, hm⟩ := h.run_told inputs
  have hm' := hm _ h.mirrors_snapshot
  have h' : Sound none s' := h.run inputs
  have houtcome : outcome = (.ok cs.length,
      { (Replica.ofSnapshot s.snapshot).applyAll cs with
        lastEvent := some (s.eventNumber + cs.length) }) :=
    (congrArg _ hp).trans (Replica.applyEvents_numbered _ cs rfl)
  have hlast : s'.eventNumber = s.eventNumber + cs.length :=
    (congrArg Journal.last hj).trans (Journal.extend_last _ cs)
  have hevents : events = numbered s.eventNumber cs := hp
  have hresources : outcome.2.resources
      = s'.inventory.entries.mapValues fun _ e => e.resource := by
    rw [houtcome]
    exact hm'.resources_eq
  have hplaces : outcome.2.places
      = s'.places.entries.mapValues fun _ p => p.view s'.inventory := by
    rw [houtcome]
    exact hm'.places_eq
  have hpending : ∀ id,
      Queue.pendingOnly (outcome.2.reservations.get? id)
        = s'.queue.pending? id := by
    intro id
    rw [houtcome]
    exact hm'.reservations id
  refine ⟨?_, ?_, ?_, ?_, hresources, hplaces, hpending, ?_, ?_, ?_⟩
  · have hfold : events.foldl (fun j e => (j.append e.change).2) s.journal
        = s.journal.extend (events.map (·.change)) := by
      unfold Journal.extend
      rw [List.foldl_map]
    rw [hfold, hevents, map_change_numbered]
    exact hj
  · rw [hevents, map_seq_numbered, hlast, Nat.add_sub_cancel_left]
  · rw [houtcome, hevents, length_numbered]
  · rw [houtcome, hlast]
  · rw [hresources, ← h'.snapshot_resources]
  · rw [hplaces, ← h'.snapshot_places]
  · intro id
    rw [hpending]
    exact (h'.mirrors_snapshot.reservations id).symm

end LabLease.Coordinator
