/-
What the moves report of reservations, and that a report begins or ends
an allocation only for a reason.

A move reports a reservation at most once, so the reports of one
reservation in a row are its history. Only a rescan sets resources aside,
with one deadline for all, and `Breaks` lists what takes an allocation
back, by the kind of the move.
-/
import LabLease.Proofs.Coordinator.Presence
import LabLease.Proofs.Registry.Spell

namespace LabLease

/-- The reservation that a change reports. -/
def Change.reservation? : Change → Option Reservation
  | .reservation r => some r
  | _ => none

/-- The reservations that some changes report, in turn. -/
def reported (cs : List Change) : List Reservation :=
  cs.filterMap Change.reservation?

theorem reported_append (cs ds : List Change) :
    reported (cs ++ ds) = reported cs ++ reported ds :=
  List.filterMap_append

@[simp] theorem reported_reservations (rs : List Reservation) :
    reported (rs.map .reservation) = rs := by
  unfold reported
  rw [List.filterMap_map]
  exact List.filterMap_some

@[simp] theorem reported_changes (changes : List ResourceChange) :
    reported (changes.map ResourceChange.toChange) = [] := by
  refine List.filterMap_eq_nil_iff.2 fun c hc => ?_
  obtain ⟨c, -, rfl⟩ := List.mem_map.1 hc
  cases c <;> rfl

@[simp] theorem reported_shown (ps : Places) (inv : Inventory)
    (names : List String) :
    reported (Coordinator.State.shown ps inv names) = [] := by
  refine List.filterMap_eq_nil_iff.2 fun c hc => ?_
  obtain ⟨name, -, hname⟩ := List.mem_filterMap.1 hc
  obtain ⟨p, -, rfl⟩ := Option.map_eq_some_iff.1 hname
  rfl

namespace Coordinator

variable {k : Kind} {l l' : Option SessionId} {s s' s'' t : State}

-- ================================================================ emission

/-- The changes that were emitted from one state to another. -/
def State.emitted (s s' : State) : List Change :=
  (s'.pending.drop s.pending.length).map (·.change)

@[simp] theorem State.emitted_self (s : State) : s.emitted s = [] := by
  unfold emitted
  rw [List.drop_length]
  rfl

/-- To take out the events emits nothing. -/
@[simp] theorem State.emitted_drained (s : State) :
    s.emitted { s with pending := [] } = [] := by
  unfold emitted
  rw [List.drop_nil]
  rfl

/-- Between two states some changes were emitted, and nothing was sent
out. -/
def Emits (s s' : State) (cs : List Change) : Prop :=
  ∃ es, s'.pending = s.pending ++ es ∧ es.map (·.change) = cs

namespace Emits

variable {cs ds : List Change}

theorem emitted_eq (h : Emits s s' cs) : s.emitted s' = cs := by
  obtain ⟨es, hp, rfl⟩ := h
  unfold State.emitted
  rw [hp, List.drop_left]

theorem nil (h : t.pending = s.pending) : Emits s t [] :=
  ⟨[], by rw [h, List.append_nil], rfl⟩

theorem trans (h : Emits s s' cs) (h' : Emits s' s'' ds) :
    Emits s s'' (cs ++ ds) := by
  obtain ⟨es, hp, rfl⟩ := h
  obtain ⟨fs, hp', rfl⟩ := h'
  exact ⟨es ++ fs, by rw [hp', hp, List.append_assoc], List.map_append⟩

theorem emitAll (h : t.pending = s.pending) (cs : List Change) :
    Emits s (t.emitAll cs) cs := by
  refine ⟨numbered t.journal.last cs, ?_, map_change_numbered _ _⟩
  rw [State.emitAll_pending, h]

end Emits

-- ================================================================ the clock

/-- No id to come is in use, and allocations last as long as is set. -/
structure Timed (s : State) : Prop where
  fresh : s.queue.Fresh
  grace : s.queue.gracePeriod = s.settings.reservationGrace

namespace Timed

theorem new (settings : Settings) : Timed (.new settings) :=
  ⟨.new _ _, rfl⟩

theorem of_queue (h : Timed s) (hsettings : t.settings = s.settings)
    (hd : t.queue.Descends s.queue) (hq : t.queue.Steady s.queue) :
    Timed t :=
  ⟨h.fresh.of_descends hd hq.created,
    hq.gracePeriod.trans (h.grace.trans (by rw [hsettings]))⟩

/-- Only a creation uses up an id, and nothing changes the time. -/
theorem move (hs : Sound l s) (h : Timed s) (hm : Move k l s l' s') :
    Timed s' := by
  have hsettings := hm.settings
  have hof : ∀ t : State, s'.queue = t.queue →
      t.queue.Descends s.queue → t.queue.Steady s.queue → Timed s' := by
    intro t hq hd hst
    exact h.of_queue hsettings (hq ▸ hd) (hq ▸ hst)
  have hsame : s'.queue = s.queue → Timed s' :=
    fun hq => hof s hq (.refl _) (.refl _)
  cases hm with
  | aside | heard | join => exact hsame rfl
  | rescan now skip =>
    refine h.of_queue hsettings ?_ ?_
    · rw [State.rescan_queue]
      exact Queue.rescan_descends hs.queue hs.inventory _ skip now
    · rw [State.rescan_queue]
      exact .foldl_put _ _
  | restock | leave =>
    refine h.of_queue hsettings ?_ ?_
    · unfold State.restocked
      rw [State.emitAll_queue]
      exact Queue.invalidate_descends _ _
    · unfold State.restocked
      rw [State.emitAll_queue]
      exact ⟨rfl, rfl⟩
  | vacate => exact hsame (State.emitAll_queue _ _)
  | create | revise | delete => exact hsame (State.emitAll_queue _ _)
  | acquire client now =>
    refine h.of_queue hsettings ?_ ?_
    · unfold State.occupied
      rw [State.emitAll_queue]
      exact Queue.convert_descends _ _ _ _
    · unfold State.occupied
      rw [State.emitAll_queue]
      exact ⟨rfl, rfl⟩
  | reserve _ _ hc =>
    have hfresh := h.fresh.create hc
    obtain ⟨-, -, rfl⟩ := Queue.create_ok hc
    refine ⟨?_, ?_⟩
    · rw [State.emitAll_queue]
      exact hfresh
    · rw [State.emitAll_queue, hsettings]
      exact h.grace
  | cancel hc =>
    exact hof { s with queue := _ } (State.emitAll_queue _ _)
      (Queue.cancel_descends hc) (.cancel hc)
  | poll hp =>
    exact hof { s with queue := _ } rfl (Queue.poll_descends hp) (.poll hp)
  | expire now =>
    exact hof { s with queue := _ } (State.emitAll_queue _ _)
      (Queue.expire_descends hs.queue now) (.expire _ now)
  | forget =>
    exact hof { s with queue := _ } (State.emitAll_queue _ _)
      (Queue.removeSession_descends _ _) ⟨rfl, rfl⟩

end Timed

-- ======================================================== ends of a spell

/-- The deadline of the allocations that a move makes. -/
def Kind.deadline? (grace : Nat) : Kind → Option Nat
  | .rescan now => some (now.ticks + grace)
  | _ => none

/-- Why a move ends an allocation with a deadline: `cs` is what the move
emits, and the reservation is `r` before and `r'` after it. -/
inductive Breaks (roster : Roster) (cs : List Change) (r : Reservation)
    (d : Nat) : Kind → Reservation → Prop
  | cancelled :
    Breaks roster cs r d (.cancel r.id r.owner.session)
      (r.transition .cancelled)
  /-- The owner has acquired a place with some of the resources. -/
  | acquired {client : Holder} {v : PlaceView} {id : ResourceId}
      (hclient : client.session = r.owner.session)
      (hv : .place v ∈ cs) (hheld : v.place.holder = some client)
      (hid : id ∈ r.allocations) (hbound : id ∈ v.place.bound) :
    Breaks roster cs r d (.acquire v.place.name client)
      (r.transition .acquired)
  /-- Some of the resources are gone, by the doing of their exporter. -/
  | removed {k : Kind} {owner : SessionId} {id : ResourceId}
      (hk : k = .restock owner ∨ k = .leave owner)
      (hid : id ∈ r.allocations) (hgone : .resourceRemoved id ∈ cs)
      (hl : roster.Live owner id.exporter .exporter) :
    Breaks roster cs r d k (r.transition .waiting)
  | forgotten :
    Breaks roster cs r d (.forget r.owner.session) (r.transition .cancelled)
  | lapsed {now : Moment} (hd : d ≤ now.ticks) :
    Breaks roster cs r d (.expire now) (r.transition .waiting)

/-- A restocking takes allocations back that lost a resource. -/
theorem Sound.restocked_turns (h : Sound l s) {deadline? : Option Nat}
    {exporter : String} {owner : SessionId} {inventory : Inventory}
    {changes : List ResourceChange} (roster : Roster)
    (hr : s.inventory.Restock exporter owner inventory changes)
    (hk : k = .restock owner ∨ k = .leave owner) :
    ∃ cs, Emits s ({ s with roster, inventory }.restocked owner changes) cs
      ∧ Queue.Turns deadline? (fun r d r' => Breaks s.roster cs r d k r') s.queue
          (reported cs)
          ({ s with roster, inventory }.restocked owner changes).queue := by
  refine ⟨_, Emits.emitAll rfl _, ?_⟩
  unfold State.restocked
  rw [State.emitAll_queue, reported_append, reported_append,
    reported_changes, reported_shown, reported_reservations,
    List.nil_append, List.nil_append]
  refine (Queue.invalidate_turns h.queue (State.lost changes)).mono ?_
  rintro r d r' ⟨⟨id, hid, hlost⟩, rfl⟩
  have hremoved := State.mem_lost.1 hlost
  obtain ⟨-, e, he, hown⟩ := hr.removed id hremoved
  refine .removed hk hid ?_ (hown ▸ h.attended.owned id e he)
  refine List.mem_append_left _ (List.mem_append_left _ ?_)
  refine List.mem_map.2 ⟨.removed id, ?_, rfl⟩
  exact List.mem_map.2 ⟨.removed id, hremoved, rfl⟩

/-- An acquisition finishes allocations of the session's own out of which
it binds something, and shows the place before that. -/
theorem occupied_turns (hq : s.queue.Filed) {deadline? : Option Nat}
    {place : String} {p : Place} (client : Holder)
    (bound : List ResourceId) (now : Moment)
    (hp : s.places.entries.get? place = some p)
    (hname : p.name = place) (hh : p.holder = some client)
    (hb : p.bound = bound) :
    ∃ cs, Emits s (s.occupied place client.session bound now) cs
      ∧ Queue.Turns deadline?
          (fun r d r' => Breaks s.roster cs r d (.acquire place client) r')
          s.queue (reported cs)
          (s.occupied place client.session bound now).queue := by
  refine ⟨_, Emits.emitAll rfl _, ?_⟩
  unfold State.occupied
  rw [State.emitAll_queue, reported_append, reported_append,
    reported_changes, reported_shown, reported_reservations,
    List.nil_append, List.nil_append]
  refine (Queue.convert_turns hq client.session bound now).mono ?_
  rintro r d r' ⟨hown, ⟨id, hid, hbound⟩, rfl⟩
  have hshown : .place (p.view (s.inventory.flag bound true))
      ∈ State.shown s.places (s.inventory.flag bound true) [place] := by
    refine List.mem_filterMap.2 ⟨place, List.mem_singleton_self place, ?_⟩
    rw [hp]
    rfl
  subst hname hb
  exact .acquired (v := p.view (s.inventory.flag p.bound true)) hown.symm
    (List.mem_append_left _ (List.mem_append_right _ hshown)) hh hid hbound

/-- A move reports each reservation at most once: because it sets
resources aside for it, because it takes them back, or while there are
none. -/
theorem Move.turns (h : Sound l s) (ht : Timed s)
    (hm : Move k l s l' s') :
    ∃ cs, Emits s s' cs
      ∧ Queue.Turns (k.deadline? s.settings.reservationGrace)
          (fun r d r' => Breaks s.roster cs r d k r') s.queue (reported cs)
          s'.queue := by
  -- a move that leaves the queue alone reports no reservations
  have hquiet : ∀ (t : State) (cs : List Change),
      t.pending = s.pending → t.queue = s.queue → reported cs = [] →
      ∃ ds, Emits s (t.emitAll cs) ds
        ∧ Queue.Turns (k.deadline? s.settings.reservationGrace)
            (fun r d r' => Breaks s.roster ds r d k r') s.queue (reported ds)
            (t.emitAll cs).queue := by
    intro t cs hp hq hnone
    refine ⟨cs, .emitAll hp cs, ?_⟩
    rw [State.emitAll_queue, hq, hnone]
    exact .refl _
  cases hm with
  | aside | heard | join => exact ⟨[], .nil rfl, .refl _⟩
  | rescan now skip =>
    rw [State.rescan_eq]
    refine ⟨_, .emitAll rfl _, ?_⟩
    rw [State.emitAll_queue, reported_reservations, ← ht.grace]
    exact Queue.rescan_turns h.queue h.allotted.sound h.inventory _ skip now
  | restock hl hr => exact h.restocked_turns s.roster hr (Or.inl rfl)
  | leave session =>
    exact h.restocked_turns _ (s.inventory.removeOwner_restock "" session)
      (Or.inr rfl)
  | vacate =>
    refine hquiet { s with
      inventory := _, places := _, roster := _, incompleteSince := _ } _
      rfl rfl ?_
    rw [reported_append, reported_changes, reported_shown]
    rfl
  | create =>
    exact hquiet { s with places := _ } [.place _] rfl rfl rfl
  | revise =>
    exact hquiet { s with places := _ } [.place _] rfl rfl rfl
  | delete =>
    exact hquiet { s with places := _ } [.placeDeleted _] rfl rfl rfl
  | @acquire _ _ place bound places client now hl ha =>
    obtain ⟨p, hp, -, -, -, rfl⟩ := Places.acquire_ok ha
    let q : Place := { p with holder := some client, bound }.touched
      now.date
    exact occupied_turns
      (s := { s with places := ⟨s.places.entries.insert place q⟩ }) (p := q)
      h.queue client bound now ((Table.get?_insert ..).trans (if_pos rfl))
      (h.places place p hp) rfl rfl
  | reserve _ _ hc =>
    refine ⟨_, .emitAll rfl _, ?_⟩
    rw [State.emitAll_queue]
    exact Queue.create_turns ht.fresh hc
  | cancel hc =>
    refine ⟨_, .emitAll rfl _, ?_⟩
    rw [State.emitAll_queue]
    refine (Queue.cancel_turns h.queue hc).mono ?_
    rintro r d r' ⟨rfl, rfl, rfl⟩
    exact .cancelled
  | poll hp => exact ⟨[], .nil rfl, Queue.poll_turns hp⟩
  | expire now =>
    refine ⟨_, .emitAll rfl _, ?_⟩
    rw [State.emitAll_queue, reported_reservations]
    refine (Queue.expire_turns h.queue h.allotted.sound now).mono ?_
    rintro r d r' ⟨hd, rfl⟩
    exact .lapsed hd
  | forget =>
    refine ⟨_, .emitAll rfl _, ?_⟩
    rw [State.emitAll_queue, reported_reservations]
    refine (Queue.removeSession_turns h.queue h.allotted.sound _).mono ?_
    rintro r d r' ⟨rfl, rfl⟩
    exact .forgotten

end Coordinator

end LabLease
