/-
Everything has a live owner, and wherever the coordinator has written
down who that is it has written the same.

# Five books

Ownership is recorded in the roster by number, in its index of names, in
the lists of each record, beside each published resource and in each held
place and stored reservation. `Sound` has the roster and its index right
and somebody live behind everything; the lists follow here, move by move
(`Listed.move`). `Accounted` puts all of it together without a word on
how it is kept.

# Why nothing is ever in conflict

A publication is refused when another session owns something under the
exporter's name. That session would be live, an exporter and of the same
name, and names are used once.
-/
import LabLease.Proofs.Coordinator.Presence
import LabLease.Proofs.Registry.Belongings
import LabLease.Proofs.Registry.Publication

namespace LabLease.Coordinator

variable {k : Kind} {kinds : Kind → Prop} {l l' : Option SessionId}
  {s s' : State}

-- ============================================================ the lists

/-- The records of a state list what their sessions have. -/
abbrev State.Listed (s : State) : Prop :=
  LabLease.Listed s.roster s.inventory s.places

namespace State.Listed

/-- Events do not matter. -/
theorem emitAll (h : s.Listed) (cs : List Change) :
    (s.emitAll cs).Listed := by
  unfold State.Listed
  rw [emitAll_roster, emitAll_inventory, emitAll_places]
  exact h

/-- Nor do reservations. -/
theorem queued (h : s.Listed) (queue : Queue) (cs : List Change) :
    ({ s with queue }.emitAll cs).Listed :=
  emitAll (s := { s with queue }) h cs

/-- A move keeps the lists right. -/
theorem move (hs : Sound l s) (h : s.Listed) (hm : Move k l s l' s') :
    s'.Listed := by
  cases hm with
  | aside => exact h
  | heard hr => exact h.heard hr
  | join hr =>
    refine h.register (fun id i hown => ?_) hr
    obtain ⟨e, he, rfl⟩ := Inventory.ownerOf?_eq_some.1 hown
    obtain ⟨o, ho, -⟩ := hs.attended.owned id e he
    exact hs.attended.roster.given _ o ho
  | rescan now skip =>
    rw [rescan_eq]
    exact h.queued _ _
  | @restock _ _ _ owner inventory changes _ hr =>
    exact emitAll (s := { s with
      inventory := _, queue := _
      roster := s.roster.noteAll owner changes })
      ((LabLease.Listed.restock h hr).flag _ true) _
  | leave session =>
    have hr := s.inventory.removeOwner_restock "" session
    exact emitAll (s := { s with
      inventory := _, queue := _
      roster := (s.roster.remove session).noteAll session _ })
      ((LabLease.Listed.restock (h.remove session) hr).flag _ true) _
  | @vacate _ _ place _ _ _ _ _ _ _ holder hp hh hrec hr =>
    obtain ⟨q, _, hq, -, -, rfl, rfl⟩ := Places.release_ok hr
    exact emitAll (s := { s with
      inventory := _, places := _, incompleteSince := _
      roster := s.roster.vacated place holder })
      ((LabLease.Listed.vacate h hp hh hrec rfl).flag _ false) _
  | create hc =>
    obtain ⟨hnew, rfl, rfl⟩ := Places.create_ok hc
    exact emitAll (s := { s with places := _ })
      (LabLease.Listed.keepPlace h (by rw [hnew]; rfl)) _
  | revise hp hr =>
    exact emitAll (s := { s with places := _ })
      (LabLease.Listed.keepPlace h (by rw [hp]; exact hr.holder)) _
  | delete hd =>
    obtain ⟨p, hp, hfree, rfl⟩ := Places.delete_ok hd
    exact emitAll (s := { s with places := _ })
      (LabLease.Listed.erasePlace h hp hfree) _
  | acquire client now hl ha =>
    obtain ⟨o, ho, -⟩ := hl
    obtain ⟨p, hp, hfree, -, -, rfl⟩ := Places.acquire_ok ha
    exact emitAll (s := { s with
      inventory := _, places := _, queue := _, roster := _ })
      ((LabLease.Listed.occupy h hs.attended.roster ho hp hfree rfl).flag
        _ true) _
  | poll => exact h
  | reserve | cancel | expire | forget => exact h.queued _ _

theorem moves (hs : Sound l s) (h : s.Listed)
    (hm : Moves kinds l s l' s') : s'.Listed := by
  induction hm with
  | refl => exact h
  | tail hrun _ step ih => exact (ih hs h).move (hs.moves hrun) step

theorem step (hs : Sound none s) (h : s.Listed) (input : Input) :
    (s.step input).Listed := by
  rcases hs.step_moves input with hm | hdrained
  · exact h.moves hs hm
  · rw [hdrained]
    exact h

theorem run (hs : Sound none s) (h : s.Listed) (inputs : List Input) :
    (s.run inputs).Listed := by
  induction inputs generalizing s with
  | nil => exact h
  | cons input inputs ih => exact ih (hs.step input) (h.step hs input)

theorem reached (settings : Settings) (inputs : List Input) :
    ((State.new settings).run inputs).Listed :=
  run (.new settings) (.empty settings.sessionTimeout) inputs

end State.Listed

-- ========================================================= no conflicts

namespace Sound

/-- Under the name of a live exporter all resources are its own. -/
theorem owns (h : Sound l s) {session : SessionId} {exporter : String}
    (hl : s.roster.Live session exporter .exporter) :
    s.inventory.Owns exporter session := by
  obtain ⟨o, ho, rfl, -⟩ := hl
  intro id e he hid
  obtain ⟨o', ho', hname, -⟩ := h.attended.owned id e he
  exact h.attended.roster.named ho' ho (hname.trans hid)

/-- And a live exporter owns nothing under another name. -/
theorem exporter_eq (h : Sound l s) {session : SessionId}
    {exporter : String} (hl : s.roster.Live session exporter .exporter)
    {id : ResourceId} {e : Published}
    (he : s.inventory.entries.get? id = some e)
    (hown : e.owner = session) : id.exporter = exporter := by
  obtain ⟨o, ho, rfl, -⟩ := hl
  obtain ⟨o', ho', hname, -⟩ := h.attended.owned id e he
  rw [hown, ho] at ho'
  cases ho'
  exact hname.symm

/-- A publication is refused for other reasons than a conflict. -/
theorem setResources_refused (h : Sound l s) {session : SessionId}
    {specs : List ResourceSpec} {now : Moment} {e : Refusal}
    (he : ((Action.setResources session specs now).apply s).1
      = .error e) : e.kind ≠ .conflict := by
  cases ho : s.roster.get session with
  | error stale =>
    unfold Action.setResources at he
    rw [Action.apply_bind, Action.require_apply, ho] at he
    unfold Roster.get at ho
    split at ho
    · cases ho
    · cases ho
      cases he
      exact nofun
  | ok o =>
    have hget := Roster.get_eq_ok.1 ho
    by_cases hrole : o.role = .exporter
    · have howns := h.owns ⟨o, hget, rfl, hrole⟩
      rw [Action.setResources_apply hget hrole, howns.publish_eq] at he
      cases hann : Inventory.announced o.name specs with
      | error e' =>
        rw [hann] at he
        cases he
        have hkind :=
          (Inventory.announced_refuses o.name specs).kind_mem e hann
        rw [List.mem_singleton.1 hkind]
        exact nofun
      | ok incoming => rw [hann] at he; cases he
    · unfold Action.setResources at he
      rw [Action.apply_bind, Action.require_apply, ho] at he
      dsimp only at he
      rw [if_neg hrole] at he
      cases he
      exact nofun

/-- And so it is when the session asks for it. -/
theorem execute_setResources_refused (h : Sound l s)
    {session : SessionId} {specs : List ResourceSpec} {now : Moment}
    {e : Refusal}
    (he : ((Action.execute session (.setResources specs) now).apply s).1
      = .error e) : e.kind ≠ .conflict := by
  cases hr : s.roster.heartbeat session now with
  | error stale =>
    unfold Action.execute at he
    rw [Action.apply_bind, Action.heartbeat_apply, hr] at he
    cases he
    have hkind := (s.roster.heartbeat_refuses now session).kind_mem e hr
    rw [List.mem_singleton.1 hkind]
    exact nofun
  | ok roster =>
    rw [Action.execute_setResources_apply hr] at he
    cases hout : ((Action.setResources session specs now).apply
        { s with roster }).1 with
    | error e' =>
      rw [hout] at he
      cases he
      exact (h.heard hr).setResources_refused hout
    | ok n => rw [hout] at he; cases he

end Sound

-- ======================================================== all books agree

/-- Everything has a live owner, and all books agree on who it is. -/
structure Accounted (s : State) : Prop where
  ids : (s.roster.all.map (·.id)).Nodup
  names : (s.roster.all.map (·.name)).Nodup
  /-- The index leads from each name in use to its session. -/
  index : ∀ name id, s.roster.names.get? name = some id ↔
    ∃ o ∈ s.roster.all, o.name = name ∧ o.id = id
  /-- A number leads to the session of this number. -/
  numbers : ∀ id o, s.roster.sessions.get? id = some o ↔
    o ∈ s.roster.all ∧ o.id = id
  owners : ∀ id owner, s.inventory.ownerOf? id = some owner →
    s.roster.Live owner id.exporter .exporter
  holders : ∀ p ∈ s.places.all, ∀ h, p.holder = some h →
    s.roster.Live h.session h.name .client
  tenants : ∀ e ∈ s.queue.all, s.roster.Live e.reservation.owner.session
    e.reservation.owner.name .client
  resources : ∀ o ∈ s.roster.all, ∀ id,
    o.resources.contains id = true ↔ s.inventory.ownerOf? id = some o.id
  places : ∀ o ∈ s.roster.all, ∀ name,
    o.places.contains name = true ↔ name ∈ s.places.heldBy o.id
  /-- So nothing that is published is in conflict. -/
  unopposed : ∀ session specs now e,
    ((Action.setResources session specs now).apply s).1 = .error e
        ∨ ((Action.execute session (.setResources specs) now).apply s).1
          = .error e →
      e.kind ≠ .conflict

theorem Sound.accounted (h : Sound none s) (hlisted : s.Listed) :
    Accounted s := by
  have hroster := h.attended.roster
  have hmem : ∀ {o : Session}, o ∈ s.roster.all →
      s.roster.sessions.get? o.id = some o := by
    intro o ho
    obtain ⟨i, hi⟩ := Table.mem_values.1 ho
    rw [hroster.filed i o hi]
    exact hi
  have htenant : ∀ {x : Holder}, Tenant none s.roster x →
      s.roster.Live x.session x.name .client :=
    fun ht => ht.resolve_left nofun
  refine ⟨?_, ?_, ?_, ?_, ?_, ?_, ?_, ?_, ?_, ?_⟩
  · refine List.pairwise_map.2 (Table.pairwise_values ?_)
    intro i j o o' hne ho ho' heq
    rw [hroster.filed i o ho, hroster.filed j o' ho'] at heq
    exact hne heq
  · refine List.pairwise_map.2 (Table.pairwise_values ?_)
    intro i j o o' hne ho ho' heq
    exact hne (hroster.named ho ho' heq)
  · intro name id
    rw [hroster.indexed]
    constructor
    · rintro ⟨o, ho, hname⟩
      exact ⟨o, Table.mem_values.2 ⟨id, ho⟩, hname, hroster.filed id o ho⟩
    · rintro ⟨o, ho, hname, rfl⟩
      exact ⟨o, hmem ho, hname⟩
  · intro id o
    constructor
    · intro ho
      exact ⟨Table.mem_values.2 ⟨id, ho⟩, hroster.filed id o ho⟩
    · rintro ⟨ho, rfl⟩
      exact hmem ho
  · intro id owner hown
    obtain ⟨e, he, rfl⟩ := Inventory.ownerOf?_eq_some.1 hown
    exact h.attended.owned id e he
  · intro p hp x hx
    obtain ⟨n, hn⟩ := Places.mem_all.1 hp
    exact htenant (h.attended.holders n p x hn hx)
  · intro e he
    obtain ⟨i, hi⟩ := Queue.mem_all.1 he
    exact htenant (h.attended.tenants i e hi)
  · intro o ho
    exact (hlisted.lists o.id o (hmem ho)).resources
  · intro o ho name
    rw [(hlisted.lists o.id o (hmem ho)).places, Places.mem_heldBy]
    constructor
    · rintro ⟨p, hp, hheld⟩
      exact ⟨name, p, hp, hheld, h.places name p hp⟩
    · rintro ⟨n, p, hp, hheld, hname⟩
      rw [← hname, h.places n p hp]
      exact ⟨p, hp, hheld⟩
  · intro session specs now e he
    rcases he with he | he
    · exact h.setResources_refused he
    · exact h.execute_setResources_refused he

/-- In every state that the coordinator reaches everything has a live
owner: no two sessions share a number or a name, the index leads to all
of them and to nobody else, a live exporter of the right name is behind
every resource and a live client of the recorded name behind every held
place and every reservation, the lists of each record are what its
session has, and nothing that anybody publishes is in conflict. -/
theorem everything_accounted_for (settings : Settings)
    (inputs : List Input) : Accounted ((State.new settings).run inputs) :=
  (Sound.reached settings inputs).accounted
    (.reached settings inputs)

end LabLease.Coordinator
