/-
Versions identify content: a resource that is reported again has a higher
version, and two reports of a place with one version show one place.

Every move continues the trail of every resource and of every place from
what is stored before it to what is stored after it (`Move.retold`). The
log of a run is therefore one trail from nothing on, and a resource or a
place that comes back under its old name begins with version one again
only behind the report that it was gone.
-/
import LabLease.Proofs.Coordinator.Log
import LabLease.Proofs.Coordinator.Trail

namespace LabLease.Coordinator

variable {k : Kind} {l l' : Option SessionId} {s s' : State}

-- ================================================================== moves

/-- What is emitted between two states continues all trails from the one
to the other. -/
def Retold (s s' : State) : Prop :=
  ∃ cs, Emits s s' cs
    ∧ (∀ id, Trail Resource.Precedes (s.inventory.get? id)
      (toldResource id cs) (s'.inventory.get? id))
    ∧ ∀ name, Trail Place.Precedes (s.places.entries.get? name)
      (toldPlace name cs) (s'.places.entries.get? name)

namespace Retold

variable {t : State}

/-- Nothing happens to resources and places. -/
theorem quiet (hp : t.pending = s.pending)
    (hinv : t.inventory = s.inventory) (hplaces : t.places = s.places)
    (rs : List Reservation) : Retold s (t.emitAll (rs.map .reservation)) := by
  refine ⟨_, .emitAll hp _, fun id => ?_, fun name => ?_⟩
  · rw [toldResource_reservations, State.emitAll_inventory, hinv]
    exact .nil
  · rw [toldPlace_reservations, State.emitAll_places, hplaces]
    exact .nil

/-- A restocking shows places as they are. -/
theorem restocked (hf : s.places.Filed) {exporter : String}
    {owner : SessionId} {inventory : Inventory} {roster : Roster}
    {changes : List ResourceChange}
    (hr : s.inventory.Restock exporter owner inventory changes) :
    Retold s ({ s with roster, inventory }.restocked owner changes) := by
  unfold State.restocked
  refine ⟨_, .emitAll rfl _, fun id => ?_, fun name => ?_⟩
  · rw [toldResource_append, toldResource_append, toldResource_shown,
      toldResource_reservations, List.append_nil, List.append_nil,
      State.emitAll_inventory]
    exact .restock hr s.places id
  · rw [toldPlace_append, toldPlace_append, toldPlace_changes,
      toldPlace_reservations, List.append_nil, List.nil_append,
      State.emitAll_places]
    exact .repeated Place.Precedes.refl fun x hx =>
      eq_of_mem_toldPlace_shown hf hx

/-- A place changes hands: the flags of some resources are set, and the
place is shown as it is from now on. -/
theorem leased (hi : s.inventory.Filed) {ids : List ResourceId} {b : Bool}
    {name : String} {p : Place} (hname : p.name = name)
    (hnext : ∀ x ∈ s.places.entries.get? name, x.Precedes p)
    (hp : t.pending = s.pending)
    (hinv : t.inventory = s.inventory.flag ids b)
    (hplaces : t.places = ⟨s.places.entries.insert name p⟩)
    (rs : List Reservation) :
    Retold s (t.emitAll ((State.flips b s.inventory ids).map
        ResourceChange.toChange
      ++ State.shown ⟨s.places.entries.insert name p⟩
        (s.inventory.flag ids b) [name]
      ++ rs.map .reservation)) := by
  have hshown : State.shown ⟨s.places.entries.insert name p⟩
      (s.inventory.flag ids b) [name]
        = [.place (p.view (s.inventory.flag ids b))] := by
    unfold State.shown
    rw [List.filterMap_cons, Table.get?_insert, if_pos rfl]
    rfl
  refine ⟨_, .emitAll hp _, fun id => ?_, fun n => ?_⟩
  · rw [toldResource_append, toldResource_append, toldResource_shown,
      toldResource_reservations, List.append_nil, List.append_nil,
      State.emitAll_inventory, hinv]
    exact .flips hi ids b id
  · rw [toldPlace_append, toldPlace_append, toldPlace_changes,
      toldPlace_reservations, List.append_nil, List.nil_append, hshown,
      State.emitAll_places, hplaces]
    exact .put hname hnext _ n

/-- A place is stored anew and shown. -/
theorem stored {name : String} {p : Place} (hname : p.name = name)
    (hnext : ∀ x ∈ s.places.entries.get? name, x.Precedes p)
    (hp : t.pending = s.pending) (hinv : t.inventory = s.inventory)
    (hplaces : t.places = ⟨s.places.entries.insert name p⟩) :
    Retold s (t.emitAll [.place (p.view s.inventory)]) := by
  refine ⟨_, .emitAll hp _, fun id => ?_, fun n => ?_⟩
  · rw [State.emitAll_inventory, hinv]
    exact .nil
  · rw [State.emitAll_places, hplaces]
    exact .put hname hnext _ n

/-- A place is deleted, and that is told. -/
theorem deleted {name : String} (hp : t.pending = s.pending)
    (hinv : t.inventory = s.inventory)
    (hplaces : t.places = ⟨s.places.entries.erase name⟩) :
    Retold s (t.emitAll [.placeDeleted name]) := by
  refine ⟨_, .emitAll hp _, fun id => ?_, fun n => ?_⟩
  · rw [State.emitAll_inventory, hinv]
    exact .nil
  · have hof : (Change.placeDeleted name).ofPlace? n
        = if name = n then some none else none := rfl
    unfold toldPlace
    rw [State.emitAll_places, hplaces, List.filterMap_cons,
      List.filterMap_nil, hof, Table.get?_erase]
    by_cases hn : name = n
    · rw [if_pos hn, if_pos hn]
      exact .single fun _ _ _ => nofun
    · rw [if_neg hn, if_neg hn]
      exact .nil

end Retold

/-- What a move emits continues all trails. -/
theorem Move.retold (h : Sound l s) (hm : Move k l s l' s') :
    Retold s s' := by
  have hnext : ∀ {name : String} {p p' : Place},
      s.places.entries.get? name = some p → p'.version = p.version + 1 →
      ∀ x ∈ s.places.entries.get? name, x.Precedes p' := by
    intro name p p' hp hversion x hx
    rw [hp] at hx
    cases hx
    exact .of_next hversion
  cases hm with
  | aside notices incompleteSince evictions =>
    exact .quiet (t := { s with notices, incompleteSince, evictions })
      rfl rfl rfl []
  | @heard _ _ _ _ roster | @join _ _ _ _ _ _ roster =>
    exact .quiet (t := { s with roster }) rfl rfl rfl []
  | rescan now skip => exact .quiet (t := { s with queue := _ }) rfl rfl rfl _
  | restock hl hr => exact .restocked h.places hr
  | leave session =>
    exact .restocked h.places (s.inventory.removeOwner_restock "" session)
  | @vacate _ _ place _ _ date _ _ _ _ holder hp hh hrec hr =>
    obtain ⟨p, held, hget, -, -, rfl, rfl⟩ := Places.release_ok hr
    let free : Place :=
      { p with holder := none, bound := [] }.touched date
    have hleased := Retold.leased (p := free) (t := { s with
        places := ⟨s.places.entries.insert place free⟩
        inventory := s.inventory.flag p.bound false
        roster := s.roster.vacated place holder
        incompleteSince := s.incompleteSince.erase place }) h.inventory
      (h.places _ p hget) (hnext hget rfl) rfl rfl rfl []
    rw [List.map_nil, List.append_nil] at hleased
    exact hleased
  | @create _ _ name patterns tags date _ _ hc =>
    obtain ⟨hnone, rfl, rfl⟩ := Places.create_ok hc
    have hfirst : ∀ x ∈ s.places.entries.get? name,
        x.Precedes (.new name patterns tags date) := by
      intro x hx
      rw [hnone] at hx
      cases hx
    exact .stored rfl hfirst rfl rfl rfl
  | revise hp hr =>
    exact .stored (t := { s with places := _ })
      (hr.name.trans (h.places _ _ hp)) (hnext hp hr.version) rfl rfl rfl
  | delete hd =>
    obtain ⟨p, hp, -, rfl⟩ := Places.delete_ok hd
    exact .deleted rfl rfl rfl
  | @acquire _ _ place bound _ client now hl ha =>
    obtain ⟨p, hp, -, -, -, rfl⟩ := Places.acquire_ok ha
    let held : Place :=
      { p with holder := some client, bound }.touched now.date
    exact .leased (p := held) (t := { s with
        places := ⟨s.places.entries.insert place held⟩
        inventory := s.inventory.flag bound true
        roster := _, queue := _ }) h.inventory
      (h.places _ p hp) (hnext hp rfl) rfl rfl rfl _
  | reserve _ _ hc | cancel hc =>
    exact .quiet (t := { s with queue := _ }) rfl rfl rfl [_]
  | @poll _ _ _ _ _ _ queue =>
    exact .quiet (t := { s with queue }) rfl rfl rfl []
  | expire now => exact .quiet (t := { s with queue := _ }) rfl rfl rfl _
  | forget => exact .quiet (t := { s with queue := _ }) rfl rfl rfl _

-- =================================================================== runs

/-- What has been logged of resources and places are trails from nothing
to what is stored. -/
structure Traced (log : List Change) (s : State) : Prop where
  resources : ∀ id, Trail Resource.Precedes none (toldResource id log)
    (s.inventory.get? id)
  places : ∀ name, Trail Place.Precedes none (toldPlace name log)
    (s.places.entries.get? name)

theorem Traced.move (h : Sound l s) (hm : Move k l s l' s') :
    Carried Traced s s' := by
  obtain ⟨cs, hcs, hresources, hplaces⟩ := hm.retold h
  refine ⟨cs, hcs, fun log hlog => ⟨fun id => ?_, fun name => ?_⟩⟩
  · rw [toldResource_append]
    exact (hlog.resources id).append (hresources id)
  · rw [toldPlace_append]
    exact (hlog.places name).append (hplaces name)

theorem Traced.reached (settings : Settings) (inputs : List Input) :
    Traced ((State.new settings).log inputs)
      ((State.new settings).run inputs) := by
  have hnew : Traced [] (State.new settings) :=
    ⟨fun _ => .nil, fun _ => .nil⟩
  have hrun := (Sound.new settings).run_carried
    (fun h ht input _ => h.step_carried ht input
      (fun _ hp => ⟨hp.resources, hp.places⟩)
      fun h _ => Traced.move h) (.new settings) inputs hnew
  rwa [List.nil_append] at hrun

/-- Versions identify content. The log of a run is what its calls have
appended to the journal. Of two reports of a resource in it, the later has
the higher version unless the resource was reported as removed between
them. Of two reports of a place without a report of its deletion between
them, the later has at least the version of the earlier, and the same
place if the version is the same. -/
theorem versions_identify (settings : Settings) (inputs : List Input) :
    let start := State.new settings
    let log := start.log inputs
    (start.run inputs).journal = start.journal.extend log
    ∧ (∀ before r mid r' after,
        log = before ++ .resource r :: mid ++ .resource r' :: after →
        r'.id = r.id → .resourceRemoved r.id ∉ mid →
        r.version < r'.version)
    ∧ ∀ before v mid v' after,
        log = before ++ .place v :: mid ++ .place v' :: after →
        v'.place.name = v.place.name → .placeDeleted v.place.name ∉ mid →
        v.place.version ≤ v'.place.version
        ∧ (v.place.version = v'.place.version → v'.place = v.place) := by
  intro start log
  have htraced : Traced log _ := .reached settings inputs
  refine ⟨(Sound.new settings).run_log inputs, ?_, ?_⟩
  · intro before r mid r' after heq hid hmid
    have htrail := htraced.resources r.id
    have hfirst : (Change.resource r).ofResource? r.id = some (some r) :=
      if_pos rfl
    have hsecond : (Change.resource r').ofResource? r.id
        = some (some r') := if_pos hid
    rw [heq, toldResource_append, toldResource_append] at htrail
    unfold toldResource at htrail
    rw [List.filterMap_cons_some hfirst,
      List.filterMap_cons_some hsecond] at htrail
    refine htrail.between Resource.Precedes.trans fun hnone => ?_
    obtain ⟨c, hc, hof⟩ := List.mem_filterMap.1 hnone
    exact hmid (eq_of_ofResource?_none hof ▸ hc)
  · intro before v mid v' after heq hname hmid
    have htrail := htraced.places v.place.name
    have hfirst : (Change.place v).ofPlace? v.place.name
        = some (some v.place) := if_pos rfl
    have hsecond : (Change.place v').ofPlace? v.place.name
        = some (some v'.place) := if_pos hname
    rw [heq, toldPlace_append, toldPlace_append] at htrail
    unfold toldPlace at htrail
    rw [List.filterMap_cons_some hfirst,
      List.filterMap_cons_some hsecond] at htrail
    refine htrail.between Place.Precedes.trans fun hnone => ?_
    obtain ⟨c, hc, hof⟩ := List.mem_filterMap.1 hnone
    exact hmid (eq_of_ofPlace?_none hof ▸ hc)

/-- An exporter publishes a resource, a client creates a place that asks
for any, and the exporter publishes the resource with another line. -/
def republishing : List Input :=
  let any : ResourcePattern := ⟨everything, everything, everything, none⟩
  [.register "bench" .exporter late,
    .execute 1 (.setResources [⟨"rack", "led", .sysfsGpio 7⟩]) late,
    .register "alice" .client late,
    .execute 2 (.createPlace "board" [any] .empty) late,
    .execute 1 (.setResources [⟨"rack", "led", .sysfsGpio 8⟩]) late]

/-- The resource or the place that a change reports, and its version. -/
def reportedVersion : Change → Option (Sum ResourceId String × Nat)
  | .resource r => some (.inl r.id, r.version)
  | .place v => some (.inr v.place.name, v.place.version)
  | _ => none

/-- The resource is reported twice under the two versions, and the place
is shown again with the version that it had. -/
theorem versions_identify_republishing :
    ∃ r v r' v', (State.new {}).log republishing
        = [.resource r, .place v, .resource r', .place v']
      ∧ r'.id = r.id ∧ r.version < r'.version
      ∧ v'.place.name = v.place.name
      ∧ v.place.version = v'.place.version ∧ v'.place = v.place := by
  have hlog : ((State.new {}).log republishing).map reportedVersion
      = [some (.inl ⟨"bench", "rack", "SysfsGPIO", "led"⟩, 1),
        some (.inr "board", 1),
        some (.inl ⟨"bench", "rack", "SysfsGPIO", "led"⟩, 2),
        some (.inr "board", 1)] := by
    decide +kernel
  have hresource : ∀ {c : Change} {id : ResourceId} {n : Nat},
      reportedVersion c = some (.inl id, n) →
      ∃ r, c = .resource r ∧ r.id = id := by
    intro c id n hc
    cases c with
    | resource r =>
      obtain ⟨hid, -⟩ := Prod.mk.inj (Option.some.inj hc)
      exact ⟨r, rfl, Sum.inl.inj hid⟩
    | _ => cases hc
  have hplace : ∀ {c : Change} {name : String} {n : Nat},
      reportedVersion c = some (.inr name, n) →
      ∃ v, c = .place v ∧ v.place.name = name ∧ v.place.version = n := by
    intro c name n hc
    cases c with
    | place v =>
      obtain ⟨hname, hversion⟩ := Prod.mk.inj (Option.some.inj hc)
      exact ⟨v, rfl, Sum.inr.inj hname, hversion⟩
    | _ => cases hc
  obtain ⟨c, _, heq, hc, hrest⟩ := List.map_eq_cons_iff.1 hlog
  obtain ⟨d, _, rfl, hd, hrest⟩ := List.map_eq_cons_iff.1 hrest
  obtain ⟨c', _, rfl, hc', hrest⟩ := List.map_eq_cons_iff.1 hrest
  obtain ⟨d', _, rfl, hd', hrest⟩ := List.map_eq_cons_iff.1 hrest
  rw [List.map_eq_nil_iff.1 hrest] at heq
  obtain ⟨r, rfl, hid⟩ := hresource hc
  obtain ⟨v, rfl, hname, hversion⟩ := hplace hd
  obtain ⟨r', rfl, hid'⟩ := hresource hc'
  obtain ⟨v', rfl, hname', hversion'⟩ := hplace hd'
  have hsame := hid'.trans hid.symm
  have hnames := hname'.trans hname.symm
  have hversions := hversion.trans hversion'.symm
  obtain ⟨-, hresources, hplaces⟩ := versions_identify {} republishing
  refine ⟨r, v, r', v', heq, hsame, ?_, hnames, hversions, ?_⟩
  · exact hresources [] r [.place v] r' [.place v'] heq hsame (by simp)
  · exact (hplaces [.resource r] v [.resource r'] v' [] heq hnames
      (by simp)).2 hversions

end LabLease.Coordinator
