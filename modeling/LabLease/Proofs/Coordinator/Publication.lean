/-
What a publication does to the coordinator, identity by identity.

The inventory compares what is announced with what the session has
published before (`Owns.get?_publish`), and reports the differences. The
coordinator then sets the flags of those that a held place has bound, and
passes the reports on as events. Flags that were right before need no
setting (`Leased`), so all that this adds is that something new that is
bound is acquired (`Sound.get?_published`).

That another session's resources are in the way cannot happen: under the
name of a live exporter everything is its own (`Sound.owns`).
-/
import LabLease.Proofs.Coordinator.Ownership
import LabLease.Proofs.Coordinator.Reports
import LabLease.Proofs.Coordinator.Teardown
import LabLease.Proofs.Registry.Publication
import LabLease.Proofs.Resource.Parameters

namespace LabLease

@[simp] theorem Resource.flagged_params (r : Resource) (b : Bool) :
    (r.flagged b).params = r.params := by
  unfold flagged
  split <;> rfl

/-- The inventory once what has changed and is bound has its flag. -/
def Inventory.settled (inv : Inventory) (ps : Places)
    (changes : List ResourceChange) : Inventory :=
  inv.flag ((changes.map ResourceChange.id).filter ps.isBound) true

-- ===================================================== changes as reported

/-- The change of a resource that is reported, if it is one. -/
def Change.restocking? : Change → Option ResourceChange
  | .resource r => some (.upserted r)
  | .resourceRemoved id => some (.removed id)
  | _ => none

/-- The changes of resources that some changes report, in turn. -/
def restockings (cs : List Change) : List ResourceChange :=
  cs.filterMap Change.restocking?

theorem restockings_append (cs ds : List Change) :
    restockings (cs ++ ds) = restockings cs ++ restockings ds :=
  List.filterMap_append

@[simp] theorem restockings_changes (changes : List ResourceChange) :
    restockings (changes.map ResourceChange.toChange) = changes := by
  have hsome : Change.restocking? ∘ ResourceChange.toChange = some := by
    funext c
    cases c <;> rfl
  unfold restockings
  rw [List.filterMap_map, hsome, List.filterMap_some]

@[simp] theorem restockings_reservations (rs : List Reservation) :
    restockings (rs.map .reservation) = [] := by
  refine List.filterMap_eq_nil_iff.2 fun c hc => ?_
  obtain ⟨r, -, rfl⟩ := List.mem_map.1 hc
  rfl

@[simp] theorem restockings_shown (ps : Places) (inv : Inventory)
    (names : List String) :
    restockings (Coordinator.State.shown ps inv names) = [] := by
  refine List.filterMap_eq_nil_iff.2 fun c hc => ?_
  obtain ⟨name, -, hname⟩ := List.mem_filterMap.1 hc
  obtain ⟨p, -, rfl⟩ := Option.map_eq_some_iff.1 hname
  rfl

section Current

variable {inv : Inventory} {cs : List ResourceChange}
  (h : ∀ c ∈ cs, c.Current inv)
include h

/-- Of the reports that say what the inventory says, those of a removal
are about what is not there. -/
theorem ResourceChange.removed_mem_iff {id : ResourceId} :
    .removed id ∈ cs ↔ id ∈ cs.map (·.id) ∧ inv.get? id = none := by
  constructor
  · intro hc
    exact ⟨List.mem_map_of_mem hc, h _ hc⟩
  · rintro ⟨hid, hnone⟩
    obtain ⟨c, hc, rfl⟩ := List.mem_map.1 hid
    cases c with
    | removed k => exact hc
    | upserted r => cases (h _ hc).symm.trans hnone

/-- And the others report what is. -/
theorem ResourceChange.upserted_mem_iff {r : Resource} :
    .upserted r ∈ cs ↔ r.id ∈ cs.map (·.id) ∧ inv.get? r.id = some r := by
  constructor
  · intro hc
    exact ⟨List.mem_map_of_mem hc, h _ hc⟩
  · rintro ⟨hid, hsome⟩
    obtain ⟨c, hc, heq⟩ := List.mem_map.1 hid
    have hcur : inv.get? c.id = c.resource? := h c hc
    rw [heq, hsome] at hcur
    cases c with
    | removed k => cases hcur
    | upserted r' =>
      cases hcur
      exact hc

end Current

namespace Coordinator

variable {s t : State} {l : Option SessionId} {session : SessionId}
  {exporter : String} {specs : List ResourceSpec} {now : Moment}

/-- Of resources, taking over changes reports the changes as settled. -/
theorem State.applyChanges_emits (s : State) (owner : SessionId)
    {changes : List ResourceChange} (now : Moment)
    (h : ∀ c ∈ changes, c.Current s.inventory)
    (hnd : (changes.map (·.id)).Nodup) :
    restockings (s.emitted (s.applyChanges owner changes now))
      = changes.map (settled s.places) := by
  have hrestocked : ∃ cs, Emits s (s.restocked owner changes) cs
      ∧ restockings cs = changes.map (settled s.places) := by
    refine ⟨_, .emitAll rfl _, ?_⟩
    rw [restockings_append, restockings_append, restockings_changes,
      restockings_shown, restockings_reservations, List.append_nil,
      List.append_nil]
  have hrescan : ∀ t : State, ∃ rs : List Reservation,
      Emits t (t.rescan now []) (rs.map .reservation) :=
    fun t => ⟨_, .emitAll rfl _⟩
  obtain ⟨cs, hcs, hsame⟩ := hrestocked
  rw [s.applyChanges_eq owner now h hnd]
  split
  · rw [hcs.emitted_eq, hsame]
  · obtain ⟨rs, hrs⟩ := hrescan (s.restocked owner changes)
    rw [(hcs.trans hrs).emitted_eq, restockings_append, hsame,
      restockings_reservations, List.append_nil]

-- ============================================================ the outcome

/-- A session's publication has replaced what it had published, and `count`
changes have been reported for it. -/
structure Republished (session : SessionId) (exporter : String)
    (specs : List ResourceSpec) (count : Nat) (s t : State) : Prop where
  /-- The session owns what it has announced, and nothing else. -/
  owned : ∀ id, t.inventory.ownerOf? id = some session ↔
    id ∈ specs.map (·.idFor exporter)
  /-- It has the parameters that were announced, or kept those it had if
  the announced ones are the same (`ResourceParams.same_iff`). -/
  given : ∀ spec ∈ specs, ∃ r,
    t.inventory.get? (spec.idFor exporter) = some r
      ∧ r.params.same spec.params = true
  /-- What was there stays as it was, one version further if its
  parameters have changed. -/
  known : ∀ spec ∈ specs, ∀ r,
    s.inventory.get? (spec.idFor exporter) = some r →
    t.inventory.get? (spec.idFor exporter)
      = some (if r.params.same spec.params then r
          else { r with
            params := spec.params, version := r.version + 1 })
  /-- What is new is acquired iff an acquired place has it bound. -/
  new : ∀ spec ∈ specs,
    s.inventory.get? (spec.idFor exporter) = none →
    ∃ r, t.inventory.get? (spec.idFor exporter) = some r
      ∧ r.params = spec.params
      ∧ (r.acquired = true ↔ ∃ p ∈ s.places.all, p.isAcquired = true
        ∧ spec.idFor exporter ∈ p.bound)
  /-- What is not announced is gone if it was the session's. -/
  rest : ∀ id, id ∉ specs.map (·.idFor exporter) →
    t.inventory.entries.get? id
      = (s.inventory.entries.get? id).filter (·.owner ≠ session)
  others : ∀ id, id.exporter ≠ exporter →
    t.inventory.entries.get? id = s.inventory.entries.get? id
  places : t.places = s.places
  /-- One event is emitted for each change of a resource. -/
  once : ((restockings (s.emitted t)).map (·.id)).Nodup
  counted : (restockings (s.emitted t)).length = count
  removed : ∀ id, .removed id ∈ restockings (s.emitted t) ↔
    s.inventory.ownerOf? id = some session
      ∧ id ∉ specs.map (·.idFor exporter)
  upserted : ∀ r, .upserted r ∈ restockings (s.emitted t) ↔
    t.inventory.get? r.id = some r
      ∧ ∃ spec ∈ specs, spec.idFor exporter = r.id
        ∧ ∀ old, s.inventory.get? r.id = some old →
          old.params.same spec.params = false

section Publishing

variable {inv : Inventory} {changes : List ResourceChange}
  (h : Sound l s) (hl : s.roster.Live session exporter .exporter)
  (hp : s.inventory.publish exporter session specs = .ok (changes, inv))
include h hl hp

namespace Sound

/-- What is announced is published, and flagged if it is bound. -/
theorem get?_published {spec : ResourceSpec} (hspec : spec ∈ specs) :
    let id := spec.idFor exporter
    let r := (Published.restated session id spec.params
      (s.inventory.entries.get? id)).resource
    (inv.settled s.places changes).get? id
      = some (if s.places.isBound id then r.flagged true else r) := by
  intro id r
  have hr := Inventory.publish_restock h.inventory hp
  have hget : inv.get? id = some r :=
    Inventory.get?_eq_some.2 ⟨_, (h.owns hl).get?_publish hp hspec, rfl⟩
  unfold Inventory.settled
  rw [Inventory.get?_flag, hget, Option.map_some]
  by_cases hb : s.places.isBound id = true
  · by_cases hid : id ∈ changes.map ResourceChange.id
    · rw [if_pos (List.mem_filter.2 ⟨hid, hb⟩), if_pos hb]
    · -- what was not reported is as it was, with its flag
      have hsame : s.inventory.get? id = some r :=
        (hr.get?_same hid).symm.trans hget
      have hflag := (h.leased.flagged id r hsame).2 hb
      rw [if_pos hb, Resource.flagged_of_eq hflag, ite_self]
  · rw [if_neg fun hin => hb (List.mem_filter.1 hin).2, if_neg hb]

/-- What was there stays as it was but for its parameters. -/
theorem get?_published_known {spec : ResourceSpec} (hspec : spec ∈ specs)
    {r : Resource}
    (hget : s.inventory.get? (spec.idFor exporter) = some r) :
    (inv.settled s.places changes).get? (spec.idFor exporter)
      = some (if r.params.same spec.params then r
          else { r with
            params := spec.params, version := r.version + 1 }) := by
  obtain ⟨e, he, rfl⟩ := Inventory.get?_eq_some.1 hget
  -- its flag was right before
  have hflag := h.leased.flagged _ _ hget
  rw [h.get?_published hl hp hspec, he, Published.resource_restated]
  by_cases hb : s.places.isBound (spec.idFor exporter) = true
  · rw [if_pos hb, Resource.flagged_of_eq]
    split <;> exact hflag.2 hb
  · rw [if_neg hb]

/-- What is new is flagged iff it is bound. -/
theorem get?_published_new {spec : ResourceSpec} (hspec : spec ∈ specs)
    (hnone : s.inventory.get? (spec.idFor exporter) = none) :
    ∃ r, (inv.settled s.places changes).get? (spec.idFor exporter) = some r
      ∧ r.params = spec.params
      ∧ r.acquired = s.places.isBound (spec.idFor exporter) := by
  have he : s.inventory.entries.get? (spec.idFor exporter) = none :=
    Option.map_eq_none_iff.1 hnone
  refine ⟨_, h.get?_published hl hp hspec, ?_⟩
  rw [he]
  by_cases hb : s.places.isBound (spec.idFor exporter) = true <;>
    simp [hb, Published.restated]

/-- What is not announced stays if it is another session's. -/
theorem get?_unannounced {id : ResourceId}
    (hid : id ∉ specs.map (·.idFor exporter)) :
    inv.entries.get? id
      = (s.inventory.entries.get? id).filter (·.owner ≠ session) := by
  rw [(h.owns hl).get?_publish_of_notMem hp hid]
  cases he : s.inventory.entries.get? id with
  | none => rfl
  | some e =>
    have hiff : (e.owner = session ∧ id.exporter = exporter)
        ↔ e.owner = session :=
      and_iff_left_of_imp (h.exporter_eq hl he)
    simp only [Option.filter_some, hiff, ne_eq]

/-- It is reported iff it goes, -/
theorem mem_ids_of_unannounced {id : ResourceId}
    (hid : id ∉ specs.map (·.idFor exporter)) :
    id ∈ changes.map (·.id) ↔ s.inventory.ownerOf? id = some session := by
  have hr := Inventory.publish_restock h.inventory hp
  rw [hr.mem_ids, h.get?_unannounced hl hp hid,
    Inventory.ownerOf?_eq_some]
  cases s.inventory.entries.get? id with
  | none => simp
  | some e => simp [Option.filter_some]

/-- and keeps its flag if it stays. -/
theorem get?_settled_unannounced {id : ResourceId}
    (hid : id ∉ specs.map (·.idFor exporter)) :
    (inv.settled s.places changes).entries.get? id
      = (s.inventory.entries.get? id).filter (·.owner ≠ session) := by
  have hr := Inventory.publish_restock h.inventory hp
  have hrest := h.get?_unannounced hl hp hid
  unfold Inventory.settled
  rw [Inventory.get?_entries_flag, ← hrest]
  cases he : inv.entries.get? id with
  | none => rfl
  | some e =>
    rw [he, eq_comm, Option.filter_eq_some_iff] at hrest
    have hnot : id ∉ changes.map ResourceChange.id := by
      rw [hr.mem_ids, he, hrest.1]
      exact not_not_intro rfl
    rw [Option.map_some, if_neg fun hin => hnot (List.mem_filter.1 hin).1]

/-- What is announced is reported unless it was there with the same
parameters. -/
theorem mem_ids_of_announced {spec : ResourceSpec} (hspec : spec ∈ specs) :
    spec.idFor exporter ∈ changes.map (·.id) ↔
      ∀ old, s.inventory.get? (spec.idFor exporter) = some old →
        old.params.same spec.params = false := by
  have hr := Inventory.publish_restock h.inventory hp
  rw [hr.mem_ids, (h.owns hl).get?_publish hp hspec,
    Published.restated_ne_iff]
  simp only [Inventory.get?_eq_some]
  constructor
  · rintro hall old ⟨e, he, rfl⟩
    exact hall e he
  · intro hall e he
    exact hall e.resource ⟨e, he, rfl⟩

/-- Afterwards the session owns what it has announced, and nothing
else. -/
theorem ownerOf?_published (id : ResourceId) :
    (inv.settled s.places changes).ownerOf? id = some session ↔
      id ∈ specs.map (·.idFor exporter) := by
  unfold Inventory.settled
  rw [Inventory.ownerOf?_flag, Inventory.ownerOf?_eq_some]
  constructor
  · rintro ⟨e, he, hown⟩
    by_cases hid : id ∈ specs.map (·.idFor exporter)
    · exact hid
    · rw [h.get?_unannounced hl hp hid, Option.filter_eq_some_iff] at he
      exact absurd hown (of_decide_eq_true he.2)
  · intro hid
    obtain ⟨spec, hspec, rfl⟩ := List.mem_map.1 hid
    refine ⟨_, (h.owns hl).get?_publish hp hspec, ?_⟩
    exact Published.owner_restated fun e he =>
      h.owns hl _ e he rfl

/-- Either way it has the parameters that were announced. -/
theorem get?_given {spec : ResourceSpec} (hspec : spec ∈ specs) :
    ∃ r, (inv.settled s.places changes).get? (spec.idFor exporter) = some r
      ∧ r.params.same spec.params = true := by
  cases hget : s.inventory.get? (spec.idFor exporter) with
  | none =>
    obtain ⟨r, hr, hparams, -⟩ := h.get?_published_new hl hp hspec hget
    exact ⟨r, hr, hparams ▸ r.params.same_self⟩
  | some old =>
    refine ⟨_, h.get?_published_known hl hp hspec hget, ?_⟩
    split
    · next hsame => exact hsame
    · exact spec.params.same_self

/-- What was the session's and is not announced is gone. -/
theorem get?_gone {id : ResourceId}
    (hid : id ∉ specs.map (·.idFor exporter))
    (hown : s.inventory.ownerOf? id = some session) :
    (inv.settled s.places changes).get? id = none := by
  obtain ⟨e, he, rfl⟩ := Inventory.ownerOf?_eq_some.1 hown
  unfold Inventory.get?
  rw [h.get?_settled_unannounced hl hp hid, he]
  simp [Option.filter_some]

/-- Other exporters' resources are as they were. -/
theorem get?_settled_other {id : ResourceId} (hid : id.exporter ≠ exporter) :
    (inv.settled s.places changes).entries.get? id
      = s.inventory.entries.get? id := by
  have hnot : id ∉ specs.map (·.idFor exporter) := by
    intro hmem
    obtain ⟨spec, -, rfl⟩ := List.mem_map.1 hmem
    exact hid rfl
  rw [h.get?_settled_unannounced hl hp hnot]
  cases he : s.inventory.entries.get? id with
  | none => rfl
  | some e =>
    have hne : e.owner ≠ session :=
      fun hown => hid (h.exporter_eq hl he hown)
    rw [Option.filter_some, if_pos (decide_eq_true hne)]

-- --------------------------------------------------------- what is reported

omit hl in
/-- What is reported is what the settled inventory says. -/
theorem settled_current : ∀ c ∈ changes.map (State.settled s.places),
    c.Current (inv.settled s.places changes) :=
  State.settled_current
    (Inventory.publish_restock h.inventory hp).current

theorem removed_mem_settled (id : ResourceId) :
    .removed id ∈ changes.map (State.settled s.places) ↔
      s.inventory.ownerOf? id = some session
        ∧ id ∉ specs.map (·.idFor exporter) := by
  rw [ResourceChange.removed_mem_iff (h.settled_current hp),
    State.map_settled_id]
  by_cases hmem : id ∈ specs.map (·.idFor exporter)
  · obtain ⟨spec, hspec, rfl⟩ := List.mem_map.1 hmem
    obtain ⟨r, hget, -⟩ := h.get?_given hl hp hspec
    simp [hget, hmem]
  · have hown := h.mem_ids_of_unannounced hl hp hmem
    exact ⟨fun hid => ⟨hown.1 hid.1, hmem⟩,
      fun hid => ⟨hown.2 hid.1, h.get?_gone hl hp hmem hid.1⟩⟩

theorem upserted_mem_settled (r : Resource) :
    .upserted r ∈ changes.map (State.settled s.places) ↔
      (inv.settled s.places changes).get? r.id = some r
        ∧ ∃ spec ∈ specs, spec.idFor exporter = r.id
          ∧ ∀ old, s.inventory.get? r.id = some old →
            old.params.same spec.params = false := by
  rw [ResourceChange.upserted_mem_iff (h.settled_current hp),
    State.map_settled_id]
  constructor
  · rintro ⟨hid, hget⟩
    by_cases hmem : r.id ∈ specs.map (·.idFor exporter)
    · obtain ⟨spec, hspec, heq⟩ := List.mem_map.1 hmem
      rw [← heq] at hid hget ⊢
      exact ⟨hget, spec, hspec, rfl,
        (h.mem_ids_of_announced hl hp hspec).1 hid⟩
    · have hown := (h.mem_ids_of_unannounced hl hp hmem).1 hid
      cases hget.symm.trans (h.get?_gone hl hp hmem hown)
  · rintro ⟨hget, spec, hspec, heq, hall⟩
    rw [← heq] at hall hget ⊢
    exact ⟨(h.mem_ids_of_announced hl hp hspec).2 hall, hget⟩

/-- So the publication has replaced what the session had published. -/
theorem republished (now : Moment) :
    Republished session exporter specs changes.length s
      (State.applyChanges { s with inventory := inv } session changes
        now) := by
  have hr := Inventory.publish_restock h.inventory hp
  let mid : State := { s with inventory := inv }
  let t := mid.applyChanges session changes now
  have hinv : t.inventory = inv.settled s.places changes :=
    mid.applyChanges_inventory session now hr.current hr.nodup
  have hreports : restockings (s.emitted t)
      = changes.map (State.settled s.places) :=
    mid.applyChanges_emits session now hr.current hr.nodup
  show Republished session exporter specs changes.length s t
  refine ⟨?_, ?_, ?_, ?_, ?_, ?_,
    mid.applyChanges_places session now hr.current hr.nodup, ?_, ?_, ?_, ?_⟩
  · rw [hinv]
    exact h.ownerOf?_published hl hp
  · rw [hinv]
    exact fun spec hspec => h.get?_given hl hp hspec
  · rw [hinv]
    exact fun spec hspec r hget => h.get?_published_known hl hp hspec hget
  · rw [hinv]
    intro spec hspec hnone
    obtain ⟨r, hget, hparams, hflag⟩ :=
      h.get?_published_new hl hp hspec hnone
    exact ⟨r, hget, hparams, by rw [hflag, Places.isBound_iff_mem_all]⟩
  · rw [hinv]
    exact fun id hid => h.get?_settled_unannounced hl hp hid
  · rw [hinv]
    exact fun id hid => h.get?_settled_other hl hp hid
  · rw [hreports, State.map_settled_id]
    exact hr.nodup
  · rw [hreports, List.length_map]
  · rw [hreports]
    exact h.removed_mem_settled hl hp
  · rw [hinv, hreports]
    exact h.upserted_mem_settled hl hp

end Sound

end Publishing

-- ========================================================= every publication

/-- A publication is granted iff no two announcements have an identity in
common, and then has replaced what the session had published. -/
theorem Sound.setResources_republished (h : Sound l s)
    (hl : s.roster.Live session exporter .exporter)
    (specs : List ResourceSpec) (now : Moment) :
    let asked := (Action.setResources session specs now).apply s
    ((∃ n, asked.1 = .ok n) ↔ (specs.map (·.idFor exporter)).Nodup)
      ∧ ∀ n, asked.1 = .ok n →
        Republished session exporter specs n s asked.2 := by
  intro asked
  have howns := h.owns hl
  obtain ⟨o, ho, rfl, hrole⟩ := hl
  have happly : asked = _ := Action.setResources_apply ho hrole specs now
  rw [← howns.publish_ok_iff, happly]
  cases hp : s.inventory.publish o.name session specs with
  | error e => simp
  | ok out =>
    refine ⟨by simp, fun n hn => ?_⟩
    cases hn
    exact h.republished ⟨o, ho, rfl, hrole⟩ hp now

end Coordinator

end LabLease
