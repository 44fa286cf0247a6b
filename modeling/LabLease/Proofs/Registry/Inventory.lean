/-
The inventory, read by identity: what it lists, what raising or lowering
the flags of some resources does to it, and what a restocking (a publish,
a withdrawal, the end of an exporter) leaves of it.

# The two kinds of change

- `flag`: some resources get the flag of an acquisition, or lose it. No
  identity comes or goes, so no view of a place changes.
- `Restock`: an exporter's session adds, alters or removes resources of
  its own. The reported changes say all of it, one change for each
  identity, and no flag is touched: a known resource keeps its flag, with
  a new version, and a new one has none. That a bound resource comes back
  without its flag is the coordinator's to mend, not the inventory's.
-/
import LabLease.Proofs.Table
import LabLease.Registry.Inventory

namespace LabLease

/-- The resource with its flag set, one version further if that changes
it. -/
def Resource.flagged (r : Resource) (acquired : Bool) : Resource :=
  if r.acquired = acquired then r
  else { r with acquired, version := r.version + 1 }

namespace Resource

@[simp] theorem flagged_id (r : Resource) (b : Bool) :
    (r.flagged b).id = r.id := by
  unfold flagged
  split <;> rfl

@[simp] theorem flagged_acquired (r : Resource) (b : Bool) :
    (r.flagged b).acquired = b := by
  unfold flagged
  split
  · next h => exact h
  · rfl

theorem flagged_of_eq {r : Resource} {b : Bool} (h : r.acquired = b) :
    r.flagged b = r := if_pos h

theorem le_version_flagged (r : Resource) (b : Bool) :
    r.version ≤ (r.flagged b).version := by
  unfold flagged
  split
  · exact Nat.le_refl _
  · exact Nat.le_succ _

end Resource

namespace Inventory

/-- Every resource is stored under its own identity. -/
def Filed (inv : Inventory) : Prop :=
  ∀ id e, inv.entries.get? id = some e → e.resource.id = id

variable {inv inv' : Inventory}

/-- Two inventories that answer every look-up alike are equal. -/
theorem ext_entries
    (h : ∀ id, inv.entries.get? id = inv'.entries.get? id) :
    inv = inv' := by
  cases inv
  cases inv'
  exact congrArg mk (Table.ext_get? h)

-- ========================================================== what it lists

theorem get?_eq_some {id : ResourceId} {r : Resource} :
    inv.get? id = some r ↔
      ∃ e, inv.entries.get? id = some e ∧ e.resource = r := by
  unfold get?
  exact Option.map_eq_some_iff

theorem Filed.id_eq (h : inv.Filed) {id : ResourceId} {r : Resource}
    (hr : inv.get? id = some r) : r.id = id := by
  obtain ⟨e, he, rfl⟩ := get?_eq_some.1 hr
  exact h id e he

/-- A resource is listed iff it is stored under its identity. -/
theorem Filed.mem_all (h : inv.Filed) {r : Resource} :
    r ∈ inv.all ↔ inv.get? r.id = some r := by
  unfold all
  rw [List.mem_map]
  constructor
  · intro hex
    obtain ⟨e, he, rfl⟩ := hex
    obtain ⟨id, hid⟩ := Table.mem_values.1 he
    rw [h id e hid]
    exact get?_eq_some.2 ⟨e, hid, rfl⟩
  · intro hr
    obtain ⟨e, he, rfl⟩ := get?_eq_some.1 hr
    exact ⟨e, Table.mem_values.2 ⟨_, he⟩, rfl⟩

/-- The listed identities are the keys, in their order. -/
theorem Filed.map_id_all (h : inv.Filed) :
    inv.all.map (·.id) = inv.entries.keys := by
  unfold all Table.values Table.keys
  rw [List.map_map, List.map_map]
  refine List.map_congr_left fun e he => ?_
  exact h e.1 e.2 ((Table.get?_eq_some_iff _ _ _).2 he)

/-- Resources are listed in the strict order of their identities. -/
theorem Filed.pairwise_all (h : inv.Filed) :
    inv.all.Pairwise fun a b => compare a.id b.id = .lt := by
  have hkeys := inv.entries.pairwise_keys
  rw [← h.map_id_all, List.pairwise_map] at hkeys
  exact hkeys

-- ================================================================ flags

/-- The inventory with the flags of some resources set. -/
def flag (inv : Inventory) (ids : List ResourceId) (acquired : Bool) :
    Inventory :=
  ⟨inv.entries.mapValues fun id e =>
    if ids.contains id then
      { e with resource := e.resource.flagged acquired }
    else e⟩

theorem get?_entries_flag (inv : Inventory) (ids : List ResourceId)
    (b : Bool) (id : ResourceId) :
    (inv.flag ids b).entries.get? id
      = (inv.entries.get? id).map fun e =>
          if id ∈ ids then { e with resource := e.resource.flagged b }
          else e := by
  unfold flag
  simp

@[simp] theorem get?_flag (inv : Inventory) (ids : List ResourceId)
    (b : Bool) (id : ResourceId) :
    (inv.flag ids b).get? id
      = (inv.get? id).map fun r =>
          if id ∈ ids then r.flagged b else r := by
  unfold get?
  rw [get?_entries_flag, Option.map_map, Option.map_map]
  congr 1
  funext e
  by_cases h : id ∈ ids <;> simp [h]

theorem get?_flag_of_notMem {ids : List ResourceId} {id : ResourceId}
    (h : id ∉ ids) (b : Bool) : (inv.flag ids b).get? id = inv.get? id := by
  rw [get?_flag]
  cases inv.get? id with
  | none => rfl
  | some r => rw [Option.map_some, if_neg h]

@[simp] theorem contains_flag (inv : Inventory) (ids : List ResourceId)
    (b : Bool) (id : ResourceId) :
    (inv.flag ids b).contains id = inv.contains id := by
  unfold contains Table.contains
  rw [get?_entries_flag, Option.isSome_map]

/-- Setting flags that are set so changes nothing. -/
theorem flag_of_forall {ids : List ResourceId} {b : Bool}
    (h : ∀ id ∈ ids, ∀ r, inv.get? id = some r → r.acquired = b) :
    inv.flag ids b = inv := by
  refine ext_entries fun id => ?_
  rw [get?_entries_flag]
  cases he : inv.entries.get? id with
  | none => rfl
  | some e =>
    rw [Option.map_some]
    split
    · next hid =>
      have hb := h id hid e.resource (get?_eq_some.2 ⟨e, he, rfl⟩)
      rw [Resource.flagged_of_eq hb]
    · rfl

@[simp] theorem flag_nil (inv : Inventory) (b : Bool) :
    inv.flag [] b = inv :=
  flag_of_forall fun _ hid => absurd hid List.not_mem_nil

/-- Flags can be set one after the other: setting one twice is setting it
once. -/
theorem flag_append (inv : Inventory) (ids more : List ResourceId)
    (b : Bool) :
    inv.flag (ids ++ more) b = (inv.flag ids b).flag more b := by
  refine ext_entries fun k => ?_
  rw [get?_entries_flag, get?_entries_flag, get?_entries_flag,
    Option.map_map]
  congr 1
  funext e
  by_cases hk : k ∈ ids <;> by_cases hm : k ∈ more <;>
    simp [hk, hm, Resource.flagged_of_eq]

theorem Filed.flag (h : inv.Filed) (ids : List ResourceId) (b : Bool) :
    (inv.flag ids b).Filed := by
  intro id e he
  rw [get?_entries_flag] at he
  obtain ⟨e', he', rfl⟩ := Option.map_eq_some_iff.1 he
  have hid := h id e' he'
  split
  · simpa using hid
  · exact hid

/-- Flags say nothing about who publishes. -/
theorem owner_of_flag {ids : List ResourceId} {b : Bool}
    {id : ResourceId} {e : Published}
    (h : (inv.flag ids b).entries.get? id = some e) :
    ∃ e', inv.entries.get? id = some e' ∧ e'.owner = e.owner := by
  rw [get?_entries_flag] at h
  obtain ⟨e', he', rfl⟩ := Option.map_eq_some_iff.1 h
  refine ⟨e', he', ?_⟩
  split <;> rfl

/-- Setting one flag. -/
theorem setAcquired_fst (inv : Inventory) (id : ResourceId) (b : Bool) :
    (inv.setAcquired id b).1 = inv.flag [id] b := by
  refine ext_entries fun k => ?_
  rw [get?_entries_flag]
  unfold setAcquired
  cases hk : inv.entries.get? id with
  | none =>
    by_cases h : k = id
    · subst h
      rw [hk]
      rfl
    · simp [h]
  | some known =>
    by_cases hb : known.resource.acquired = b
    · by_cases h : k = id
      · subst h
        simp [hk, hb, Resource.flagged]
      · simp [hb, h]
    · by_cases h : k = id
      · subst h
        simp [hk, hb, Resource.flagged]
      · have h' : id ≠ k := Ne.symm h
        simp [hb, h, h']

/-- A change of one flag is reported as the resource after it. -/
theorem setAcquired_snd_eq_some {id : ResourceId} {b : Bool}
    {c : ResourceChange} (h : (inv.setAcquired id b).2 = some c) :
    ∃ r, inv.get? id = some r ∧ r.acquired = !b
      ∧ c = .upserted (r.flagged b) := by
  unfold setAcquired at h
  cases hk : inv.entries.get? id with
  | none => simp [hk] at h
  | some known =>
    by_cases hb : known.resource.acquired = b
    · simp [hk, hb] at h
    · refine ⟨known.resource, get?_eq_some.2 ⟨known, hk, rfl⟩, ?_, ?_⟩
      · cases hx : known.resource.acquired <;> cases b <;> simp_all
      · simp only [hk, if_neg hb, Option.some.injEq] at h
        rw [← h, Resource.flagged, if_neg hb]

theorem setAcquired_snd_of_get? {id : ResourceId} {b : Bool}
    {r : Resource} (hr : inv.get? id = some r) (hb : r.acquired ≠ b) :
    (inv.setAcquired id b).2 = some (.upserted (r.flagged b)) := by
  obtain ⟨e, he, rfl⟩ := get?_eq_some.1 hr
  unfold setAcquired Resource.flagged
  simp [he, hb]

/-- Without a report there was nothing to change. -/
theorem flag_of_setAcquired_snd_eq_none {id : ResourceId} {b : Bool}
    (h : (inv.setAcquired id b).2 = none) : inv.flag [id] b = inv := by
  rw [← setAcquired_fst]
  unfold setAcquired at h ⊢
  cases hk : inv.entries.get? id with
  | none => rfl
  | some known =>
    by_cases hb : known.resource.acquired = b
    · simp [hb]
    · simp [hk, hb] at h

-- =========================================================== restocking

/-- What an exporter's session may do to the inventory, and what it
reports of it: one change for each identity that comes, goes or alters,
all of them the session's own. -/
structure Restock (exporter : String) (owner : SessionId)
    (inv inv' : Inventory) (changes : List ResourceChange) : Prop where
  nodup : (changes.map (·.id)).Nodup
  upserted : ∀ r, .upserted r ∈ changes →
    r.id.exporter = exporter ∧ inv'.entries.get? r.id = some ⟨r, owner⟩
  known : ∀ r, .upserted r ∈ changes →
    ∀ e, inv.entries.get? r.id = some e →
      e.owner = owner ∧ e.resource.acquired = r.acquired
  new : ∀ r, .upserted r ∈ changes →
    inv.entries.get? r.id = none → r.acquired = false
  removed : ∀ id, .removed id ∈ changes →
    inv'.entries.get? id = none
      ∧ ∃ e, inv.entries.get? id = some e ∧ e.owner = owner
  same : ∀ id, id ∉ changes.map (·.id) →
    inv'.entries.get? id = inv.entries.get? id
  newer : ∀ r, .upserted r ∈ changes →
    ∀ e, inv.entries.get? r.id = some e → e.resource.version < r.version

namespace Restock

variable {exporter : String} {owner : SessionId}
  {changes more : List ResourceChange} {inv'' : Inventory}

theorem nil (exporter : String) (owner : SessionId) (inv : Inventory) :
    Restock exporter owner inv inv [] where
  nodup := .nil
  upserted := by simp
  known := by simp
  new := by simp
  removed := by simp
  same := fun _ _ => rfl
  newer := by simp

theorem get?_same (h : Restock exporter owner inv inv' changes)
    {id : ResourceId} (hid : id ∉ changes.map (·.id)) :
    inv'.get? id = inv.get? id := by
  unfold get?
  rw [h.same id hid]

/-- One restocking after the other, on different identities. -/
theorem append (h : Restock exporter owner inv inv' changes)
    (h' : Restock exporter owner inv' inv'' more)
    (hd : ∀ id ∈ changes.map (·.id), id ∉ more.map (·.id)) :
    Restock exporter owner inv inv'' (changes ++ more) := by
  have hback : ∀ c ∈ more, c.id ∉ changes.map (·.id) := fun c hc hm =>
    hd _ hm (List.mem_map_of_mem hc)
  refine ⟨?_, ?_, ?_, ?_, ?_, ?_, ?_⟩
  · rw [List.map_append, List.nodup_append]
    refine ⟨h.nodup, h'.nodup, fun a ha b hb hab => ?_⟩
    exact hd a ha (hab ▸ hb)
  · intro r hr
    rcases List.mem_append.1 hr with hr | hr
    · obtain ⟨hx, hget⟩ := h.upserted r hr
      exact ⟨hx, (h'.same _ (hd _ (List.mem_map_of_mem hr))).trans hget⟩
    · exact h'.upserted r hr
  · intro r hr e he
    rcases List.mem_append.1 hr with hr | hr
    · exact h.known r hr e he
    · exact h'.known r hr e ((h.same _ (hback _ hr)).trans he)
  · intro r hr he
    rcases List.mem_append.1 hr with hr | hr
    · exact h.new r hr he
    · exact h'.new r hr ((h.same _ (hback _ hr)).trans he)
  · intro id hid
    rcases List.mem_append.1 hid with hid | hid
    · obtain ⟨hnone, hold⟩ := h.removed id hid
      exact ⟨(h'.same _ (hd _ (List.mem_map_of_mem hid))).trans hnone, hold⟩
    · obtain ⟨hnone, e, he, ho⟩ := h'.removed id hid
      exact ⟨hnone, e, (h.same _ (hback _ hid)).symm.trans he, ho⟩
  · intro id hid
    rw [List.map_append, List.mem_append, not_or] at hid
    exact (h'.same id hid.2).trans (h.same id hid.1)
  · intro r hr e he
    rcases List.mem_append.1 hr with hr | hr
    · exact h.newer r hr e he
    · exact h'.newer r hr e ((h.same _ (hback _ hr)).trans he)

/-- A restocking files what it stores. -/
theorem filed (h : Restock exporter owner inv inv' changes)
    (hf : inv.Filed) : inv'.Filed := by
  intro id e he
  by_cases hid : id ∈ changes.map (·.id)
  · obtain ⟨c, hc, rfl⟩ := List.mem_map.1 hid
    cases c with
    | upserted r =>
      rw [show (ResourceChange.upserted r).id = r.id from rfl,
        (h.upserted r hc).2] at he
      cases he
      rfl
    | removed id =>
      rw [show (ResourceChange.removed id).id = id from rfl,
        (h.removed id hc).1] at he
      cases he
  · rw [h.same id hid] at he
    exact hf id e he

end Restock

-- ------------------------------------------------ what does a restocking

/-- Removal of several identities. -/
theorem get?_removeAll (inv : Inventory) (ids : List ResourceId)
    (id : ResourceId) :
    (inv.removeAll ids).1.entries.get? id
      = if id ∈ ids then none else inv.entries.get? id := by
  unfold removeAll
  induction ids generalizing inv with
  | nil => simp
  | cons k rest ih =>
    rw [List.foldl_cons, ih, Table.get?_erase]
    by_cases hk : k = id
    · subst hk
      simp
    · have hk' : id ≠ k := Ne.symm hk
      by_cases hr : id ∈ rest <;> simp [hk, hk', hr]

theorem removeAll_restock (inv : Inventory) (exporter : String)
    {owner : SessionId} {ids : List ResourceId} (hnd : ids.Nodup)
    (h : ∀ id ∈ ids, ∃ e, inv.entries.get? id = some e ∧ e.owner = owner) :
    Restock exporter owner inv (inv.removeAll ids).1
      (inv.removeAll ids).2 := by
  have hids : (inv.removeAll ids).2.map (·.id) = ids := by
    unfold removeAll
    rw [List.map_map]
    exact List.map_id ids
  have hno : ∀ r, .upserted r ∉ (inv.removeAll ids).2 := by
    simp [removeAll]
  refine ⟨by rw [hids]; exact hnd, fun r hr => absurd hr (hno r),
    fun r hr => absurd hr (hno r), fun r hr => absurd hr (hno r), ?_, ?_,
    fun r hr => absurd hr (hno r)⟩
  · intro id hid
    have hmem : id ∈ ids := hids ▸ List.mem_map_of_mem hid
    exact ⟨by rw [get?_removeAll, if_pos hmem], h id hmem⟩
  · intro id hid
    rw [hids] at hid
    rw [get?_removeAll, if_neg hid]

/-- Everything that a session publishes goes. -/
theorem removeOwner_restock (exporter : String) (inv : Inventory)
    (owner : SessionId) :
    Restock exporter owner inv (inv.removeOwner owner).1
      (inv.removeOwner owner).2 := by
  refine removeAll_restock _ exporter (Table.nodup_keys _) fun id hid => ?_
  obtain ⟨e, he, ho⟩ := Table.mem_keys_filter.1 hid
  exact ⟨e, he, by simpa using ho⟩

/-- Nothing of the session is left, and everything else is as it was. -/
theorem get?_removeOwner (inv : Inventory) (owner : SessionId)
    (id : ResourceId) :
    (inv.removeOwner owner).1.entries.get? id
      = (inv.entries.get? id).filter (·.owner ≠ owner) := by
  unfold removeOwner
  rw [get?_removeAll]
  cases he : inv.entries.get? id with
  | none => simp
  | some e =>
    by_cases ho : e.owner = owner
    · have hmem : id ∈ (inv.entries.filter fun _ e =>
          e.owner = owner).keys :=
        Table.mem_keys_filter.2 ⟨e, he, decide_eq_true ho⟩
      simp [hmem, ho, Option.filter_some]
    · have hnot : id ∉ (inv.entries.filter fun _ e =>
          e.owner = owner).keys := by
        intro hmem
        obtain ⟨e', he', ho'⟩ := Table.mem_keys_filter.1 hmem
        rw [he] at he'
        cases he'
        exact ho (of_decide_eq_true ho')
      simp [hnot, ho, Option.filter_some]

theorem owner_ne_of_removeOwner {owner : SessionId} {id : ResourceId}
    {e : Published}
    (he : (inv.removeOwner owner).1.entries.get? id = some e) :
    inv.entries.get? id = some e ∧ e.owner ≠ owner := by
  rw [get?_removeOwner, Option.filter_eq_some_iff] at he
  exact ⟨he.1, of_decide_eq_true he.2⟩

theorem withdraw_restock (exporter : String) {owner : SessionId}
    {ids : List ResourceId} {changes : List ResourceChange}
    (h : inv.withdraw owner ids = .ok (changes, inv')) :
    Restock exporter owner inv inv' changes := by
  unfold withdraw at h
  cases hfind : ids.find? fun id => inv.ownerOf? id != some owner with
  | some id => rw [hfind] at h; cases h
  | none =>
    rw [hfind] at h
    cases h
    refine removeAll_restock _ exporter (Table.nodup_keys _) fun id hid => ?_
    obtain ⟨e, he, hin⟩ := Table.mem_keys_filter.1 hid
    have hown := List.find?_eq_none.1 hfind id (by simpa using hin)
    refine ⟨e, he, ?_⟩
    simpa [ownerOf?, he] using hown

/-- One announced resource of the session's own. -/
theorem upsert_restock {exporter : String} {owner : SessionId}
    {id : ResourceId} (params : ResourceParams) (hf : inv.Filed)
    (hx : id.exporter = exporter)
    (ho : ∀ e, inv.entries.get? id = some e → e.owner = owner) :
    Restock exporter owner inv (upsert owner inv id params).1
        (upsert owner inv id params).2
      ∧ ∀ c ∈ (upsert owner inv id params).2, c.id = id := by
  unfold upsert
  cases hk : inv.entries.get? id with
  | none =>
    refine ⟨⟨by simp, ?_, ?_, ?_, by simp, ?_, ?_⟩,
      by simp [ResourceChange.id]⟩
    · simp [hx]
    · simp [hk]
    · simp
    · intro k hne
      have : ¬ id = k := by simpa [ResourceChange.id, eq_comm] using hne
      simp [this]
    · simp [hk]
  | some known =>
    have hid : known.resource.id = id := hf id known hk
    by_cases hsame : known.resource.params.same params = true
    · simp only [hsame, if_true]
      exact ⟨Restock.nil exporter owner inv, by simp⟩
    · simp only [hsame, Bool.false_eq_true, if_false]
      refine ⟨⟨by simp, ?_, ?_, ?_, by simp, ?_, ?_⟩,
        by simp [ResourceChange.id, hid]⟩
      · simp [hid, hx, ho known hk]
      · simp [hid, hk, ho known hk]
      · simp [hid, hk]
      · intro k hne
        have : ¬ id = k := by
          simpa [ResourceChange.id, hid, eq_comm] using hne
        simp [this]
      · simp [hid, hk]

/-- All announced resources, each under an identity of its own. -/
theorem upsertAll_restock (exporter : String) (owner : SessionId)
    (l : List (ResourceId × ResourceParams)) (inv : Inventory)
    (hf : inv.Filed) (hnd : (l.map (·.1)).Nodup)
    (hl : ∀ id ∈ l.map (·.1), id.exporter = exporter
      ∧ ∀ e, inv.entries.get? id = some e → e.owner = owner) :
    Restock exporter owner inv (upsertAll owner inv l).1
        (upsertAll owner inv l).2
      ∧ ∀ c ∈ (upsertAll owner inv l).2, c.id ∈ l.map (·.1) := by
  induction l generalizing inv with
  | nil => exact ⟨Restock.nil exporter owner inv, by simp [upsertAll]⟩
  | cons a rest ih =>
    obtain ⟨id, params⟩ := a
    rw [List.map_cons, List.nodup_cons] at hnd
    obtain ⟨hx, ho⟩ := hl id List.mem_cons_self
    obtain ⟨hone, hids⟩ := upsert_restock params hf hx ho
    -- the other identities still are as they were
    have hrest : ∀ k ∈ rest.map (·.1), k.exporter = exporter
        ∧ ∀ e, (upsert owner inv id params).1.entries.get? k = some e →
            e.owner = owner := by
      intro k hk
      obtain ⟨hkx, hko⟩ := hl k (List.mem_cons_of_mem _ hk)
      refine ⟨hkx, fun e he => hko e ?_⟩
      rw [← he, hone.same]
      intro hm
      obtain ⟨c, hc, rfl⟩ := List.mem_map.1 hm
      exact hnd.1 (hids c hc ▸ hk)
    obtain ⟨hmany, hmids⟩ := ih _ (hone.filed hf) hnd.2 hrest
    refine ⟨hone.append hmany ?_, ?_⟩
    · intro k hk hk'
      obtain ⟨c, hc, rfl⟩ := List.mem_map.1 hk
      obtain ⟨c', hc', heq⟩ := List.mem_map.1 hk'
      have := hmids c' hc'
      rw [heq, hids c hc] at this
      exact hnd.1 this
    · intro c hc
      rcases List.mem_append.1 hc with hc | hc
      · rw [hids c hc]
        exact List.mem_cons_self
      · exact List.mem_cons_of_mem _ (hmids c hc)

/-- One more announcement. -/
def announce (exporter : String) (t : Table ResourceId ResourceParams)
    (spec : ResourceSpec) :
    Except Refusal (Table ResourceId ResourceParams) :=
  let id := spec.idFor exporter
  if t.contains id then
    .error (.invalidRequest s!"resource {id.text} listed twice")
  else .ok (t.insert id spec.params)

/-- Announcements are taken iff no two have an identity in common, and
none has it with what was announced before. -/
theorem foldlM_announce_ok_iff (exporter : String)
    (specs : List ResourceSpec) (t : Table ResourceId ResourceParams) :
    (∃ t', specs.foldlM (announce exporter) t = .ok t')
      ↔ (specs.map (·.idFor exporter)).Nodup
        ∧ ∀ spec ∈ specs, t.contains (spec.idFor exporter) = false := by
  induction specs generalizing t with
  | nil => simp [pure, Except.pure]
  | cons spec rest ih =>
    rw [List.foldlM_cons, List.map_cons, List.nodup_cons,
      List.forall_mem_cons]
    by_cases hin : t.contains (spec.idFor exporter) = true
    · simp [announce, hin, Bind.bind, Except.bind]
    · have hstep : announce exporter t spec
          = .ok (t.insert (spec.idFor exporter) spec.params) :=
        if_neg hin
      rw [hstep]
      refine (ih _).trans ?_
      -- what is new for the rest is the identity of this one
      have hnew : ∀ other : ResourceSpec,
          (t.insert (spec.idFor exporter) spec.params).contains
              (other.idFor exporter) = false
            ↔ spec.idFor exporter ≠ other.idFor exporter
              ∧ t.contains (other.idFor exporter) = false := by
        intro other
        rw [← Bool.not_eq_true, Table.contains_insert, not_or,
          Bool.not_eq_true]
      simp only [hnew, List.mem_map, not_exists, not_and]
      rw [Bool.not_eq_true] at hin
      constructor
      · rintro ⟨hnd, hall⟩
        exact ⟨⟨fun other hother heq => (hall other hother).1 heq.symm,
          hnd⟩, hin, fun other hother => (hall other hother).2⟩
      · rintro ⟨⟨hne, hnd⟩, -, hall⟩
        exact ⟨hnd, fun other hother =>
          ⟨fun heq => hne other hother heq.symm, hall other hother⟩⟩

/-- What is announced once it was taken. -/
theorem get?_foldlM_announce {exporter : String}
    {specs : List ResourceSpec} {t t' : Table ResourceId ResourceParams}
    (h : specs.foldlM (announce exporter) t = .ok t') {id : ResourceId}
    {params : ResourceParams} :
    t'.get? id = some params ↔ t.get? id = some params
      ∨ ∃ spec ∈ specs, spec.idFor exporter = id
        ∧ spec.params = params := by
  induction specs generalizing t with
  | nil =>
    cases h
    simp
  | cons spec rest ih =>
    rw [List.foldlM_cons] at h
    by_cases hin : t.contains (spec.idFor exporter) = true
    · simp [announce, hin, Bind.bind, Except.bind] at h
    · have hstep : announce exporter t spec
          = .ok (t.insert (spec.idFor exporter) spec.params) :=
        if_neg hin
      rw [hstep] at h
      have hnone : t.get? (spec.idFor exporter) = none := by
        rw [Bool.not_eq_true] at hin
        exact Option.isNone_iff_eq_none.1
          (Option.isSome_eq_false_iff.1 hin)
      rw [ih h, Table.get?_insert]
      by_cases hid : spec.idFor exporter = id
      · subst hid
        simp [hnone]
      · simp [hid]

theorem announced_eq (exporter : String) (specs : List ResourceSpec) :
    announced exporter specs
      = specs.foldlM (announce exporter) .empty := rfl

/-- Announcements are taken iff no two have an identity in common. -/
theorem announced_ok_iff (exporter : String) (specs : List ResourceSpec) :
    (∃ t, announced exporter specs = .ok t)
      ↔ (specs.map (·.idFor exporter)).Nodup := by
  rw [announced_eq, foldlM_announce_ok_iff]
  exact and_iff_left fun _ _ => rfl

theorem get?_announced {exporter : String} {specs : List ResourceSpec}
    {t : Table ResourceId ResourceParams}
    (h : announced exporter specs = .ok t) {id : ResourceId}
    {params : ResourceParams} :
    t.get? id = some params ↔
      ∃ spec ∈ specs, spec.idFor exporter = id ∧ spec.params = params :=
  (get?_foldlM_announce h).trans (or_iff_right nofun)

/-- Announcements are filed under identities of the exporter. -/
theorem exporter_of_announced {exporter : String}
    {specs : List ResourceSpec} {t : Table ResourceId ResourceParams}
    (h : announced exporter specs = .ok t) :
    ∀ id ∈ t.keys, id.exporter = exporter := by
  intro id hid
  obtain ⟨params, hparams⟩ := Table.mem_keys.1 hid
  obtain ⟨spec, -, rfl, -⟩ := (get?_announced h).1 hparams
  rfl

/-- What goes because it is not announced any more. -/
def stale (inv : Inventory) (exporter : String) (owner : SessionId)
    (incoming : Table ResourceId ResourceParams) : List ResourceId :=
  (inv.entries.filter fun id e =>
    e.owner = owner && id.exporter = exporter
      && !incoming.contains id).keys

theorem mem_stale {exporter : String} {owner : SessionId}
    {incoming : Table ResourceId ResourceParams} {id : ResourceId} :
    id ∈ inv.stale exporter owner incoming ↔
      ∃ e, inv.entries.get? id = some e ∧ e.owner = owner
        ∧ id.exporter = exporter ∧ incoming.get? id = none := by
  unfold stale
  rw [Table.mem_keys_filter]
  simp [Table.contains, and_assoc]

theorem publish_restock {exporter : String} {owner : SessionId}
    {specs : List ResourceSpec} {changes : List ResourceChange}
    (hf : inv.Filed)
    (h : inv.publish exporter owner specs = .ok (changes, inv')) :
    Restock exporter owner inv inv' changes := by
  unfold publish at h
  cases hann : announced exporter specs with
  | error e => rw [hann] at h; cases h
  | ok incoming =>
    rw [hann] at h
    dsimp only [bind, Except.bind] at h
    split at h
    · cases h
    · next hfind =>
      cases h
      -- what is filed under the exporter belongs to the session
      have hown : ∀ id e, inv.entries.get? id = some e →
          id.exporter = exporter → e.owner = owner := by
        intro id e he hx
        have := List.find?_eq_none.1 hfind (id, e)
          ((Table.get?_eq_some_iff _ _ _).1 he)
        simpa [hx] using this
      have hnd : (inv.stale exporter owner incoming).Nodup :=
        Table.nodup_keys _
      have hgone := inv.removeAll_restock exporter hnd fun id hid => by
        obtain ⟨e, he, ho, -⟩ := mem_stale.1 hid
        exact ⟨e, he, ho⟩
      have hcome := upsertAll_restock exporter owner
        incoming.entries _ (hgone.filed hf)
        incoming.nodup_keys fun id hid =>
          ⟨exporter_of_announced hann id hid, fun e he => by
            rw [get?_removeAll] at he
            split at he
            · cases he
            · exact hown id e he (exporter_of_announced hann id hid)⟩
      refine hgone.append hcome.1 ?_
      intro id hid hid'
      obtain ⟨c, hc, rfl⟩ := List.mem_map.1 hid
      obtain ⟨c', hc', heq⟩ := List.mem_map.1 hid'
      have hin := hcome.2 c' hc'
      rw [heq] at hin
      unfold removeAll at hc
      obtain ⟨k, hk, rfl⟩ := List.mem_map.1 hc
      obtain ⟨-, -, -, -, hnone⟩ := mem_stale.1 hk
      obtain ⟨params, hparams⟩ := Table.mem_keys.1 hin
      cases hnone.symm.trans hparams

-- =============================================== what the operations make

/-- The inventories that the operations make out of the empty one. -/
inductive Reached : Inventory → Prop
  | empty : Reached empty
  | publish {inv inv' : Inventory} {exporter : String}
      {owner : SessionId} {specs : List ResourceSpec}
      {changes : List ResourceChange} (before : Reached inv)
      (granted : inv.publish exporter owner specs = .ok (changes, inv')) :
      Reached inv'
  | withdraw {inv inv' : Inventory} {owner : SessionId}
      {ids : List ResourceId} {changes : List ResourceChange}
      (before : Reached inv)
      (granted : inv.withdraw owner ids = .ok (changes, inv')) :
      Reached inv'
  | removeOwner {inv : Inventory} (before : Reached inv)
      (owner : SessionId) : Reached (inv.removeOwner owner).1
  | setAcquired {inv : Inventory} (before : Reached inv)
      (id : ResourceId) (acquired : Bool) :
      Reached (inv.setAcquired id acquired).1

/-- Whatever they do, every resource is stored under its own identity. -/
theorem Reached.filed (h : inv.Reached) : inv.Filed := by
  induction h with
  | empty =>
    intro id e he
    cases he
  | publish _ granted ih => exact (publish_restock ih granted).filed ih
  | withdraw _ granted ih => exact (withdraw_restock "" granted).filed ih
  | removeOwner _ owner ih =>
    exact (removeOwner_restock "" _ owner).filed ih
  | setAcquired _ id acquired ih =>
    rw [setAcquired_fst]
    exact ih.flag [id] acquired

end Inventory

end LabLease
