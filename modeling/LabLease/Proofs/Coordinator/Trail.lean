/-
Trails: what the log tells of one resource or of one place, in turn.

# Trails

What is told of a thing is a list of what it is each time, or that it is
gone. `Trail` says of such a list that whatever is told next is related to
what was told right before, unless that was the end of the thing. A trail
begins with what is stored at first and ends with what is stored at last,
so trails of moves are joined to trails of runs, and with a relation that
is transitive any two reports without an end between them are related
(`Trail.between`).

# Where versions could slip

A place is shown again whenever a resource that it selects comes or goes,
under its old version: then what is shown is what is stored
(`eq_of_mem_toldPlace_shown`). Resources are reported as they are stored
after the change (`Trail.flips`, `Trail.restock`), never from a copy that
was taken before.
-/
import LabLease.Proofs.Coordinator.Cascade

namespace LabLease

-- ================================================================= trails

section Trails

variable {α : Type} {R : α → α → Prop} {a b c : Option α}
  {xs ys : List (Option α)}

/-- What is told of one thing between two states of it: what is told is
related to what it was before, if it was there. -/
inductive Trail (R : α → α → Prop) :
    Option α → List (Option α) → Option α → Prop
  | nil {a : Option α} : Trail R a [] a
  | cons {a b c : Option α} {rest : List (Option α)}
      (h : ∀ x ∈ a, ∀ y ∈ b, R x y) (hrest : Trail R b rest c) :
    Trail R a (b :: rest) c

namespace Trail

theorem single (h : ∀ x ∈ a, ∀ y ∈ b, R x y) : Trail R a [b] b :=
  .cons h .nil

theorem append (h : Trail R a xs b) (h' : Trail R b ys c) :
    Trail R a (xs ++ ys) c := by
  induction h with
  | nil => exact h'
  | cons hr _ ih => exact .cons hr (ih h')

theorem split (h : Trail R a (xs ++ ys) c) :
    ∃ b, Trail R a xs b ∧ Trail R b ys c := by
  induction xs generalizing a with
  | nil => exact ⟨a, .nil, h⟩
  | cons x xs ih =>
    cases h with
    | cons hr hrest =>
      obtain ⟨b, hxs, hys⟩ := ih hrest
      exact ⟨b, .cons hr hxs, hys⟩

/-- The same may be told several times. -/
theorem repeated (hrefl : ∀ x, R x x) (h : ∀ x ∈ xs, x = a) :
    Trail R a xs a := by
  induction xs with
  | nil => exact .nil
  | cons x xs ih =>
    have hx : x = a := h x List.mem_cons_self
    subst hx
    refine .cons (fun y hy z hz => ?_)
      (ih fun y hy => h y (List.mem_cons_of_mem x hy))
    rw [Option.mem_unique hz hy]
    exact hrefl y

/-- Two things that are told without an end between them. -/
theorem between {before mid after : List (Option α)} {x y : α}
    (h : Trail R a (before ++ some x :: mid ++ some y :: after) c)
    (htrans : ∀ {x y z}, R x y → R y z → R x z) (hmid : none ∉ mid) :
    R x y := by
  rw [List.append_assoc, List.cons_append] at h
  obtain ⟨b, -, hrest⟩ := h.split
  cases hrest with
  | cons hr hrest =>
    clear h hr
    induction mid generalizing x with
    | nil =>
      cases hrest with
      | cons hr _ => exact hr x rfl y rfl
    | cons z mid ih =>
      rw [List.mem_cons, not_or] at hmid
      cases z with
      | none => exact absurd rfl hmid.1
      | some z =>
        cases hrest with
        | cons hr hrest => exact htrans (hr x rfl z rfl) (ih hmid.2 hrest)

end Trail

end Trails

-- ======================================================== what is told

/-- What a change tells of a resource, if it is about it. -/
def Change.ofResource? (id : ResourceId) :
    Change → Option (Option Resource)
  | .resource r => if r.id = id then some (some r) else none
  | .resourceRemoved i => if i = id then some none else none
  | _ => none

/-- What a change tells of a place, if it is about it. -/
def Change.ofPlace? (name : String) : Change → Option (Option Place)
  | .place v => if v.place.name = name then some (some v.place) else none
  | .placeDeleted n => if n = name then some none else none
  | _ => none

/-- What some changes tell of a resource. -/
def toldResource (id : ResourceId) (cs : List Change) :
    List (Option Resource) :=
  cs.filterMap (Change.ofResource? id)

/-- What some changes tell of a place. -/
def toldPlace (name : String) (cs : List Change) : List (Option Place) :=
  cs.filterMap (Change.ofPlace? name)

/-- A resource that may be told after another. -/
def Resource.Precedes (r r' : Resource) : Prop := r.version < r'.version

/-- A place that may be told after another. -/
def Place.Precedes (p p' : Place) : Prop :=
  p.version ≤ p'.version ∧ (p.version = p'.version → p' = p)

theorem Resource.Precedes.trans {r r' r'' : Resource}
    (h : r.Precedes r') (h' : r'.Precedes r'') : r.Precedes r'' :=
  Nat.lt_trans h h'

theorem Place.Precedes.refl (p : Place) : p.Precedes p :=
  ⟨Nat.le_refl _, fun _ => rfl⟩

theorem Place.Precedes.trans {p p' p'' : Place} (h : p.Precedes p')
    (h' : p'.Precedes p'') : p.Precedes p'' := by
  obtain ⟨hle, hsame⟩ := h
  obtain ⟨hle', hsame'⟩ := h'
  refine ⟨Nat.le_trans hle hle', fun heq => ?_⟩
  -- between equal versions nothing has changed
  have hfirst : p.version = p'.version := by omega
  have hsecond : p'.version = p''.version := by omega
  rw [hsame' hsecond, hsame hfirst]

/-- A place that is one version further. -/
theorem Place.Precedes.of_next {p p' : Place}
    (h : p'.version = p.version + 1) : p.Precedes p' := by
  unfold Place.Precedes
  refine ⟨by omega, fun heq => ?_⟩
  omega

section Told

variable {cs ds : List Change} {id : ResourceId} {name : String}

theorem toldResource_append (id : ResourceId) (cs ds : List Change) :
    toldResource id (cs ++ ds) = toldResource id cs ++ toldResource id ds :=
  List.filterMap_append

theorem toldPlace_append (name : String) (cs ds : List Change) :
    toldPlace name (cs ++ ds) = toldPlace name cs ++ toldPlace name ds :=
  List.filterMap_append

@[simp] theorem toldResource_reservations (id : ResourceId)
    (rs : List Reservation) : toldResource id (rs.map .reservation) = [] := by
  refine List.filterMap_eq_nil_iff.2 fun c hc => ?_
  obtain ⟨r, -, rfl⟩ := List.mem_map.1 hc
  rfl

@[simp] theorem toldPlace_reservations (name : String)
    (rs : List Reservation) : toldPlace name (rs.map .reservation) = [] := by
  refine List.filterMap_eq_nil_iff.2 fun c hc => ?_
  obtain ⟨r, -, rfl⟩ := List.mem_map.1 hc
  rfl

@[simp] theorem toldResource_shown (id : ResourceId) (ps : Places)
    (inv : Inventory) (names : List String) :
    toldResource id (Coordinator.State.shown ps inv names) = [] := by
  refine List.filterMap_eq_nil_iff.2 fun c hc => ?_
  obtain ⟨name, -, hname⟩ := List.mem_filterMap.1 hc
  obtain ⟨p, -, rfl⟩ := Option.map_eq_some_iff.1 hname
  rfl

@[simp] theorem toldPlace_changes (name : String)
    (changes : List ResourceChange) :
    toldPlace name (changes.map ResourceChange.toChange) = [] := by
  refine List.filterMap_eq_nil_iff.2 fun c hc => ?_
  obtain ⟨c, -, rfl⟩ := List.mem_map.1 hc
  cases c <;> rfl

/-- Only its removal tells that a resource is gone. -/
theorem eq_of_ofResource?_none {c : Change}
    (h : c.ofResource? id = some none) : c = .resourceRemoved id := by
  cases c with
  | resource r =>
    have hif : (if r.id = id then some (some r) else none) = some none := h
    split at hif <;> cases hif
  | resourceRemoved i =>
    have hif : (if i = id then some none else none)
      = some (none : Option Resource) := h
    split at hif
    · next hi => rw [hi]
    · cases hif
  | place | placeDeleted | reservation => cases h

/-- Only its deletion tells that a place is gone. -/
theorem eq_of_ofPlace?_none {c : Change}
    (h : c.ofPlace? name = some none) : c = .placeDeleted name := by
  cases c with
  | place v =>
    have hif : (if v.place.name = name then some (some v.place) else none)
      = some none := h
    split at hif <;> cases hif
  | placeDeleted n =>
    have hif : (if n = name then some none else none)
      = some (none : Option Place) := h
    split at hif
    · next hn => rw [hn]
    · cases hif
  | resource | resourceRemoved | reservation => cases h

theorem ofResource?_toChange (c : ResourceChange) :
    c.toChange.ofResource? id
      = if c.id = id then some c.resource? else none := by
  cases c <;> rfl

/-- Changes of other resources tell nothing of this one. -/
theorem toldResource_of_notMem {changes : List ResourceChange}
    (h : id ∉ changes.map (·.id)) :
    toldResource id (changes.map ResourceChange.toChange) = [] := by
  refine List.filterMap_eq_nil_iff.2 fun c hc => ?_
  obtain ⟨c, hmem, rfl⟩ := List.mem_map.1 hc
  rw [ofResource?_toChange,
    if_neg fun hid => h (List.mem_map.2 ⟨c, hmem, hid⟩)]

/-- One change for each resource says what became of it. -/
theorem toldResource_of_mem {changes : List ResourceChange}
    (hnd : (changes.map (·.id)).Nodup) {c : ResourceChange}
    (hc : c ∈ changes) :
    toldResource c.id (changes.map ResourceChange.toChange)
      = [c.resource?] := by
  obtain ⟨front, rest, rfl⟩ := List.append_of_mem hc
  rw [List.map_append, List.map_cons, List.nodup_append,
    List.nodup_cons] at hnd
  obtain ⟨-, ⟨hrest, -⟩, hfront⟩ := hnd
  have hnot : c.id ∉ front.map (·.id) := fun hin =>
    hfront c.id hin c.id List.mem_cons_self rfl
  rw [List.map_append, List.map_cons, toldResource_append,
    toldResource_of_notMem hnot, List.nil_append]
  unfold toldResource at *
  rw [List.filterMap_cons, ofResource?_toChange, if_pos rfl]
  exact congrArg _ (toldResource_of_notMem hrest)

/-- The view of a place tells of this place. -/
theorem toldPlace_view (name : String) (p : Place) (inv : Inventory) :
    toldPlace name [.place (p.view inv)]
      = if p.name = name then [some p] else [] := by
  have hof : (Change.place (p.view inv)).ofPlace? name
      = if p.name = name then some (some p) else none := rfl
  unfold toldPlace
  rw [List.filterMap_cons, List.filterMap_nil, hof]
  by_cases hname : p.name = name
  · rw [if_pos hname, if_pos hname]
  · rw [if_neg hname, if_neg hname]

/-- Places are shown as they are stored. -/
theorem eq_of_mem_toldPlace_shown {ps : Places} (hf : ps.Filed)
    {inv : Inventory} {names : List String} {x : Option Place}
    (hx : x ∈ toldPlace name (Coordinator.State.shown ps inv names)) :
    x = ps.entries.get? name := by
  obtain ⟨c, hc, hof⟩ := List.mem_filterMap.1 hx
  obtain ⟨n, -, hn⟩ := List.mem_filterMap.1 hc
  obtain ⟨p, hp, rfl⟩ := Option.map_eq_some_iff.1 hn
  have hshow : (if p.name = name then some (some p) else none) = some x :=
    hof
  split at hshow
  · next hname =>
    rw [← Option.some.inj hshow, ← hname, hf n p hp, hp]
  · cases hshow

end Told

-- ============================================================== resources

namespace Trail

variable {inv inv' : Inventory}

/-- Setting a flag makes a new version, if it makes any difference. -/
theorem flip (hf : inv.Filed) (k : ResourceId) (b : Bool)
    (id : ResourceId) :
    Trail Resource.Precedes (inv.get? id)
      (toldResource id
        ((inv.setAcquired k b).2.toList.map ResourceChange.toChange))
      ((inv.flag [k] b).get? id) := by
  cases hset : (inv.setAcquired k b).2 with
  | none =>
    rw [Inventory.flag_of_setAcquired_snd_eq_none hset]
    exact .nil
  | some c =>
    obtain ⟨r, hr, hflag, rfl⟩ := Inventory.setAcquired_snd_eq_some hset
    have hid : (ResourceChange.upserted (r.flagged b)).id = k :=
      (Resource.flagged_id r b).trans (hf.id_eq hr)
    by_cases hk : k = id
    · subst hk
      have hnd : ([ResourceChange.upserted (r.flagged b)].map
          (·.id)).Nodup := List.pairwise_singleton _ _
      have htold := toldResource_of_mem hnd List.mem_cons_self
      rw [hid] at htold
      rw [show toldResource k (List.map _ (some _).toList) = _ from htold,
        Inventory.get?_flag, hr, Option.map_some,
        if_pos List.mem_cons_self]
      refine .single fun x hx y hy => ?_
      cases hx
      cases hy
      have hne : r.acquired ≠ b := by
        rw [hflag]
        cases b <;> decide
      unfold Resource.Precedes Resource.flagged
      rw [if_neg hne]
      exact Nat.lt_succ_self _
    · have hnot : id ∉ [k] := by simpa using Ne.symm hk
      rw [Inventory.get?_flag_of_notMem hnot, toldResource_of_notMem]
      · exact .nil
      · show id ∉ [(ResourceChange.upserted (r.flagged b)).id]
        rw [hid]
        exact hnot

theorem flips (hf : inv.Filed) (ids : List ResourceId) (b : Bool)
    (id : ResourceId) :
    Trail Resource.Precedes (inv.get? id)
      (toldResource id ((Coordinator.State.flips b inv ids).map
        ResourceChange.toChange))
      ((inv.flag ids b).get? id) := by
  induction ids generalizing inv with
  | nil =>
    rw [Inventory.flag_nil]
    exact .nil
  | cons k ids ih =>
    unfold Coordinator.State.flips
    rw [List.map_append, toldResource_append,
      show k :: ids = [k] ++ ids from rfl, Inventory.flag_append]
    exact (flip hf k b id).append (ih (hf.flag [k] b))

/-- A restocking: what is known gets a new version, and it may get
another one because it is bound. -/
theorem restock {exporter : String} {owner : SessionId}
    {changes : List ResourceChange}
    (hr : inv.Restock exporter owner inv' changes) (ps : Places)
    (id : ResourceId) :
    Trail Resource.Precedes (inv.get? id)
      (toldResource id ((changes.map (Coordinator.State.settled ps)).map
        ResourceChange.toChange))
      ((inv'.flag ((changes.map ResourceChange.id).filter ps.isBound)
        true).get? id) := by
  have hids := Coordinator.State.map_settled_id ps changes
  by_cases hid : id ∈ changes.map (·.id)
  · obtain ⟨c, hc, rfl⟩ := List.mem_map.1 hid
    have hmem := List.mem_map_of_mem (f := Coordinator.State.settled ps) hc
    have hcur := Coordinator.State.settled_current hr.current _ hmem
    have htold := toldResource_of_mem (hids ▸ hr.nodup) hmem
    unfold ResourceChange.Current at hcur
    rw [Coordinator.State.settled_id] at hcur htold
    rw [htold, hcur]
    refine .single fun x hx y hy => ?_
    cases c with
    | removed k => cases hy
    | upserted r =>
      obtain ⟨e, he, rfl⟩ := Inventory.get?_eq_some.1 hx
      have hnewer : e.resource.version < r.version := hr.newer r hc e he
      cases hy
      unfold Resource.Precedes
      split
      · exact Nat.lt_of_lt_of_le hnewer (Resource.le_version_flagged r true)
      · exact hnewer
  · have hnot : id ∉ (changes.map ResourceChange.id).filter ps.isBound :=
      fun hin => hid (List.mem_of_mem_filter hin)
    rw [toldResource_of_notMem (hids ▸ hid),
      Inventory.get?_flag_of_notMem hnot, hr.get?_same hid]
    exact .nil

-- ================================================================ places

/-- A place that is stored anew is shown so. -/
theorem put {ps : Places} {n : String} {p : Place} (hname : p.name = n)
    (h : ∀ x ∈ ps.entries.get? n, x.Precedes p) (inv : Inventory)
    (name : String) :
    Trail Place.Precedes (ps.entries.get? name)
      (toldPlace name [.place (p.view inv)])
      ((ps.entries.insert n p).get? name) := by
  rw [toldPlace_view, Table.get?_insert, hname]
  by_cases hn : n = name
  · subst hn
    rw [if_pos rfl, if_pos rfl]
    refine .single fun x hx y hy => ?_
    cases hy
    exact h x hx
  · rw [if_neg hn, if_neg hn]
    exact .nil

end Trail

end LabLease
