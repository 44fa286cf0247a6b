/-
The places: what each operation on them does when it is granted, and what
a view of a place depends on.

# Views

A view lists identities only (`Place.view`), so setting flags changes
none (`view_flag`), and a restocking changes those of the places that
select or have bound one of the identities it reports
(`view_eq_of_not_affected`). Emitting the affected views is therefore
enough.
-/
import LabLease.Proofs.Registry.Inventory
import LabLease.Registry.Places

namespace LabLease

/-- A later version of a place with the same lease: only a free place may
have got other patterns. -/
structure Place.Revises (p' p : Place) : Prop where
  name : p'.name = p.name
  holder : p'.holder = p.holder
  bound : p'.bound = p.bound
  patterns : p.holder ≠ none → p'.patterns = p.patterns
  version : p'.version = p.version + 1

namespace Places

/-- Every place is stored under its own name. -/
def Filed (ps : Places) : Prop :=
  ∀ name p, ps.entries.get? name = some p → p.name = name

variable {ps ps' : Places} {name : String} {p : Place}

-- ============================================================== queries

theorem get_eq_ok :
    ps.get name = .ok p ↔ ps.entries.get? name = some p := by
  unfold get
  cases ps.entries.get? name <;> simp

theorem mem_all : p ∈ ps.all ↔ ∃ n, ps.entries.get? n = some p :=
  Table.mem_values

theorem isBound_iff_mem_all {id : ResourceId} :
    ps.isBound id = true ↔
      ∃ p ∈ ps.all, p.isAcquired = true ∧ id ∈ p.bound := by
  unfold isBound
  simp only [List.any_eq_true, Bool.and_eq_true, List.contains_iff_mem]

theorem isBound_iff {id : ResourceId} :
    ps.isBound id = true ↔
      ∃ n p, ps.entries.get? n = some p ∧ p.isAcquired = true
        ∧ id ∈ p.bound := by
  rw [isBound_iff_mem_all]
  constructor
  · rintro ⟨p, hp, hbound⟩
    obtain ⟨n, hn⟩ := mem_all.1 hp
    exact ⟨n, p, hn, hbound⟩
  · rintro ⟨n, p, hn, hbound⟩
    exact ⟨p, mem_all.2 ⟨n, hn⟩, hbound⟩

theorem mem_heldBy {session : SessionId} :
    name ∈ ps.heldBy session ↔
      ∃ n p, ps.entries.get? n = some p ∧ p.isHeldBy session = true
        ∧ p.name = name := by
  unfold heldBy
  rw [List.mem_map]
  constructor
  · intro hex
    obtain ⟨p, hp, rfl⟩ := hex
    obtain ⟨hp, hheld⟩ := List.mem_filter.1 hp
    obtain ⟨n, hn⟩ := mem_all.1 hp
    exact ⟨n, p, hn, hheld, rfl⟩
  · intro hex
    obtain ⟨n, p, hn, hheld, rfl⟩ := hex
    exact ⟨p, List.mem_filter.2 ⟨mem_all.2 ⟨n, hn⟩, hheld⟩, rfl⟩

/-- What a session is listed to hold, it holds. -/
theorem Filed.session_of_heldBy (h : ps.Filed) {session : SessionId}
    {held : Holder} (hmem : name ∈ ps.heldBy session)
    (hp : ps.entries.get? name = some p) (hh : p.holder = some held) :
    held.session = session := by
  obtain ⟨n, q, hq, hheld, hname⟩ := mem_heldBy.1 hmem
  rw [h n q hq] at hname
  subst hname
  rw [hp] at hq
  cases hq
  obtain ⟨o, ho, hs⟩ := (Option.any_eq_true _ _).1 hheld
  rw [hh] at ho
  cases ho
  exact of_decide_eq_true hs

theorem mem_affectedBy {ids : List ResourceId} :
    name ∈ ps.affectedBy ids ↔
      ∃ n p, ps.entries.get? n = some p ∧ p.name = name
        ∧ ∃ id ∈ ids, p.selects id = true ∨ id ∈ p.bound := by
  unfold affectedBy
  rw [List.mem_map]
  constructor
  · intro hex
    obtain ⟨p, hp, rfl⟩ := hex
    obtain ⟨hp, ht⟩ := List.mem_filter.1 hp
    obtain ⟨n, hn⟩ := mem_all.1 hp
    obtain ⟨id, hid, ht⟩ := List.any_eq_true.1 ht
    refine ⟨n, p, hn, rfl, id, hid, ?_⟩
    simpa using ht
  · intro hex
    obtain ⟨n, p, hn, rfl, id, hid, ht⟩ := hex
    refine ⟨p, List.mem_filter.2 ⟨mem_all.2 ⟨n, hn⟩, ?_⟩, rfl⟩
    exact List.any_eq_true.2 ⟨id, hid, by simpa using ht⟩

theorem Filed.insert (h : ps.Filed) (hp : p.name = name) :
    Filed ⟨ps.entries.insert name p⟩ := by
  intro n q hq
  rw [Table.get?_insert] at hq
  split at hq
  · next hn =>
    cases hq
    rw [hp, hn]
  · exact h n q hq

theorem Filed.erase (h : ps.Filed) (name : String) :
    Filed ⟨ps.entries.erase name⟩ := by
  intro n q hq
  rw [Table.get?_erase] at hq
  split at hq
  · cases hq
  · exact h n q hq

/-- No name is used twice. -/
theorem Filed.nodup_names (h : ps.Filed) :
    (ps.all.map (·.name)).Nodup := by
  have hnames : ps.all.map (·.name) = ps.entries.keys := by
    unfold all Table.values Table.keys
    rw [List.map_map]
    refine List.map_congr_left fun e he => ?_
    exact h e.1 e.2 ((Table.get?_eq_some_iff _ _ _).2 he)
  rw [hnames]
  exact Table.nodup_keys _

-- ===================================================== granted operations

theorem getUnheld_eq_ok :
    ps.getUnheld name = .ok p ↔
      ps.entries.get? name = some p ∧ p.holder = none := by
  unfold getUnheld
  rw [← get_eq_ok]
  cases hg : ps.get name with
  | error e => simp [bind, Except.bind]
  | ok q =>
    cases hh : q.holder with
    | none =>
      simp only [bind, Except.bind, hh, pure, Except.pure]
      constructor
      · intro heq
        cases heq
        exact ⟨rfl, hh⟩
      · intro hand
        cases hand.1
        rfl
    | some h =>
      simp only [bind, Except.bind, hh, throw, throwThe,
        MonadExceptOf.throw]
      constructor
      · intro heq
        cases heq
      · intro hand
        obtain ⟨hq, hn⟩ := hand
        cases hq
        rw [hn] at hh
        cases hh

theorem create_ok {patterns : List ResourcePattern}
    {tags : Table String String} {date : Timestamp}
    (h : ps.create name patterns tags date = .ok (p, ps')) :
    ps.entries.get? name = none ∧ p = .new name patterns tags date
      ∧ ps' = ⟨ps.entries.insert name p⟩ := by
  unfold create at h
  split at h
  · cases h
  · split at h
    · cases h
    · next hc =>
      cases h
      refine ⟨?_, rfl, rfl⟩
      simpa [Table.contains] using hc

theorem delete_ok (h : ps.delete name = .ok ps') :
    ∃ p, ps.entries.get? name = some p ∧ p.holder = none
      ∧ ps' = ⟨ps.entries.erase name⟩ := by
  unfold delete at h
  cases hg : ps.getUnheld name with
  | error e => rw [hg] at h; cases h
  | ok p =>
    rw [hg] at h
    cases h
    obtain ⟨hp, hh⟩ := getUnheld_eq_ok.1 hg
    exact ⟨p, hp, hh, rfl⟩

/-- An acquisition: the place was free and gets one available resource
for each of its patterns, of which it has some. -/
theorem acquire_ok {holder : Holder} {inv : Inventory}
    {available : Resource → Bool} {date : Timestamp}
    {bound : List ResourceId}
    (h : ps.acquire name holder inv available date = .ok (bound, ps')) :
    ∃ p, ps.entries.get? name = some p ∧ p.holder = none
      ∧ p.patterns ≠ []
      ∧ inv.bind available p.patterns = .ok bound
      ∧ ps' = ⟨ps.entries.insert name
          ({ p with holder := some holder, bound }.touched date)⟩ := by
  unfold acquire at h
  cases hg : ps.get name with
  | error e => rw [hg] at h; cases h
  | ok p =>
    rw [hg] at h
    cases hh : p.holder with
    | some held => simp [bind, Except.bind, hh] at h
    | none =>
      simp only [bind, Except.bind, hh] at h
      split at h
      · cases h
      · next hne =>
        split at h
        · cases h
        · next ids hb =>
          cases h
          exact ⟨p, get_eq_ok.1 hg, hh, by simpa using hne, hb, rfl⟩

/-- A place is still there once it is acquired. -/
theorem get?_of_acquire {holder : Holder} {inv : Inventory}
    {available : Resource → Bool} {date : Timestamp}
    {bound : List ResourceId}
    (h : ps.acquire name holder inv available date = .ok (bound, ps')) :
    ∃ p, ps'.entries.get? name = some p ∧ p.holder = some holder := by
  obtain ⟨p, -, -, -, -, rfl⟩ := acquire_ok h
  exact ⟨_, (Table.get?_insert ..).trans (if_pos rfl), rfl⟩

/-- A release: someone held the place, and it gets free. -/
theorem release_ok {session : SessionId} {force : Bool} {date : Timestamp}
    {freed : List ResourceId}
    (h : ps.release name session force date = .ok (freed, ps')) :
    ∃ p held, ps.entries.get? name = some p ∧ p.holder = some held
      ∧ (held.session = session ∨ force = true) ∧ freed = p.bound
      ∧ ps' = ⟨ps.entries.insert name
          ({ p with holder := none, bound := [] }.touched date)⟩ := by
  unfold release at h
  cases hg : ps.get name with
  | error e => rw [hg] at h; cases h
  | ok p =>
    rw [hg] at h
    dsimp only [bind, Except.bind] at h
    split at h
    · cases h
    · next held hh =>
      split at h
      · cases h
      · next hforce =>
        cases h
        refine ⟨p, held, get_eq_ok.1 hg, hh, ?_, rfl, rfl⟩
        by_cases hs : held.session = session
        · exact Or.inl hs
        · refine Or.inr ?_
          cases force with
          | true => rfl
          | false => exact absurd ⟨hs, rfl⟩ hforce

/-- By force every held place is released. -/
theorem get?_of_release {session : SessionId} {force : Bool}
    {date : Timestamp} {freed : List ResourceId}
    (h : ps.release name session force date = .ok (freed, ps')) :
    ∃ p, ps'.entries.get? name = some p ∧ p.holder = none := by
  obtain ⟨p, held, -, -, -, -, rfl⟩ := release_ok h
  exact ⟨_, (Table.get?_insert ..).trans (if_pos rfl), rfl⟩

/-- Whoever holds a place may give it back. -/
theorem release_of_holder {held : Holder} (force : Bool) (date : Timestamp)
    (hp : ps.entries.get? name = some p) (hh : p.holder = some held) :
    ps.release name held.session force date
      = .ok (p.bound, ⟨ps.entries.insert name
          ({ p with holder := none, bound := [] }.touched date)⟩) := by
  unfold release
  rw [get_eq_ok.2 hp]
  simp [bind, Except.bind, hh, pure, Except.pure]

theorem release_of_held {held : Holder} (session : SessionId)
    (date : Timestamp) (hp : ps.entries.get? name = some p)
    (hh : p.holder = some held) :
    ps.release name session true date
      = .ok (p.bound, ⟨ps.entries.insert name
          ({ p with holder := none, bound := [] }.touched date)⟩) := by
  unfold release
  rw [get_eq_ok.2 hp]
  simp [bind, Except.bind, hh, pure, Except.pure]

theorem touched_revises {q : Place} (date : Timestamp)
    (hname : q.name = p.name) (hholder : q.holder = p.holder)
    (hbound : q.bound = p.bound) (hversion : q.version = p.version)
    (hpatterns : p.holder ≠ none → q.patterns = p.patterns) :
    (q.touched date).Revises p where
  name := hname
  holder := hholder
  bound := hbound
  patterns := hpatterns
  version := congrArg (· + 1) hversion

theorem addMatch_ok {pattern : ResourcePattern} {date : Timestamp}
    (h : ps.addMatch name pattern date = .ok ps') :
    ∃ p p', ps.entries.get? name = some p ∧ p'.Revises p
      ∧ ps' = ⟨ps.entries.insert name p'⟩ := by
  unfold addMatch at h
  cases hg : ps.getUnheld name with
  | error e => rw [hg] at h; cases h
  | ok p =>
    rw [hg] at h
    dsimp only [bind, Except.bind] at h
    split at h
    · cases h
    · cases h
      obtain ⟨hp, hh⟩ := getUnheld_eq_ok.1 hg
      refine ⟨p, _, hp, ?_, rfl⟩
      exact touched_revises date rfl rfl rfl rfl fun hne => absurd hh hne

theorem deleteMatch_ok {pattern : ResourcePattern} {date : Timestamp}
    (h : ps.deleteMatch name pattern date = .ok ps') :
    ∃ p p', ps.entries.get? name = some p ∧ p'.Revises p
      ∧ ps' = ⟨ps.entries.insert name p'⟩ := by
  unfold deleteMatch at h
  cases hg : ps.getUnheld name with
  | error e => rw [hg] at h; cases h
  | ok p =>
    rw [hg] at h
    dsimp only [bind, Except.bind] at h
    split at h
    · cases h
    · cases h
      obtain ⟨hp, hh⟩ := getUnheld_eq_ok.1 hg
      refine ⟨p, _, hp, ?_, rfl⟩
      exact touched_revises date rfl rfl rfl rfl fun hne => absurd hh hne

theorem setTags_ok {tags : Table String String} {date : Timestamp}
    (h : ps.setTags name tags date = .ok ps') :
    ∃ p p', ps.entries.get? name = some p ∧ p'.Revises p
      ∧ ps' = ⟨ps.entries.insert name p'⟩ := by
  unfold setTags at h
  cases hg : ps.get name with
  | error e => rw [hg] at h; cases h
  | ok p =>
    rw [hg] at h
    cases h
    refine ⟨p, _, get_eq_ok.1 hg, ?_, rfl⟩
    exact touched_revises date rfl rfl rfl rfl fun _ => rfl

theorem setComment_ok {comment : String} {date : Timestamp}
    (h : ps.setComment name comment date = .ok ps') :
    ∃ p p', ps.entries.get? name = some p ∧ p'.Revises p
      ∧ ps' = ⟨ps.entries.insert name p'⟩ := by
  unfold setComment at h
  cases hg : ps.get name with
  | error e => rw [hg] at h; cases h
  | ok p =>
    rw [hg] at h
    cases h
    refine ⟨p, _, get_eq_ok.1 hg, ?_, rfl⟩
    exact touched_revises date rfl rfl rfl rfl fun _ => rfl

end Places

-- ================================================================ views

namespace Place

variable {p : Place} {inv inv' : Inventory}

@[simp] theorem view_place (p : Place) (inv : Inventory) :
    (p.view inv).place = p := rfl

/-- The selected resources, as keys of the inventory. -/
theorem view_matched (p : Place) (hf : inv.Filed) :
    (p.view inv).matched
      = (inv.entries.filter fun id _ => p.selects id).keys := by
  have hkeys : (inv.entries.filter fun id _ => p.selects id).keys
      = inv.entries.keys.filter p.selects := by
    unfold Table.keys Table.filter
    rw [List.filter_map]
    rfl
  rw [hkeys, ← hf.map_id_all, List.filter_map]
  rfl

/-- A view depends on which of the identities that the place selects or
has bound are published, and on nothing else of the inventory. -/
theorem view_congr (p : Place) (hf : inv.Filed) (hf' : inv'.Filed)
    (h : ∀ id, p.selects id = true ∨ id ∈ p.bound →
      inv'.contains id = inv.contains id) :
    p.view inv' = p.view inv := by
  have hmatched : (p.view inv').matched = (p.view inv).matched := by
    rw [view_matched p hf, view_matched p hf']
    refine Table.keys_eq_of_contains fun id => ?_
    unfold Table.contains
    rw [Table.get?_filter, Table.get?_filter]
    by_cases hsel : p.selects id = true
    · have hid := h id (Or.inl hsel)
      unfold Inventory.contains Table.contains at hid
      rw [hsel]
      cases hv : inv.entries.get? id <;>
        cases hv' : inv'.entries.get? id <;> simp_all [Option.filter]
    · rw [Bool.not_eq_true] at hsel
      rw [hsel]
      cases inv.entries.get? id <;> cases inv'.entries.get? id <;>
        rfl
  have hmissing : (p.view inv').missing = (p.view inv).missing := by
    show p.bound.filter _ = p.bound.filter _
    refine List.filter_congr fun id hid => ?_
    rw [h id (Or.inr hid)]
  show PlaceView.mk p (p.view inv').matched (p.view inv').missing = _
  rw [hmatched, hmissing]
  rfl

/-- Flags do not show in a view. -/
theorem view_flag (p : Place) (hf : inv.Filed) (ids : List ResourceId)
    (b : Bool) : p.view (inv.flag ids b) = p.view inv :=
  view_congr p hf (hf.flag ids b) fun id _ => inv.contains_flag ids b id

end Place

/-- A restocking does not show in the view of a place that it does not
affect. -/
theorem Places.view_eq_of_not_affected {ps : Places} {name : String}
    {p : Place} {exporter : String} {owner : SessionId}
    {inv inv' : Inventory} {changes : List ResourceChange}
    (hfp : ps.Filed) (hf : inv.Filed)
    (h : inv.Restock exporter owner inv' changes)
    (hp : ps.entries.get? name = some p)
    (hnot : name ∉ ps.affectedBy (changes.map (·.id))) :
    p.view inv' = p.view inv := by
  refine Place.view_congr p hf (h.filed hf) fun id hid => ?_
  unfold Inventory.contains Table.contains
  rw [h.same]
  intro hmem
  exact hnot (Places.mem_affectedBy.2
    ⟨name, p, hp, hfp name p hp, id, hmem, hid⟩)

end LabLease
