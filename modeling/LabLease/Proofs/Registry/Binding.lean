/-
Binding: what it does, said without its loop, and why having a binding set
aside is enough to get it again.

# What it does

Each pattern picks the smallest identity that it selects out of what is
spare, and what it picks is spare no more (`Picks`, `Greedy`). Binding
gets through iff all patterns have a pick, and then these are what it
binds (`bind_eq_ok_iff`); it fails iff one comes to find everything taken
(`bind_eq_error_iff`). Whatever else is said of binding is said of the
picks, and does not look at the loop again.

# First fit

`FirstFit patterns ids` says that the identities answer the patterns one
by one and that each pattern got the smallest of what was left for it and
the patterns after it. It speaks of the identities alone, of no inventory
and no availability, so it stays true of an allocation whatever happens
to everything else. `bind_firstFit` establishes it.

# The exchange argument

`bind_of_firstFit`: as long as the identities are available, binding the
same patterns succeeds over *any* inventory that has them, however much
else is available. The greedy choice may well differ: a pattern takes a
smaller resource that was not there before. But it never takes what a
later pattern needs. Pattern by pattern, what the first fit gave to the
later patterns is untouched: the choice is at most the pattern's own
identity, and an identity further down that the pattern selects is
greater than that (`FirstFit`'s second clause).
-/
import LabLease.Proofs.Registry.Inventory
import LabLease.Registry.Inventory
import Mathlib.Data.List.Forall2

namespace LabLease

namespace ResourceId

variable {a b : ResourceId}

theorem eq_or_lt_of_ne_gt (h : compare a b ≠ .gt) :
    a = b ∨ compare a b = .lt := by
  cases hcmp : compare a b with
  | lt => exact Or.inr rfl
  | eq => exact Or.inl (Std.LawfulEqCmp.eq_of_compare hcmp)
  | gt => exact absurd hcmp h

theorem eq_of_ne_gt (h : compare a b ≠ .gt) (h' : compare b a ≠ .gt) :
    a = b :=
  (eq_or_lt_of_ne_gt h).resolve_right fun hlt =>
    h' (Std.OrientedCmp.gt_iff_lt.2 hlt)

end ResourceId

/-- One identity for each pattern, each the smallest that its pattern
selects among itself and those after it. -/
inductive FirstFit : List ResourcePattern → List ResourceId → Prop
  | nil : FirstFit [] []
  | cons {p : ResourcePattern} {ps : List ResourcePattern}
      {id : ResourceId} {ids : List ResourceId}
      (selected : p.selects id = true)
      (least : ∀ other ∈ ids, p.selects other = true →
        compare id other = .lt)
      (rest : FirstFit ps ids) : FirstFit (p :: ps) (id :: ids)

namespace FirstFit

variable {ps : List ResourcePattern} {ids : List ResourceId}

/-- The identities answer the patterns one by one. -/
theorem forall₂ (h : FirstFit ps ids) :
    List.Forall₂ (fun p id => ResourcePattern.selects p id = true)
      ps ids := by
  induction h with
  | nil => exact .nil
  | cons selected _ _ ih => exact .cons selected ih

/-- No identity answers two patterns. -/
theorem nodup (h : FirstFit ps ids) : ids.Nodup := by
  induction h with
  | nil => exact .nil
  | cons selected least _ ih =>
    refine List.nodup_cons.2 ⟨fun hmem => ?_, ih⟩
    have hlt := least _ hmem selected
    simp [Std.ReflCmp.compare_self] at hlt

end FirstFit

namespace Inventory

-- ========================================================== greedy choice

/-- A resource is registered under the identity and available. -/
def Provides (inv : Inventory) (available : Resource → Bool)
    (id : ResourceId) : Prop :=
  ∃ r, inv.get? id = some r ∧ available r = true

/-- A resource is provided and not taken yet. -/
structure Spare (inv : Inventory) (available : Resource → Bool)
    (taken : List ResourceId) (id : ResourceId) : Prop where
  provided : inv.Provides available id
  untaken : id ∉ taken

/-- The greedy choice of one pattern: of the spare identities that it
selects, the smallest. -/
structure Picks (inv : Inventory) (available : Resource → Bool)
    (taken : List ResourceId) (p : ResourcePattern) (id : ResourceId) :
    Prop where
  selected : p.selects id = true
  spare : inv.Spare available taken id
  least : ∀ other, p.selects other = true →
    inv.Spare available taken other → compare id other ≠ .gt

/-- All that a pattern could have is taken. -/
def Exhausted (inv : Inventory) (available : Resource → Bool)
    (taken : List ResourceId) (p : ResourcePattern) : Prop :=
  ∀ id, p.selects id = true → inv.Provides available id → id ∈ taken

/-- The greedy choices of several patterns, each out of what those before
it have left. -/
inductive Greedy (inv : Inventory) (available : Resource → Bool) :
    List ResourceId → List ResourcePattern → List ResourceId → Prop
  | nil {taken : List ResourceId} : Greedy inv available taken [] []
  | cons {taken : List ResourceId} {p : ResourcePattern}
      {ps : List ResourcePattern} {id : ResourceId} {ids : List ResourceId}
      (picks : inv.Picks available taken p id)
      (rest : Greedy inv available (taken ++ [id]) ps ids) :
      Greedy inv available taken (p :: ps) (id :: ids)

variable {inv : Inventory} {available : Resource → Bool}
  {taken : List ResourceId} {p : ResourcePattern}
  {ps : List ResourcePattern} {id : ResourceId} {ids : List ResourceId}

theorem spare_concat {other : ResourceId} :
    inv.Spare available (taken ++ [id]) other
      ↔ inv.Spare available taken other ∧ other ≠ id := by
  constructor
  · intro h
    have hnot := h.untaken
    rw [List.mem_append, List.mem_singleton, not_or] at hnot
    exact ⟨⟨h.provided, hnot.1⟩, hnot.2⟩
  · intro hand
    obtain ⟨h, hne⟩ := hand
    refine ⟨h.provided, ?_⟩
    rw [List.mem_append, List.mem_singleton, not_or]
    exact ⟨h.untaken, hne⟩

/-- A pattern picks one identity at most. -/
theorem Picks.unique {id' : ResourceId}
    (h : inv.Picks available taken p id)
    (h' : inv.Picks available taken p id') : id = id' :=
  ResourceId.eq_of_ne_gt (h.least id' h'.selected h'.spare)
    (h'.least id h.selected h.spare)

theorem Picks.not_exhausted (h : inv.Picks available taken p id) :
    ¬ inv.Exhausted available taken p := fun hex =>
  h.spare.untaken (hex id h.selected h.spare.provided)

-- ========================================================== one candidate

/-- What a pattern takes is its greedy choice. -/
theorem picks_of_candidate? (hf : inv.Filed) {r : Resource}
    (h : inv.candidate? available taken p = some r) :
    inv.Picks available taken p r.id := by
  unfold candidate? at h
  rw [List.find?_eq_some_iff_append] at h
  obtain ⟨htest, before, after, hall, hbefore⟩ := h
  simp only [Bool.and_eq_true, Bool.not_eq_true', List.contains_eq_mem,
    decide_eq_false_iff_not] at htest
  obtain ⟨⟨hsel, hav⟩, htaken⟩ := htest
  have hmem : r ∈ inv.all := by rw [hall]; simp
  refine ⟨hsel, ⟨⟨r, hf.mem_all.1 hmem, hav⟩, htaken⟩, ?_⟩
  intro other hsel' hspare
  obtain ⟨⟨r', hr', hav'⟩, htaken'⟩ := hspare
  have hid := hf.id_eq hr'
  subst hid
  have hmem' : r' ∈ before ++ r :: after := hall ▸ hf.mem_all.2 hr'
  have hsorted := hf.pairwise_all
  rw [hall, List.pairwise_append] at hsorted
  rcases List.mem_append.1 hmem' with hb | hc
  · -- everything before the choice fails the test
    have := hbefore r' hb
    simp [hsel', hav', htaken'] at this
  · rcases List.mem_cons.1 hc with rfl | hafter
    · simp [Std.ReflCmp.compare_self]
    · rw [(List.pairwise_cons.1 hsorted.2.1).1 r' hafter]
      simp

/-- A pattern goes without iff all that it could have is taken. -/
theorem candidate?_eq_none_iff (hf : inv.Filed) :
    inv.candidate? available taken p = none
      ↔ inv.Exhausted available taken p := by
  constructor
  · intro h id hsel hprov
    obtain ⟨r, hr, hav⟩ := hprov
    have hid := hf.id_eq hr
    subst hid
    unfold candidate? at h
    have htest := List.find?_eq_none.1 h r (hf.mem_all.2 hr)
    simpa [hsel, hav] using htest
  · intro hex
    rw [Option.eq_none_iff_forall_ne_some]
    intro r hr
    exact (picks_of_candidate? hf hr).not_exhausted hex

/-- Where something is spare for a pattern it has a greedy choice. -/
theorem exists_picks (hf : inv.Filed) (hsel : p.selects id = true)
    (hspare : inv.Spare available taken id) :
    ∃ c, inv.Picks available taken p c := by
  cases hc : inv.candidate? available taken p with
  | none =>
    have hex := (candidate?_eq_none_iff hf).1 hc
    exact absurd (hex id hsel hspare.provided) hspare.untaken
  | some r => exact ⟨r.id, picks_of_candidate? hf hc⟩

-- =========================================================== all patterns

/-- Binding gets through iff every pattern has its greedy choice, and
binds just these. -/
theorem bindFrom_eq_ok_iff (hf : inv.Filed) {out : List ResourceId} :
    inv.bindFrom available taken ps = .ok out
      ↔ ∃ ids, out = taken ++ ids ∧ inv.Greedy available taken ps ids := by
  induction ps generalizing taken with
  | nil =>
    constructor
    · intro h
      cases h
      exact ⟨[], (List.append_nil _).symm, .nil⟩
    · rintro ⟨ids, rfl, hgreedy⟩
      cases hgreedy
      rw [List.append_nil]
      rfl
  | cons p ps ih =>
    unfold bindFrom
    cases hc : inv.candidate? available taken p with
    | none =>
      constructor
      · intro h
        cases h
      · rintro ⟨ids, -, hgreedy⟩
        cases hgreedy with
        | cons picks _ =>
          exact absurd ((candidate?_eq_none_iff hf).1 hc)
            picks.not_exhausted
    | some r =>
      have hr := picks_of_candidate? hf hc
      dsimp only
      rw [ih]
      constructor
      · rintro ⟨ids, rfl, hgreedy⟩
        exact ⟨r.id :: ids, by simp, .cons hr hgreedy⟩
      · rintro ⟨ids, rfl, hgreedy⟩
        cases hgreedy with
        | cons picks rest =>
          cases picks.unique hr
          exact ⟨_, by simp, rest⟩

/-- Binding fails at the pattern before which all have their greedy
choice, and which finds that these have taken all that it could have. -/
theorem bindFrom_eq_error_iff (hf : inv.Filed) :
    inv.bindFrom available taken ps = .error p
      ↔ ∃ front back ids, ps = front ++ p :: back
        ∧ inv.Greedy available taken front ids
        ∧ inv.Exhausted available (taken ++ ids) p := by
  induction ps generalizing taken with
  | nil =>
    constructor
    · intro h
      cases h
    · rintro ⟨front, back, -, hps, -⟩
      simp at hps
  | cons q ps ih =>
    unfold bindFrom
    cases hc : inv.candidate? available taken q with
    | none =>
      have hq := (candidate?_eq_none_iff hf).1 hc
      constructor
      · intro h
        cases h
        exact ⟨[], ps, [], rfl, .nil, by rwa [List.append_nil]⟩
      · rintro ⟨front, back, ids, hps, hgreedy, -⟩
        cases hgreedy with
        | nil =>
          cases hps
          rfl
        | cons picks _ =>
          cases hps
          exact absurd hq picks.not_exhausted
    | some r =>
      have hr := picks_of_candidate? hf hc
      dsimp only
      rw [ih]
      constructor
      · rintro ⟨front, back, ids, rfl, hgreedy, hex⟩
        refine ⟨q :: front, back, r.id :: ids, rfl, .cons hr hgreedy, ?_⟩
        rwa [List.append_cons]
      · rintro ⟨front, back, ids, hps, hgreedy, hex⟩
        cases hgreedy with
        | nil =>
          cases hps
          rw [List.append_nil] at hex
          exact absurd hex hr.not_exhausted
        | cons picks rest =>
          cases hps
          cases picks.unique hr
          rw [List.append_cons] at hex
          exact ⟨_, back, _, rfl, rest, hex⟩

theorem bind_eq_ok_iff (hf : inv.Filed) :
    inv.bind available ps = .ok ids ↔ inv.Greedy available [] ps ids := by
  unfold bind
  rw [bindFrom_eq_ok_iff hf]
  simp

theorem bind_eq_error_iff (hf : inv.Filed) :
    inv.bind available ps = .error p
      ↔ ∃ front back ids, ps = front ++ p :: back
        ∧ inv.Greedy available [] front ids
        ∧ inv.Exhausted available ids p :=
  bindFrom_eq_error_iff hf

-- ============================================================== first fit

/-- Everything that is picked was spare at the start. -/
theorem Greedy.spare (h : inv.Greedy available taken ps ids) :
    ∀ id ∈ ids, inv.Spare available taken id := by
  induction h with
  | nil => simp
  | cons picks _ ih =>
    intro k hk
    rcases List.mem_cons.1 hk with rfl | hk
    · exact picks.spare
    · exact (spare_concat.1 (ih k hk)).1

/-- Greedy choices are a first fit. -/
theorem Greedy.firstFit (h : inv.Greedy available taken ps ids) :
    FirstFit ps ids := by
  induction h with
  | nil => exact .nil
  | cons picks rest ih =>
    refine .cons picks.selected ?_ ih
    -- what later patterns got could have been chosen here as well
    intro other hmem hsel
    obtain ⟨hspare, hne⟩ := spare_concat.1 (rest.spare other hmem)
    have hle := picks.least other hsel hspare
    exact (ResourceId.eq_or_lt_of_ne_gt hle).resolve_left (Ne.symm hne)

/-- What is bound is bound by first fit, out of what is available. -/
theorem bind_firstFit (hf : inv.Filed) {ps : List ResourcePattern}
    {ids : List ResourceId} (h : inv.bind available ps = .ok ids) :
    FirstFit ps ids
      ∧ ∀ id ∈ ids, ∃ r, inv.get? id = some r ∧ available r = true := by
  have hgreedy := (bind_eq_ok_iff hf).1 h
  exact ⟨hgreedy.firstFit, fun id hid => (hgreedy.spare id hid).provided⟩

/-- The exchange argument, with some identities taken already: none of
those is one that the first fit still needs, and none ever will be. -/
theorem exists_greedy_of_firstFit (hf : inv.Filed)
    (hfit : FirstFit ps ids)
    (hspare : ∀ id ∈ ids, inv.Spare available taken id) :
    ∃ out, inv.Greedy available taken ps out := by
  induction hfit generalizing taken with
  | nil => exact ⟨[], .nil⟩
  | @cons p ps id ids selected least rest ih =>
    have hid := hspare id List.mem_cons_self
    obtain ⟨c, hc⟩ := exists_picks hf selected hid
    have hle := hc.least id selected hid
    -- the choice is nothing that a later pattern needs
    have hnot : c ∉ ids := by
      intro hmem
      have hlt := least c hmem hc.selected
      exact hle (Std.OrientedCmp.gt_iff_lt.2 hlt)
    have hlater : ∀ k ∈ ids, inv.Spare available (taken ++ [c]) k := by
      intro k hk
      refine spare_concat.2 ⟨hspare k (List.mem_cons_of_mem _ hk), ?_⟩
      rintro rfl
      exact hnot hk
    obtain ⟨out, hout⟩ := ih hlater
    exact ⟨c :: out, .cons hc hout⟩

/-- What was a first fit once can be bound as long as it is available. -/
theorem bind_of_firstFit (hf : inv.Filed) {ps : List ResourcePattern}
    {ids : List ResourceId} (hfit : FirstFit ps ids)
    (hids : ∀ id ∈ ids, ∃ r, inv.get? id = some r ∧ available r = true) :
    ∃ out, inv.bind available ps = .ok out := by
  obtain ⟨out, hout⟩ := exists_greedy_of_firstFit hf hfit
    fun id hid => ⟨hids id hid, List.not_mem_nil⟩
  exact ⟨out, (bind_eq_ok_iff hf).2 hout⟩

end Inventory

end LabLease
