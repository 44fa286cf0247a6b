/-
The leasing invariant of inventory and places: who holds what, and that
the flags of the resources say so.

# The two halves

- `Exclusive` is about the places alone: a free place lists nothing, a
  held one lists one resource for each of its patterns, and no resource
  is listed twice.
- `Flagged` ties the inventory to the places: a published resource has
  its flag iff a held place lists it.

Each lemma below is one whole step of the coordinator on both registries
(`create`, `revise`, `erase`, `free`, `occupy`, `restock`), because the
halves agree again only at the end of such a step: a place is freed
before the flags of its resources are lowered, and a resource that a held
place still lists comes back from its exporter without a flag.
-/
import LabLease.Proofs.Registry.Binding
import LabLease.Proofs.Registry.Places

namespace LabLease

/-- No resource is listed twice, and what a place lists answers its
patterns. -/
structure Places.Exclusive (ps : Places) : Prop where
  idle : ∀ n p, ps.entries.get? n = some p → p.holder = none →
    p.bound = []
  fitted : ∀ n p, ps.entries.get? n = some p → p.holder ≠ none →
    List.Forall₂ (fun q id => ResourcePattern.selects q id = true)
      p.patterns p.bound
  nodup : ∀ n p, ps.entries.get? n = some p → p.bound.Nodup
  apart : ∀ n m p q, n ≠ m → ps.entries.get? n = some p →
    ps.entries.get? m = some q → ∀ id ∈ p.bound, id ∉ q.bound

/-- A published resource has its flag iff a held place lists it. -/
def Inventory.Flagged (inv : Inventory) (ps : Places) : Prop :=
  ∀ id r, inv.get? id = some r → (r.acquired = true ↔ ps.isBound id = true)

/-- The leasing invariant. -/
structure Leased (inv : Inventory) (ps : Places) : Prop where
  exclusive : ps.Exclusive
  flagged : inv.Flagged ps

namespace Places

variable {ps : Places} {name : String} {p q : Place}

-- ===================================================== who lists a resource

/-- What an exclusive place lists, it lists for a holder. -/
theorem Exclusive.isBound_of_mem (h : ps.Exclusive) {id : ResourceId}
    (hp : ps.entries.get? name = some p) (hid : id ∈ p.bound) :
    ps.isBound id = true := by
  refine isBound_iff.2 ⟨name, p, hp, ?_, hid⟩
  cases hh : p.holder with
  | some held => simp [Place.isAcquired, hh]
  | none =>
    rw [h.idle name p hp hh] at hid
    cases hid

theorem isBound_insert {id : ResourceId} :
    isBound ⟨ps.entries.insert name q⟩ id = true ↔
      (q.isAcquired = true ∧ id ∈ q.bound)
        ∨ ∃ n p, n ≠ name ∧ ps.entries.get? n = some p
            ∧ p.isAcquired = true ∧ id ∈ p.bound := by
  rw [isBound_iff]
  constructor
  · intro hex
    obtain ⟨n, p, hp, hacq, hid⟩ := hex
    rw [Table.get?_insert] at hp
    split at hp
    · cases hp
      exact Or.inl ⟨hacq, hid⟩
    · next hn => exact Or.inr ⟨n, p, Ne.symm hn, hp, hacq, hid⟩
  · intro hor
    rcases hor with ⟨hacq, hid⟩ | ⟨n, p, hn, hp, hacq, hid⟩
    · exact ⟨name, q, by simp, hacq, hid⟩
    · exact ⟨n, p, by rw [Table.get?_insert, if_neg (Ne.symm hn), hp],
        hacq, hid⟩

/-- A place that is put in where it lists what was listed there makes no
difference. -/
theorem isBound_insert_of_iff {id : ResourceId}
    (h : (q.isAcquired = true ∧ id ∈ q.bound) ↔
      ∃ p, ps.entries.get? name = some p ∧ p.isAcquired = true
        ∧ id ∈ p.bound) :
    isBound ⟨ps.entries.insert name q⟩ id = ps.isBound id := by
  rw [Bool.eq_iff_iff, isBound_insert, h, isBound_iff]
  constructor
  · intro hor
    rcases hor with ⟨p, hp, hacq, hid⟩ | ⟨n, p, -, hp, hacq, hid⟩
    · exact ⟨name, p, hp, hacq, hid⟩
    · exact ⟨n, p, hp, hacq, hid⟩
  · intro hex
    obtain ⟨n, p, hp, hacq, hid⟩ := hex
    by_cases hn : n = name
    · exact Or.inl ⟨p, hn ▸ hp, hacq, hid⟩
    · exact Or.inr ⟨n, p, hn, hp, hacq, hid⟩

theorem isBound_insert_of_same {id : ResourceId}
    (hp : ps.entries.get? name = some p) (hholder : q.holder = p.holder)
    (hbound : q.bound = p.bound) :
    isBound ⟨ps.entries.insert name q⟩ id = ps.isBound id := by
  have hacq : q.isAcquired = p.isAcquired := by
    unfold Place.isAcquired
    rw [hholder]
  refine isBound_insert_of_iff ?_
  rw [hp, hacq, hbound]
  simp

theorem isBound_insert_of_notMem {id : ResourceId} (hq : id ∉ q.bound)
    (hold : ∀ p, ps.entries.get? name = some p → id ∉ p.bound) :
    isBound ⟨ps.entries.insert name q⟩ id = ps.isBound id := by
  refine isBound_insert_of_iff (iff_of_false (fun hl => hq hl.2) ?_)
  intro hex
  obtain ⟨p, hp, -, hid⟩ := hex
  exact hold p hp hid

-- ======================================================== exclusive places

/-- Whether a place may stand among others: it lists nothing while it is
free, what answers its patterns while it is held, and nothing twice. -/
structure Sober (q : Place) : Prop where
  idle : q.holder = none → q.bound = []
  fitted : q.holder ≠ none →
    List.Forall₂ (fun p id => ResourcePattern.selects p id = true)
      q.patterns q.bound
  nodup : q.bound.Nodup

theorem Exclusive.sober (h : ps.Exclusive)
    (hp : ps.entries.get? name = some p) : Sober p :=
  ⟨h.idle name p hp, h.fitted name p hp, h.nodup name p hp⟩

/-- A free place that lists nothing. -/
theorem sober_of_free (hh : q.holder = none) (hb : q.bound = []) :
    Sober q := by
  refine ⟨fun _ => hb, fun hne => absurd hh hne, ?_⟩
  rw [hb]
  exact .nil

theorem Sober.revises (h : Sober p) (hr : q.Revises p) : Sober q := by
  refine ⟨?_, ?_, ?_⟩
  · intro hh
    rw [hr.bound]
    exact h.idle (hr.holder ▸ hh)
  · intro hh
    rw [hr.holder] at hh
    rw [hr.bound, hr.patterns hh]
    exact h.fitted hh
  · rw [hr.bound]
    exact h.nodup

theorem Exclusive.insert (h : ps.Exclusive) (hq : Sober q)
    (hapart : ∀ n p, n ≠ name → ps.entries.get? n = some p →
      ∀ id ∈ q.bound, id ∉ p.bound) :
    Exclusive ⟨ps.entries.insert name q⟩ := by
  have hsober : ∀ n p, (ps.entries.insert name q).get? n = some p →
      Sober p := by
    intro n p hp
    rw [Table.get?_insert] at hp
    split at hp
    · cases hp
      exact hq
    · exact h.sober hp
  refine ⟨fun n p hp => (hsober n p hp).idle,
    fun n p hp => (hsober n p hp).fitted,
    fun n p hp => (hsober n p hp).nodup, ?_⟩
  intro n m a b hnm ha hb id hid hid'
  rw [Table.get?_insert] at ha hb
  split at ha
  · next hn =>
    cases ha
    rw [if_neg (by rw [hn]; exact hnm)] at hb
    exact hapart m b (by rw [hn]; exact Ne.symm hnm) hb id hid hid'
  · next hn =>
    split at hb
    · cases hb
      exact hapart n a (Ne.symm hn) ha id hid' hid
    · exact h.apart n m a b hnm ha hb id hid hid'

theorem Exclusive.erase (h : ps.Exclusive) (name : String) :
    Exclusive ⟨ps.entries.erase name⟩ := by
  have hold : ∀ n p, (ps.entries.erase name).get? n = some p →
      ps.entries.get? n = some p := by
    intro n p hp
    rw [Table.get?_erase] at hp
    split at hp
    · cases hp
    · exact hp
  exact ⟨fun n p hp => h.idle n p (hold n p hp),
    fun n p hp => h.fitted n p (hold n p hp),
    fun n p hp => h.nodup n p (hold n p hp),
    fun n m p q hnm hp hq =>
      h.apart n m p q hnm (hold n p hp) (hold m q hq)⟩

end Places

-- ======================================================== whole steps

namespace Leased

open Places

variable {inv inv' : Inventory} {ps : Places} {name : String}
  {p q : Place}

theorem empty : Leased .empty .empty := by
  refine ⟨⟨?_, ?_, ?_, ?_⟩, ?_⟩
  · intro n p hp
    cases hp
  · intro n p hp
    cases hp
  · intro n p hp
    cases hp
  · intro n m p q _ hp
    cases hp
  · intro id r hr
    cases hr

/-- A new place is free. -/
theorem create (h : Leased inv ps) (hnew : ps.entries.get? name = none)
    (hh : q.holder = none) (hb : q.bound = []) :
    Leased inv ⟨ps.entries.insert name q⟩ := by
  refine ⟨h.exclusive.insert (sober_of_free hh hb) ?_, ?_⟩
  · intro n p _ _ id hid
    rw [hb] at hid
    cases hid
  · intro id r hr
    have hnone : id ∉ q.bound := by
      rw [hb]
      exact List.not_mem_nil
    rw [h.flagged id r hr, isBound_insert_of_notMem hnone]
    intro p hp
    rw [hnew] at hp
    cases hp

/-- A revision keeps the lease. -/
theorem revise (h : Leased inv ps)
    (hp : ps.entries.get? name = some p) (hr : q.Revises p) :
    Leased inv ⟨ps.entries.insert name q⟩ := by
  refine ⟨h.exclusive.insert ((h.exclusive.sober hp).revises hr) ?_, ?_⟩
  · intro n p' hn hp' id hid
    rw [hr.bound] at hid
    exact h.exclusive.apart name n p p' (Ne.symm hn) hp hp' id hid
  · intro id r hr'
    rw [isBound_insert_of_same hp hr.holder hr.bound]
    exact h.flagged id r hr'

/-- Only a free place is deleted. -/
theorem erase (h : Leased inv ps)
    (hp : ps.entries.get? name = some p) (hh : p.holder = none) :
    Leased inv ⟨ps.entries.erase name⟩ := by
  refine ⟨h.exclusive.erase name, ?_⟩
  intro id r hr
  rw [h.flagged id r hr, isBound_iff, isBound_iff]
  constructor
  · intro hex
    obtain ⟨n, p', hp', hacq, hid⟩ := hex
    refine ⟨n, p', ?_, hacq, hid⟩
    rw [Table.get?_erase, if_neg, hp']
    intro heq
    subst heq
    rw [hp] at hp'
    cases hp'
    simp [Place.isAcquired, hh] at hacq
  · intro hex
    obtain ⟨n, p', hp', hacq, hid⟩ := hex
    rw [Table.get?_erase] at hp'
    split at hp'
    · cases hp'
    · exact ⟨n, p', hp', hacq, hid⟩

/-- A place is freed and the flags of what it listed are lowered. -/
theorem free (h : Leased inv ps)
    (hp : ps.entries.get? name = some p) (hh : q.holder = none)
    (hb : q.bound = []) :
    Leased (inv.flag p.bound false) ⟨ps.entries.insert name q⟩ := by
  refine ⟨h.exclusive.insert (sober_of_free hh hb) ?_, ?_⟩
  · intro n p _ _ id hid
    rw [hb] at hid
    cases hid
  · intro id r hr
    have hnone : id ∉ q.bound := by
      rw [hb]
      exact List.not_mem_nil
    rw [Inventory.get?_flag] at hr
    obtain ⟨r', hr', rfl⟩ := Option.map_eq_some_iff.1 hr
    by_cases hid : id ∈ p.bound
    · rw [if_pos hid, Resource.flagged_acquired, isBound_insert]
      refine iff_of_false Bool.false_ne_true ?_
      intro hor
      rcases hor with ⟨-, hq⟩ | ⟨n, p', hn, hp', -, hid'⟩
      · exact hnone hq
      · exact h.exclusive.apart name n p p' (Ne.symm hn) hp hp' id hid hid'
    · rw [if_neg hid, h.flagged id r' hr', isBound_insert_of_notMem hnone]
      intro p' hp'
      rw [hp] at hp'
      cases hp'
      exact hid

/-- A free place is held and lists resources whose flags were down. That
they were down is what keeps two holders from one resource. -/
theorem occupy (h : Leased inv ps)
    (hp : ps.entries.get? name = some p) (hfree : p.holder = none)
    (hh : q.holder ≠ none) (hpat : q.patterns = p.patterns)
    (hfit : FirstFit p.patterns q.bound)
    (hids : ∀ id ∈ q.bound, ∃ r, inv.get? id = some r
      ∧ r.acquired = false) :
    Leased (inv.flag q.bound true) ⟨ps.entries.insert name q⟩ := by
  have hacq : q.isAcquired = true := by
    unfold Place.isAcquired
    exact Option.isSome_iff_ne_none.2 hh
  have hunbound : ∀ id ∈ q.bound, ps.isBound id = false := by
    intro id hid
    obtain ⟨r, hr, hdown⟩ := hids id hid
    rw [← Bool.not_eq_true, ← h.flagged id r hr, hdown]
    exact Bool.false_ne_true
  refine ⟨h.exclusive.insert ?_ ?_, ?_⟩
  · refine ⟨fun hn => absurd hn hh, fun _ => ?_, hfit.nodup⟩
    rw [hpat]
    exact hfit.forall₂
  · intro n p' _ hp' id hid hid'
    have := h.exclusive.isBound_of_mem hp' hid'
    rw [hunbound id hid] at this
    cases this
  · intro id r hr
    rw [Inventory.get?_flag] at hr
    obtain ⟨r', hr', rfl⟩ := Option.map_eq_some_iff.1 hr
    by_cases hid : id ∈ q.bound
    · rw [if_pos hid, Resource.flagged_acquired, isBound_insert]
      exact iff_of_true rfl (Or.inl ⟨hacq, hid⟩)
    · rw [if_neg hid, h.flagged id r' hr', isBound_insert_of_notMem hid]
      intro p' hp'
      rw [hp] at hp'
      cases hp'
      rw [h.exclusive.idle name p hp hfree]
      exact List.not_mem_nil

/-- A restocking, after which what is listed has its flag raised again.
Nothing else could be wrong: a known resource has kept its flag. -/
theorem restock (h : Leased inv ps) {exporter : String}
    {owner : SessionId} {changes : List ResourceChange}
    (hr : inv.Restock exporter owner inv' changes) :
    Leased (inv'.flag ((changes.map (·.id)).filter ps.isBound) true)
      ps := by
  refine ⟨h.exclusive, ?_⟩
  intro id r hget
  rw [Inventory.get?_flag] at hget
  obtain ⟨r', hr', rfl⟩ := Option.map_eq_some_iff.1 hget
  obtain ⟨e, he, rfl⟩ := Inventory.get?_eq_some.1 hr'
  by_cases hid : id ∈ changes.map (·.id)
  · obtain ⟨c, hc, hcid⟩ := List.mem_map.1 hid
    cases c with
    | removed k =>
      have hk : k = id := hcid
      subst hk
      rw [(hr.removed k hc).1] at he
      cases he
    | upserted r₀ =>
      have hk : r₀.id = id := hcid
      subst hk
      rw [(hr.upserted r₀ hc).2] at he
      cases he
      by_cases hb : ps.isBound r₀.id = true
      · rw [if_pos (List.mem_filter.2 ⟨hid, hb⟩), Resource.flagged_acquired]
        exact iff_of_true rfl hb
      · rw [if_neg fun hn => hb (List.mem_filter.1 hn).2]
        refine iff_of_false (fun hup => hb ?_) hb
        -- a raised flag is an old one
        cases hold : inv.entries.get? r₀.id with
        | none =>
          rw [hr.new r₀ hc hold] at hup
          cases hup
        | some e₀ =>
          rw [← h.flagged r₀.id e₀.resource
            (Inventory.get?_eq_some.2 ⟨e₀, hold, rfl⟩)]
          exact (hr.known r₀ hc e₀ hold).2.trans hup
  · rw [if_neg fun hn => hid (List.mem_filter.1 hn).1]
    rw [hr.same id hid] at he
    exact h.flagged id e.resource (Inventory.get?_eq_some.2 ⟨e, he, rfl⟩)

end Leased

end LabLease
