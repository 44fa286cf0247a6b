/-
What a rescan leaves: an entry that it has considered and not served
cannot be bound out of what is left in the end.

# Why the order does no harm

An entry is refused while entries of lower rank are still to come, and
these take resources but give none back. What is bound out of fewer
resources can be bound out of more (`Fits.mono`), so a refusal early in
the turn is a refusal at its end (`mem_serve_of_fits`).
-/
import LabLease.Proofs.Registry.Allotment

namespace LabLease

/-- Patterns can be bound out of free resources that are not taken. -/
def Inventory.Fits (inv : Inventory) (free : Resource → Bool)
    (taken : List ResourceId) (patterns : List ResourcePattern) : Prop :=
  ∃ ids, FirstFit patterns ids ∧ ∀ id ∈ ids, id ∉ taken
    ∧ ∃ r, inv.get? id = some r ∧ free r = true

namespace Inventory

variable {inv : Inventory} {free : Resource → Bool}
  {taken : List ResourceId} {patterns : List ResourcePattern}

theorem fits_iff (hf : inv.Filed) :
    inv.Fits free taken patterns ↔
      ∃ ids, inv.bind (fun r => free r && !taken.contains r.id) patterns
        = .ok ids := by
  constructor
  · intro hex
    obtain ⟨ids, hfit, hids⟩ := hex
    refine bind_of_firstFit hf hfit fun id hid => ?_
    obtain ⟨hnot, r, hr, hfree⟩ := hids id hid
    refine ⟨r, hr, ?_⟩
    rw [hf.id_eq hr, hfree]
    simpa using hnot
  · intro hex
    obtain ⟨ids, hbind⟩ := hex
    obtain ⟨hfit, hids⟩ := bind_firstFit hf hbind
    refine ⟨ids, hfit, fun id hid => ?_⟩
    obtain ⟨r, hr, hav⟩ := hids id hid
    rw [Bool.and_eq_true, hf.id_eq hr] at hav
    exact ⟨by simpa using hav.2, r, hr, hav.1⟩

theorem Fits.mono {inv' : Inventory} {free' : Resource → Bool}
    {taken' : List ResourceId} (h : inv.Fits free taken patterns)
    (hmore : ∀ id r, id ∉ taken → inv.get? id = some r → free r = true →
      id ∉ taken' ∧ ∃ r', inv'.get? id = some r' ∧ free' r' = true) :
    inv'.Fits free' taken' patterns := by
  obtain ⟨ids, hfit, hids⟩ := h
  refine ⟨ids, hfit, fun id hid => ?_⟩
  obtain ⟨hnot, r, hr, hfree⟩ := hids id hid
  exact hmore id r hnot hr hfree

end Inventory

namespace Queue

variable {q : Queue} {inv : Inventory} {free : Resource → Bool}
  {deadline : Nat} {taken : List ResourceId} {es : List QueueEntry}
  {i : String} {e : QueueEntry}

-- ============================================================= the serving

/-- What several entries have set aside. -/
def allocations (es : List QueueEntry) : List ResourceId :=
  es.flatMap (·.reservation.allocations)

/-- Whoever could be bound out of what is left in the end was served. -/
theorem mem_serve_of_fits (hf : inv.Filed) (he : e ∈ es)
    (hfit : inv.Fits free
      (taken ++ allocations (serve inv free deadline taken es))
      e.reservation.filters) :
    e.id ∈ (serve inv free deadline taken es).map (·.id) := by
  induction es generalizing taken with
  | nil => cases he
  | cons a rest ih =>
    unfold serve at hfit ⊢
    cases hb : inv.bind (fun r => free r && !taken.contains r.id)
        a.reservation.filters with
    | ok ids =>
      rw [hb] at hfit
      dsimp only at hfit ⊢
      rw [List.map_cons, List.mem_cons]
      rcases List.mem_cons.1 he with rfl | hrest
      · exact Or.inl rfl
      · refine Or.inr (ih hrest ?_)
        rw [List.append_assoc]
        exact hfit
    | error p =>
      rw [hb] at hfit
      refine ih ((List.mem_cons.1 he).resolve_left ?_) hfit
      intro heq
      subst heq
      have hnow : inv.Fits free taken e.reservation.filters :=
        hfit.mono fun _ r hnot hr hfree =>
          ⟨fun hin => hnot (List.mem_append_left _ hin), r, hr, hfree⟩
      obtain ⟨ids, hbind⟩ := (Inventory.fits_iff hf).1 hnow
      rw [hb] at hbind
      cases hbind

theorem serve_ids_sublist (inv : Inventory) (free : Resource → Bool)
    (deadline : Nat) (taken : List ResourceId) (es : List QueueEntry) :
    ((serve inv free deadline taken es).map (·.id)).Sublist
      (es.map (·.id)) := by
  induction es generalizing taken with
  | nil => exact .slnil
  | cons e rest ih =>
    unfold serve
    cases inv.bind (fun r => free r && !taken.contains r.id)
        e.reservation.filters with
    | ok ids => exact (ih _).cons_cons e.id
    | error p => exact (ih taken).cons e.id

theorem Filed.nodup_waiting (h : q.Filed) (skip : List String) :
    ((q.waiting skip).map (·.id)).Nodup := by
  unfold waiting
  refine ((List.mergeSort_perm _ _).map _).nodup_iff.2 ?_
  exact h.nodup_ids.sublist (List.filter_sublist.map _)

-- ============================================================ what is kept

/-- A rescan takes nothing from anybody, and what it sets aside is set
aside. -/
theorem taken_subset_rescan (hf : inv.Filed) (hq : q.Filed)
    {skip : List String} {now : Moment} :
    q.taken ++ allocations (q.served inv free skip now)
      ⊆ (q.rescan inv free skip now).2.taken := by
  intro id hid
  unfold taken
  rw [List.mem_flatMap]
  suffices hex : ∃ i e, (q.rescan inv free skip now).2.entries.get? i
      = some e ∧ e.reservation.state = .allocated
      ∧ id ∈ e.reservation.allocations by
    obtain ⟨i, e, he, hs, hin⟩ := hex
    refine ⟨e, List.mem_filter.2 ⟨mem_all.2 ⟨i, he⟩, ?_⟩, hin⟩
    exact QueueEntry.isAllocated_iff.2 hs
  rw [rescan_eq]
  rcases List.mem_append.1 hid with hid | hid
  · obtain ⟨e, he, hin⟩ := List.mem_flatMap.1 hid
    obtain ⟨hall, halloc⟩ := List.mem_filter.1 he
    have hs := QueueEntry.isAllocated_iff.1 halloc
    have hget := hq.mem_all.1 hall
    refine ⟨e.id, e, ?_, hs, hin⟩
    rw [get?_foldl_put_of_notMem, hget]
    -- whoever was served waited before, and this entry did not
    intro hserved
    obtain ⟨e', he', hid'⟩ := List.mem_map.1 hserved
    obtain ⟨e₀, ids, hall₀, hwait, -, rfl, -⟩ :=
      (served_of_mem hf he').origin
    have hget₀ := hq.mem_all.1 hall₀
    rw [show e₀.id = e.id from hid', hget] at hget₀
    cases hget₀
    rw [hs] at hwait
    cases hwait
  · obtain ⟨e, he, hin⟩ := List.mem_flatMap.1 hid
    have hnd := (hq.nodup_waiting skip).sublist
      (serve_ids_sublist inv free (now.ticks + q.gracePeriod) q.taken
        (q.waiting skip))
    refine ⟨e.id, e, get?_foldl_put_of_mem hnd he, ?_, hin⟩
    obtain ⟨_, _, -, -, -, rfl, -⟩ := (served_of_mem hf he).origin
    rfl

/-- What waits after a rescan waited before, and was skipped or cannot be
bound. -/
theorem rescan_unserved (hf : inv.Filed) (hq : q.Filed)
    {skip : List String} {now : Moment}
    (he : (q.rescan inv free skip now).2.entries.get? i = some e)
    (hw : e.reservation.state = .waiting)
    (hfit : inv.Fits free (q.rescan inv free skip now).2.taken
      e.reservation.filters) : e.id ∈ skip := by
  rcases get?_rescan he with ⟨hs, -⟩ | ⟨hnot, hget⟩
  · obtain ⟨_, _, -, -, -, rfl, -⟩ := (served_of_mem hf hs).origin
    cases hw
  · by_contra hskip
    have hmem : e ∈ q.waiting skip :=
      mem_waiting.2 ⟨mem_all.2 ⟨i, hget⟩, hw, hskip⟩
    have hleft : inv.Fits free
        (q.taken ++ allocations (q.served inv free skip now))
        e.reservation.filters :=
      hfit.mono fun _ r hn hr hfree =>
        ⟨fun hin => hn (taken_subset_rescan hf hq hin), r, hr, hfree⟩
    have hserved := mem_serve_of_fits hf hmem hleft
    rw [hq i e hget] at hserved
    exact hnot hserved

end Queue

end LabLease
