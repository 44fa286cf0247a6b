/-
The allocation invariant of inventory and queue: what is set aside is
published, unacquired, and set aside once.

# Why the invariant reads no place and no roster

A resource is free for the queue when nobody has it and its exporter is
connected. The first half is the flag, which the leasing invariant ties
to the places; the second follows from being published at all, because a
session that ends takes its resources with it. So `backed` asks for a
published resource with its flag down and the rest is derived where it is
needed.

# Two ways to keep it

Every operation but a rescan leaves of an entry's allocations all or
nothing (`of_entries`). A rescan adds allocations, out of what was not
set aside before and never twice (`rescan`).
-/
import Mathlib.Data.List.Pairwise
import LabLease.Proofs.Registry.Queue

namespace LabLease

/-- The allocation invariant. -/
structure Allotted (inv : Inventory) (q : Queue) : Prop where
  sound : ∀ i e, q.entries.get? i = some e → e.Sound
  apart : ∀ i j e f, i ≠ j → q.entries.get? i = some e →
    q.entries.get? j = some f →
    ∀ id ∈ e.reservation.allocations, id ∉ f.reservation.allocations
  backed : ∀ i e, q.entries.get? i = some e →
    ∀ id ∈ e.reservation.allocations,
      ∃ r, inv.get? id = some r ∧ r.acquired = false

namespace Allotted

variable {inv inv' : Inventory} {q q' : Queue} {i : String}
  {e : QueueEntry}

theorem empty (grace poll : Nat) : Allotted .empty (.new grace poll) := by
  refine ⟨?_, ?_, ?_⟩
  · intro i e he
    cases he
  · intro i j e f _ he
    cases he
  · intro i e he
    cases he

/-- Only an allocated entry lists anything. -/
theorem allocated_of_mem (h : Allotted inv q) {id : ResourceId}
    (he : q.entries.get? i = some e)
    (hid : id ∈ e.reservation.allocations) :
    e.reservation.state = .allocated := by
  by_cases hs : e.reservation.state = .allocated
  · exact hs
  · rw [(h.sound i e he).idle hs] at hid
    cases hid

theorem mem_taken_iff (h : Allotted inv q) {id : ResourceId} :
    id ∈ q.taken ↔
      ∃ i e, q.entries.get? i = some e
        ∧ id ∈ e.reservation.allocations := by
  unfold Queue.taken
  rw [List.mem_flatMap]
  constructor
  · intro hex
    obtain ⟨e, he, hid⟩ := hex
    obtain ⟨i, hi⟩ := Queue.mem_all.1 (List.mem_filter.1 he).1
    exact ⟨i, e, hi, hid⟩
  · intro hex
    obtain ⟨i, e, he, hid⟩ := hex
    refine ⟨e, List.mem_filter.2 ⟨Queue.mem_all.2 ⟨i, he⟩, ?_⟩, hid⟩
    exact QueueEntry.isAllocated_iff.2 (h.allocated_of_mem he hid)

-- ================================================== all or nothing stays

/-- What an entry may become outside of a rescan: it is consistent, and
lists what the entry before it listed or nothing. -/
theorem of_entries (h : Allotted inv q)
    (hs : ∀ i e', q'.entries.get? i = some e' → e'.Sound
      ∧ (e'.reservation.allocations = []
        ∨ ∃ e, q.entries.get? i = some e
            ∧ e'.reservation.allocations = e.reservation.allocations)) :
    Allotted inv q' := by
  have hold : ∀ i e', q'.entries.get? i = some e' →
      ∀ id ∈ e'.reservation.allocations, ∃ e, q.entries.get? i = some e
        ∧ id ∈ e.reservation.allocations := by
    intro i e' he' id hid
    rcases (hs i e' he').2 with hnil | ⟨e, he, heq⟩
    · rw [hnil] at hid
      cases hid
    · exact ⟨e, he, heq ▸ hid⟩
  refine ⟨fun i e' he' => (hs i e' he').1, ?_, ?_⟩
  · intro i j a b hij ha hb id hid hid'
    obtain ⟨e, he, hide⟩ := hold i a ha id hid
    obtain ⟨f, hf, hidf⟩ := hold j b hb id hid'
    exact h.apart i j e f hij he hf id hide hidf
  · intro i e' he' id hid
    obtain ⟨e, he, hide⟩ := hold i e' he' id hid
    exact h.backed i e he id hide

/-- One entry is put in, consistent and with nothing that was not its
own. -/
theorem insert (h : Allotted inv q) {e' : QueueEntry} (hs : e'.Sound)
    (ha : e'.reservation.allocations = []
      ∨ ∃ e, q.entries.get? i = some e
          ∧ e'.reservation.allocations = e.reservation.allocations)
    (hq : ∀ j, q'.entries.get? j
      = if i = j then some e' else q.entries.get? j) :
    Allotted inv q' := by
  refine h.of_entries fun j f hf => ?_
  rw [hq] at hf
  split at hf
  · next hij =>
    cases hf
    exact ⟨hs, hij ▸ ha⟩
  · exact ⟨h.sound j f hf, Or.inr ⟨f, hf, rfl⟩⟩

theorem create (h : Allotted inv q) {owner : Holder}
    {filters : List ResourcePattern} {priority : Int} {now : Moment}
    {r : Reservation}
    (hc : q.create owner filters priority now = .ok (r, q')) :
    Allotted inv q' := by
  obtain ⟨hne, rfl, rfl⟩ := Queue.create_ok hc
  refine h.insert ?_ (Or.inl rfl) fun j => Table.get?_insert _ _ _ _
  refine ⟨hne, fun _ => rfl, ?_, ?_, ?_, ?_⟩
  · intro hs
    cases hs
  · exact iff_of_false Bool.false_ne_true (fun hs => by cases hs)
  · refine iff_of_false Bool.false_ne_true ?_
    intro hs
    rcases hs with hs | hs <;> cases hs
  · intro hs
    cases hs

theorem cancel (h : Allotted inv q) {session : SessionId} {now : Moment}
    {out : Option Reservation}
    (hc : q.cancel i session now = .ok (out, q')) : Allotted inv q' := by
  obtain ⟨e, he, -, ⟨-, -, rfl⟩ | ⟨-, -, rfl⟩⟩ := Queue.cancel_ok hc
  · exact h
  · exact h.insert ((h.sound i e he).finish (Or.inr rfl) _) (Or.inl rfl)
      fun j => Table.get?_insert _ _ _ _

theorem poll (h : Allotted inv q) {session : SessionId} {now : Moment}
    {r : Reservation} (hc : q.poll i session now = .ok (r, q')) :
    Allotted inv q' := by
  obtain ⟨e, he, -, -, ⟨-, rfl⟩ | ⟨-, rfl⟩⟩ := Queue.poll_ok hc
  · exact h
  · have hs := h.sound i e he
    have hs' : QueueEntry.Sound
        { e with pollDeadline := now.ticks + q.pollTimeout } :=
      ⟨hs.wanted, hs.idle, hs.fitted, hs.grace, hs.retire, hs.kept⟩
    exact h.insert hs' (Or.inr ⟨e, he, rfl⟩)
      fun j => Table.get?_insert _ _ _ _

theorem removeSession (h : Allotted inv q) (session : SessionId) :
    Allotted inv (q.removeSession session).2 := by
  refine h.of_entries fun i e' he' => ?_
  obtain ⟨he, -⟩ := Queue.get?_removeSession.1 he'
  exact ⟨h.sound i e' he, Or.inr ⟨e', he, rfl⟩⟩

theorem expire (h : Allotted inv q) (hf : q.Filed) (now : Moment) :
    Allotted inv (q.expire now).2 := by
  refine h.of_entries fun i e' he' => ?_
  obtain ⟨e, he, ⟨hl, arrival, rfl⟩ | ⟨-, -, -, rfl⟩⟩ :=
    Queue.get?_expire hf he'
  · exact ⟨(h.sound i e he).back (Queue.isLapsed_iff.1 hl).1 _ _,
      Or.inl rfl⟩
  · exact ⟨h.sound i e' he, Or.inr ⟨e', he, rfl⟩⟩

-- ================================================ the inventory changes

/-- The inventory may change as long as it keeps what is set aside. -/
theorem of_backed (h : Allotted inv q)
    (hb : ∀ id ∈ q.taken, ∃ r, inv'.get? id = some r
      ∧ r.acquired = false) : Allotted inv' q :=
  ⟨h.sound, h.apart, fun i e he id hid =>
    hb id (h.mem_taken_iff.2 ⟨i, e, he, hid⟩)⟩

/-- Flags may be lowered. -/
theorem lower (h : Allotted inv q) (ids : List ResourceId) :
    Allotted (inv.flag ids false) q := by
  refine h.of_backed fun id hid => ?_
  obtain ⟨i, e, he, hid⟩ := h.mem_taken_iff.1 hid
  obtain ⟨r, hr, hdown⟩ := h.backed i e he id hid
  refine ⟨_, by rw [Inventory.get?_flag, hr]; rfl, ?_⟩
  split
  · exact Resource.flagged_acquired r false
  · exact hdown

/-- An acquisition by a session: the flags of what it binds go up, and
its own allocations that are used by it, in part at least, are finished.
Nobody else's are, because nothing of theirs was available. -/
theorem convert (h : Allotted inv q) {session : SessionId}
    {bound : List ResourceId} {now : Moment}
    (hother : ∀ id ∈ bound, q.isAllocatedToOther id session = false) :
    Allotted (inv.flag bound true) (q.convert session bound now).2 := by
  have hafter : Allotted inv (q.convert session bound now).2 := by
    refine h.of_entries fun i e' he' => ?_
    obtain ⟨e, he, ⟨-, -, rfl⟩ | ⟨-, rfl⟩⟩ := Queue.get?_convert he'
    · exact ⟨(h.sound i e he).finish (Or.inl rfl) _, Or.inl rfl⟩
    · exact ⟨h.sound i e' he, Or.inr ⟨e', he, rfl⟩⟩
  refine hafter.of_backed fun id hid => ?_
  obtain ⟨i, e', he', hid⟩ := hafter.mem_taken_iff.1 hid
  obtain ⟨r, hr, hdown⟩ := hafter.backed i e' he' id hid
  have hnot : id ∉ bound := by
    intro hin
    have hs := hafter.allocated_of_mem he' hid
    obtain ⟨e, he, ⟨-, -, rfl⟩ | ⟨hkeep, rfl⟩⟩ := Queue.get?_convert he'
    · cases hs
    · by_cases ho : e'.reservation.owner.session = session
      · have hany : e'.holdsAny bound = true :=
          QueueEntry.holdsAny_iff.2 ⟨hs, id, hid, hin⟩
        rw [hkeep ho] at hany
        cases hany
      · have hall := hother id hin
        unfold Queue.isAllocatedToOther at hall
        rw [List.any_eq_false] at hall
        refine hall e' (Queue.mem_all.2 ⟨i, he⟩) ?_
        rw [Bool.and_eq_true, Bool.not_eq_true', ← Bool.not_eq_true,
          QueueEntry.isOwnedBy_iff]
        exact ⟨ho, QueueEntry.holdsAny_iff.2
          ⟨hs, id, hid, List.mem_singleton_self id⟩⟩
  exact ⟨r, (Inventory.get?_flag_of_notMem hnot true).trans hr, hdown⟩

/-- A restocking: what lost a resource waits again, and what is still set
aside is still there. Raising the flags of some resources afterwards does
no harm if none of them had its flag down before. -/
theorem restock (h : Allotted inv q) {exporter : String}
    {owner : SessionId} {changes : List ResourceChange}
    (hr : inv.Restock exporter owner inv' changes)
    {ids removed : List ResourceId}
    (hremoved : ∀ id, .removed id ∈ changes → id ∈ removed)
    (hids : ∀ id ∈ ids, ∀ r, inv.get? id = some r → r.acquired = true) :
    Allotted (inv'.flag ids true) (q.invalidate removed).2 := by
  have hafter : Allotted inv (q.invalidate removed).2 := by
    refine h.of_entries fun i e' he' => ?_
    obtain ⟨e, he, ⟨hh, rfl⟩ | ⟨-, rfl⟩⟩ := Queue.get?_invalidate he'
    · exact ⟨(h.sound i e he).back (QueueEntry.holdsAny_iff.1 hh).1
        e.arrival e.pollDeadline, Or.inl rfl⟩
    · exact ⟨h.sound i e' he, Or.inr ⟨e', he, rfl⟩⟩
  refine hafter.of_backed fun id hid => ?_
  obtain ⟨i, e', he', hid⟩ := hafter.mem_taken_iff.1 hid
  obtain ⟨r, hget, hdown⟩ := hafter.backed i e' he' id hid
  have hnot : id ∉ ids := by
    intro hin
    rw [hids id hin r hget] at hdown
    cases hdown
  have hstays : id ∉ removed := by
    intro hin
    have hs := hafter.allocated_of_mem he' hid
    obtain ⟨e, he, ⟨-, rfl⟩ | ⟨hkeep, rfl⟩⟩ := Queue.get?_invalidate he'
    · cases hs
    · have hany : e'.holdsAny removed = true :=
        QueueEntry.holdsAny_iff.2 ⟨hs, id, hid, hin⟩
      rw [hkeep] at hany
      cases hany
  obtain ⟨p, hp, rfl⟩ := Inventory.get?_eq_some.1 hget
  rw [Inventory.get?_flag_of_notMem hnot]
  by_cases hc : id ∈ changes.map (·.id)
  · obtain ⟨c, hcm, rfl⟩ := List.mem_map.1 hc
    cases c with
    | removed k => exact absurd (hremoved k hcm) hstays
    | upserted r =>
      have hr' : inv'.get? r.id = some r :=
        Inventory.get?_eq_some.2 ⟨_, (hr.upserted r hcm).2, rfl⟩
      exact ⟨r, hr', (hr.known r hcm p hp).2.symm.trans hdown⟩
  · exact ⟨p.resource, (hr.get?_same hc).trans hget, hdown⟩

-- =============================================================== rescan

/-- A rescan hands out resources that nobody has and that were not set
aside, each once. -/
theorem rescan (h : Allotted inv q) (hf : inv.Filed) (hq : q.Filed)
    {free : Resource → Bool}
    (hfree : ∀ r, free r = true → r.acquired = false)
    (skip : List String) (now : Moment) :
    Allotted inv (q.rescan inv free skip now).2 := by
  have hpair := Queue.pairwise_serve hf free
    (now.ticks + q.gracePeriod) (q.waiting skip) q.taken
  have : Std.Symm fun a b : QueueEntry =>
      ∀ id ∈ a.reservation.allocations, id ∉ b.reservation.allocations :=
    ⟨fun _ _ hd id hb ha => hd id ha hb⟩
  -- an entry that was served, against one that was not
  have hmixed : ∀ a b, a ∈ q.served inv free skip now →
      q.entries.get? b.id = some b →
      ∀ id ∈ a.reservation.allocations, id ∉ b.reservation.allocations := by
    intro a b ha hb id hid hid'
    obtain ⟨hnot, -⟩ := (Queue.served_of_mem hf ha).free id hid
    exact hnot (h.mem_taken_iff.2 ⟨b.id, b, hb, hid'⟩)
  refine ⟨?_, ?_, ?_⟩
  · intro i e' he'
    rcases Queue.get?_rescan he' with ⟨hs, -⟩ | ⟨-, he⟩
    · obtain ⟨e, ids, hall, hw, -, rfl, hfit⟩ :=
        (Queue.served_of_mem hf hs).origin
      exact (h.sound e.id e (hq.mem_all.1 hall)).serve hw hfit _
    · exact h.sound i e' he
  · intro i j a b hij ha hb id hid hid'
    rcases Queue.get?_rescan ha with ⟨hsa, hia⟩ | ⟨-, hga⟩
    · rcases Queue.get?_rescan hb with ⟨hsb, hib⟩ | ⟨-, hgb⟩
      · have hne : a ≠ b := by
          intro heq
          subst heq
          exact hij (hia.symm.trans hib)
        exact hpair.forall hsa hsb hne id hid hid'
      · exact hmixed a b hsa ((hq j b hgb).symm ▸ hgb) id hid hid'
    · rcases Queue.get?_rescan hb with ⟨hsb, -⟩ | ⟨-, hgb⟩
      · exact hmixed b a hsb ((hq i a hga).symm ▸ hga) id hid' hid
      · exact h.apart i j a b hij hga hgb id hid hid'
  · intro i e' he' id hid
    rcases Queue.get?_rescan he' with ⟨hs, -⟩ | ⟨-, he⟩
    · obtain ⟨-, r, hr, hav⟩ := (Queue.served_of_mem hf hs).free id hid
      exact ⟨r, hr, hfree r hav⟩
    · exact h.backed i e' he id hid

end Allotted

end LabLease
