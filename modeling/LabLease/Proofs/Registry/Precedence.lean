/-
Whoever ranks lower never matters: in every queue that its operations
reach, a rescan serves each reservation out of what those before it leave,
and in two queues that agree up to a reservation it fares the same.

# Two queues

Agreement is about reservations and their arrivals (`Stores`). Deadlines
may differ, and so may everything that ranks behind. The rows in front of
the reservation then hold the same reservations in the same order, so the
same is taken when it is its turn.
-/
import LabLease.Proofs.Registry.Rank

namespace LabLease.Queue

variable {q q' : Queue} {i : String} {e f : QueueEntry}

-- ==================================================================== runs

/-- One operation of the queue. -/
inductive Input where
  | create (owner : Holder) (filters : List ResourcePattern)
      (priority : Int) (now : Moment)
  | cancel (id : String) (session : SessionId) (now : Moment)
  | poll (id : String) (session : SessionId) (now : Moment)
  | rescan (inv : Inventory) (free : Resource → Bool)
      (skip : List String) (now : Moment)
  | expire (now : Moment)
  | convert (session : SessionId) (bound : List ResourceId) (now : Moment)
  | invalidate (removed : List ResourceId)
  | removeSession (session : SessionId)

/-- The queue that an operation leaves. A refusal leaves it as it is. -/
def left {α : Type} (q : Queue) : Except Refusal (α × Queue) → Queue
  | .ok (_, q') => q'
  | .error _ => q

/-- The queue after an operation. -/
def step (q : Queue) : Input → Queue
  | .create owner filters priority now =>
    q.left (q.create owner filters priority now)
  | .cancel id session now => q.left (q.cancel id session now)
  | .poll id session now => q.left (q.poll id session now)
  | .rescan inv free skip now => (q.rescan inv free skip now).2
  | .expire now => (q.expire now).2
  | .convert session bound now => (q.convert session bound now).2
  | .invalidate removed => (q.invalidate removed).2
  | .removeSession session => (q.removeSession session).2

/-- The queue after some operations in turn. -/
def run (q : Queue) (inputs : List Input) : Queue := inputs.foldl step q

theorem Keeps.rescan (h : q.Counted) (inv : Inventory)
    (free : Resource → Bool) (skip : List String) (now : Moment) :
    (q.rescan inv free skip now).2.Keeps q := by
  have hcounts : ∀ (es : List QueueEntry) (q : Queue),
      (es.foldl put q).created = q.created
        ∧ (es.foldl put q).arrivals = q.arrivals := by
    intro es
    induction es with
    | nil => exact fun q => ⟨rfl, rfl⟩
    | cons e es ih => exact fun q => ih (q.put e)
  refine ⟨(hcounts _ q).1, (hcounts _ q).2, fun i e' he' => ?_⟩
  rcases get?_rescan he' with ⟨hin, rfl⟩ | ⟨-, hsame⟩
  · obtain ⟨e, -, he, ids, rfl⟩ := h.served_origin hin
    exact ⟨e, he, rfl, rfl⟩
  · exact ⟨e', hsame, rfl, rfl⟩

/-- The arrival of an entry after an operation, beside the entry before
it: it is kept, or it is new, because the entry is or because its
allocation has lapsed. -/
inductive Assigns (q : Queue) (e' : QueueEntry) :
    Input → Option QueueEntry → Prop
  | kept {input : Input} {e : QueueEntry} (h : e'.arrival = e.arrival) :
    Assigns q e' input (some e)
  | created (owner : Holder) (filters : List ResourcePattern)
      (priority : Int) (now : Moment) (h : q.arrivals < e'.arrival) :
    Assigns q e' (.create owner filters priority now) none
  | lapsed {now : Moment} {e : QueueEntry}
      (hl : isLapsed now e = true) (h : q.arrivals < e'.arrival) :
    Assigns q e' (.expire now) (some e)

/-- An operation goes on counting: whatever is stored after it has the
arrival that it had, or a new one. -/
structure Counts (q : Queue) (input : Input) (q' : Queue) : Prop where
  counted : q'.Counted
  assigns : ∀ i e', q'.entries.get? i = some e' →
    Assigns q e' input (q.entries.get? i)

/-- A refusal has done nothing. -/
theorem Counts.left {α : Type} {input : Input}
    {r : Except Refusal (α × Queue)} (hq : q.Counts input q)
    (h : ∀ a q', r = .ok (a, q') → q.Counts input q') :
    q.Counts input (q.left r) := by
  cases r with
  | error e => exact hq
  | ok out => exact h out.1 out.2 rfl

theorem Keeps.counts (h : q'.Keeps q) (hq : q.Counted) (input : Input) :
    q.Counts input q' := by
  refine ⟨hq.of_keeps h, fun i e' he' => ?_⟩
  obtain ⟨e, he, -, harr⟩ := h.entries i e' he'
  rw [he]
  exact .kept harr

namespace Counted

theorem expire (h : q.Counted) (now : Moment) :
    q.Counts (.expire now) (q.expire now).2 := by
  have hkept : (q.kept now).Keeps q := .kept q now
  have hstored : ∀ e ∈ q.all.filter (isLapsed now),
      ∃ f, (q.kept now).entries.get? e.id = some f := by
    intro e he
    obtain ⟨hall, hl⟩ := List.mem_filter.1 he
    refine ⟨e, ?_⟩
    unfold kept
    rw [Table.get?_filter, h.filed.mem_all.1 hall, Option.filter_some, hl]
    rfl
  obtain ⟨hcounted, hlater⟩ := (h.of_keeps hkept).lapseAll now hstored
  refine ⟨hcounted, fun i e' he' => ?_⟩
  have hget : (Queue.lapseAll now (q.kept now)
      (q.all.filter (isLapsed now))).2.entries.get? i = some e' := he'
  by_cases hin : i ∈ (q.all.filter (isLapsed now)).map (·.id)
  · obtain ⟨e, he, rfl⟩ := List.mem_map.1 hin
    obtain ⟨hall, hl⟩ := List.mem_filter.1 he
    rw [h.filed.mem_all.1 hall]
    exact .lapsed hl (hlater _ e' hget hin)
  · rw [get?_lapseAll_of_notMem hin] at hget
    exact (hkept.counts h _).assigns i e' hget

theorem create_counts (h : q.Counted) {owner : Holder}
    {filters : List ResourcePattern} {priority : Int} {now : Moment}
    {r : Reservation}
    (hc : q.create owner filters priority now = .ok (r, q')) :
    q.Counts (.create owner filters priority now) q' := by
  refine ⟨h.create hc, fun i e' he' => ?_⟩
  have hfresh := h.fresh _ (Nat.lt_succ_self q.created)
  obtain ⟨-, rfl, rfl⟩ := create_ok hc
  rw [Table.get?_insert] at he'
  split at he'
  · next hid =>
    cases he'
    subst hid
    rw [show q.entries.get? (Reservation.new ..).id = none from hfresh]
    exact .created _ _ _ _ (Nat.lt_succ_self _)
  · rw [he']
    exact .kept rfl

/-- Every operation goes on counting. -/
theorem step (h : q.Counted) (input : Input) :
    q.Counts input (q.step input) := by
  have hsame : q.Counts input q := (Keeps.refl q).counts h input
  cases input with
  | create owner filters priority now =>
    exact hsame.left fun r q' hc => h.create_counts hc
  | cancel id session now =>
    exact hsame.left fun out q' hc => (Keeps.cancel hc).counts h _
  | poll id session now =>
    exact hsame.left fun r q' hp => (Keeps.poll hp).counts h _
  | rescan inv free skip now =>
    exact (Keeps.rescan h inv free skip now).counts h _
  | expire now => exact h.expire now
  | convert session bound now =>
    exact (Keeps.convert q session bound now).counts h _
  | invalidate removed => exact (Keeps.invalidate q removed).counts h _
  | removeSession session =>
    exact (Keeps.removeSession q session).counts h _

theorem run (h : q.Counted) (inputs : List Input) :
    (q.run inputs).Counted := by
  induction inputs generalizing q with
  | nil => exact h
  | cons input inputs ih => exact ih (h.step input).counted

theorem reached (grace poll : Nat) (inputs : List Input) :
    ((Queue.new grace poll).run inputs).Counted :=
  (Counted.new grace poll).run inputs

end Counted

-- ============================================================== two queues

/-- The waiting reservations at or before a rank, with their arrivals. -/
def ranked (q : Queue) (rank : Rank) : List (Reservation × Nat) :=
  (q.all.filter fun e => e.isWaiting
    && (e.rank = rank || e.rank.Before rank)).map fun e =>
      (e.reservation, e.arrival)

/-- The same is set aside in both queues, and the same reservations wait
at or before a rank. -/
structure AgreeUpTo (p q : Queue) (rank : Rank) : Prop where
  allocated : ∀ r, r ∈ (p.all.filter (·.isAllocated)).map (·.reservation)
    ↔ r ∈ (q.all.filter (·.isAllocated)).map (·.reservation)
  waiting : ∀ x, x ∈ p.ranked rank ↔ x ∈ q.ranked rank

theorem mem_ranked {rank : Rank} {x : Reservation × Nat} :
    x ∈ q.ranked rank ↔ ∃ e ∈ q.all, e.reservation.state = .waiting
      ∧ (e.rank = rank ∨ e.rank.Before rank)
      ∧ (e.reservation, e.arrival) = x := by
  unfold ranked
  rw [List.mem_map]
  refine exists_congr fun e => ?_
  rw [List.mem_filter, Bool.and_eq_true, QueueEntry.isWaiting_iff,
    Bool.or_eq_true, decide_eq_true_eq, decide_eq_true_eq, and_assoc,
    and_assoc]

/-- What stands in the row before an entry is what is ranked before it and
not skipped. -/
theorem Cut.mem_front {skip : List String} {front rest : List QueueEntry}
    (hcut : q.Cut skip e front rest) {x : Reservation × Nat} :
    x ∈ front.map (fun f => (f.reservation, f.arrival))
      ↔ x ∈ q.ranked e.rank ∧ Rank.Before ⟨x.1.priority, x.2⟩ e.rank
        ∧ x.1.id ∉ skip := by
  rw [List.mem_map, mem_ranked]
  constructor
  · rintro ⟨f, hf, rfl⟩
    obtain ⟨hrow, hbefore⟩ := (hcut.front f).1 hf
    obtain ⟨hall, hw, hskip⟩ := mem_waiting.1 hrow
    exact ⟨⟨f, hall, hw, Or.inr hbefore, rfl⟩, hbefore, hskip⟩
  · rintro ⟨⟨f, hall, hw, -, rfl⟩, hbefore, hskip⟩
    refine ⟨f, (hcut.front f).2 ⟨?_, hbefore⟩, rfl⟩
    exact mem_waiting.2 ⟨hall, hw, hskip⟩

/-- The rows before two entries of the same rank hold the same, if the
queues agree up to there. -/
theorem AgreeUpTo.fronts {p : Queue} {skip : List String}
    {front rest front' rest' : List QueueEntry}
    (h : p.AgreeUpTo q e.rank) (hp : p.Counted) (hq : q.Counted)
    (hrank : f.rank = e.rank) (hcut : p.Cut skip f front rest)
    (hcut' : q.Cut skip e front' rest') :
    front.map (·.reservation) = front'.map (·.reservation) := by
  have hsorted : ∀ {q : Queue} {e : QueueEntry}
      {front rest : List QueueEntry}, q.Counted →
      q.Cut skip e front rest →
      (front.map fun f => (f.reservation, f.arrival)).Pairwise fun a b =>
        Rank.Before ⟨a.1.priority, a.2⟩ ⟨b.1.priority, b.2⟩ := by
    intro q e front rest hq hcut
    have hrow := hq.pairwise_waiting skip
    rw [hcut.row, List.pairwise_append] at hrow
    exact List.pairwise_map.2 hrow.1
  have hsame := eq_of_pairwise_before (hsorted hp hcut) (hsorted hq hcut')
    fun x => by rw [hcut.mem_front, hcut'.mem_front, hrank, h.waiting]
  have hfirst := congrArg (List.map Prod.fst) hsame
  rw [List.map_map, List.map_map] at hfirst
  exact hfirst

theorem AgreeUpTo.mem_taken {p : Queue} {rank : Rank}
    (h : p.AgreeUpTo q rank) (id : ResourceId) :
    id ∈ p.taken ↔ id ∈ q.taken := by
  have hof : ∀ q : Queue, id ∈ q.taken ↔
      ∃ r ∈ (q.all.filter (·.isAllocated)).map (·.reservation),
        id ∈ r.allocations := by
    intro q
    unfold taken
    rw [List.mem_flatMap]
    constructor
    · rintro ⟨e, he, hid⟩
      exact ⟨_, List.mem_map_of_mem he, hid⟩
    · rintro ⟨r, hr, hid⟩
      obtain ⟨e, he, rfl⟩ := List.mem_map.1 hr
      exact ⟨e, he, hid⟩
  rw [hof, hof]
  exact exists_congr fun r => and_congr_left fun _ => h.allocated r

/-- A reservation fares the same in two queues that agree up to it. -/
theorem AgreeUpTo.rescan {p : Queue} (h : p.AgreeUpTo q e.rank)
    (hp : p.Counted) (hq : q.Counted) (he : q.entries.get? i = some e)
    (hw : e.reservation.state = .waiting) (inv : Inventory)
    (free : Resource → Bool) (skip : List String) (now now' : Moment) :
    ((p.rescan inv free skip now').2.entries.get? i).map (·.reservation)
      = ((q.rescan inv free skip now).2.entries.get? i).map
        (·.reservation) := by
  have hid := hq.filed i e he
  subst hid
  -- the other queue stores the same reservation
  obtain ⟨f, hf, hfw, -, hsame⟩ := mem_ranked.1 ((h.waiting _).2
    (mem_ranked.2 ⟨e, mem_all.2 ⟨_, he⟩, hw, Or.inl rfl, rfl⟩))
  obtain ⟨hres, harr⟩ := Prod.mk.inj hsame
  have hfid : f.id = e.id := congrArg Reservation.id hres
  have hrank : f.rank = e.rank := by
    unfold QueueEntry.rank
    rw [hres, harr]
  have hfget := hp.filed.mem_all.1 hf
  by_cases hskip : e.id ∈ skip
  · rw [hq.rescan_others fun _ _ _ => hskip, ← hfid,
      hp.rescan_others fun _ _ _ => hfid ▸ hskip, hfget, hfid, he,
      Option.map_some, Option.map_some, hres]
  · obtain ⟨front, rest, hcut⟩ := hp.cut
      (mem_waiting.2 ⟨hf, hfw, hfid ▸ hskip⟩)
    obtain ⟨front', rest', hcut'⟩ := hq.cut
      (mem_waiting.2 ⟨mem_all.2 ⟨_, he⟩, hw, hskip⟩)
    have hserved := serve_congr inv free (now'.ticks + p.gracePeriod)
      (now.ticks + q.gracePeriod) h.mem_taken
      (h.fronts hp hq hrank hcut hcut')
    have htaken : ∀ id, id ∈ p.takenBefore inv free now' front
        ↔ id ∈ q.takenBefore inv free now front' := by
      intro id
      have hallocations : ∀ es : List QueueEntry, allocations es
          = (es.map (·.reservation)).flatMap (·.allocations) :=
        fun es => (List.flatMap_map ..).symm
      unfold takenBefore
      rw [List.mem_append, List.mem_append, h.mem_taken, hallocations,
        hallocations, hserved]
    have hbind : inv.bind (fun r => free r
          && !(p.takenBefore inv free now' front).contains r.id)
          f.reservation.filters
        = inv.bind (fun r => free r
          && !(q.takenBefore inv free now front').contains r.id)
          e.reservation.filters := by
      rw [hres]
      congr 1
      funext r
      simp [htaken r.id]
    rw [← hfid, hp.rescan_get? hcut, hfid, hq.rescan_get? hcut', hbind]
    cases inv.bind (fun r => free r
        && !(q.takenBefore inv free now front').contains r.id)
        e.reservation.filters with
    | ok ids =>
      unfold QueueEntry.allocated
      rw [Option.map_some, Option.map_some, hres]
    | error _ => rw [Option.map_some, Option.map_some, hres]

-- ============================================================ the theorem

end LabLease.Queue
