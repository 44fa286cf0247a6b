/-
The queue of reservations: what becomes of a stored entry in each
operation, and that the reported reservations tell it.

# Entry by entry

Every operation of the queue that touches stored entries is described by
a disjunction on one key (`get?_rescan`, `get?_convert`, …): the entry is
as it was, or it was an entry of a certain kind and is now this one. The
invariants are read off these disjunctions and no proof elsewhere opens
an operation.

# What the reports tell

A follower knows the pending reservations. `told` is what it knows of one
id after a list of reports; each operation reports exactly what a
follower has to know (`pending?_rescan`, …). Entries that are forgotten
in a final state need no report, which is why `expire` needs the
invariant that only finished entries have a time to be forgotten.
-/
import LabLease.Proofs.Registry.Binding
import LabLease.Registry.Queue

namespace LabLease

-- ============================================================== one entry

namespace QueueEntry

/-- A stored entry is consistent with its state: resources are set aside,
with a deadline, exactly while it is allocated; it is to be forgotten
exactly when it is finished, and it never stays expired. -/
structure Sound (e : QueueEntry) : Prop where
  wanted : e.reservation.filters ≠ []
  idle : e.reservation.state ≠ .allocated → e.reservation.allocations = []
  fitted : e.reservation.state = .allocated →
    FirstFit e.reservation.filters e.reservation.allocations
  grace : e.graceDeadline.isSome = true ↔ e.reservation.state = .allocated
  retire : e.retireAt.isSome = true ↔
    e.reservation.state = .acquired ∨ e.reservation.state = .cancelled
  kept : e.reservation.state ≠ .expired

variable {e : QueueEntry}

/-- The tests of an entry are read off its state. -/
theorem isAllocated_iff :
    e.isAllocated = true ↔ e.reservation.state = .allocated := by
  unfold isAllocated
  exact decide_eq_true_iff

theorem isWaiting_iff :
    e.isWaiting = true ↔ e.reservation.state = .waiting := by
  unfold isWaiting
  exact decide_eq_true_iff

theorem isOwnedBy_iff {session : SessionId} :
    e.isOwnedBy session = true ↔ e.reservation.owner.session = session := by
  unfold isOwnedBy
  exact decide_eq_true_iff

/-- Only an allocation holds resources. -/
theorem holdsAny_iff {ids : List ResourceId} :
    e.holdsAny ids = true ↔ e.reservation.state = .allocated
      ∧ ∃ id ∈ e.reservation.allocations, id ∈ ids := by
  unfold holdsAny
  rw [Bool.and_eq_true, isAllocated_iff, List.any_eq_true]
  simp only [List.contains_iff_mem]

@[simp] theorem moved_id (e : QueueEntry) (s : ReservationState) :
    (e.moved s).id = e.id := rfl

@[simp] theorem allocated_id (e : QueueEntry) (ids : List ResourceId)
    (deadline : Nat) : (e.allocated ids deadline).id = e.id := rfl

/-- Back to waiting, at whatever place in the queue. -/
theorem Sound.back (h : e.Sound) (ha : e.reservation.state = .allocated)
    (arrival pollDeadline : Nat) :
    Sound { e.moved .waiting with arrival, pollDeadline } := by
  have hretire : e.retireAt.isSome ≠ true := by
    rw [Ne, h.retire, ha]
    simp
  refine ⟨h.wanted, fun _ => rfl, ?_, ?_, ?_, ?_⟩
  · intro hs
    cases hs
  · show (none : Option Nat).isSome = true ↔ _
    simp [moved, Reservation.transition]
  · show e.retireAt.isSome = true ↔ _
    simpa [moved, Reservation.transition] using hretire
  · show ReservationState.waiting ≠ _
    simp

/-- Finished, and to be forgotten some time. -/
theorem Sound.finish (h : e.Sound) {s : ReservationState}
    (hs : s = .acquired ∨ s = .cancelled) (at' : Nat) :
    Sound { e.moved s with retireAt := some at' } := by
  have hna : s ≠ .allocated := by
    rcases hs with rfl | rfl <;> simp
  refine ⟨h.wanted, fun _ => ?_, ?_, ?_, ?_, ?_⟩
  · exact if_neg hna
  · intro ha
    exact absurd ha hna
  · show (none : Option Nat).isSome = true ↔ s = _
    simpa using hna
  · show (some at').isSome = true ↔ (s = _ ∨ s = _)
    exact iff_of_true rfl hs
  · show s ≠ _
    rcases hs with rfl | rfl <;> simp

/-- Served. -/
theorem Sound.serve (h : e.Sound) (hw : e.reservation.state = .waiting)
    {ids : List ResourceId} (hfit : FirstFit e.reservation.filters ids)
    (deadline : Nat) : Sound (e.allocated ids deadline) := by
  have hretire : e.retireAt.isSome ≠ true := by
    rw [Ne, h.retire, hw]
    simp
  refine ⟨h.wanted, ?_, fun _ => hfit, ?_, ?_, ?_⟩
  · intro hs
    exact absurd rfl hs
  · exact iff_of_true rfl rfl
  · show e.retireAt.isSome = true ↔ _
    simpa [allocated, Reservation.transition] using hretire
  · show ReservationState.allocated ≠ _
    simp

end QueueEntry

namespace Queue

variable {q q' : Queue} {i : String} {e e' : QueueEntry}

/-- Every entry is stored under its own id. -/
def Filed (q : Queue) : Prop :=
  ∀ i e, q.entries.get? i = some e → e.id = i

/-- The listing shows what is stored under any id. -/
theorem mem_all : e ∈ q.all ↔ ∃ i, q.entries.get? i = some e :=
  Table.mem_values

/-- In a queue that is filed it shows an entry under its own id. -/
theorem Filed.mem_all (h : q.Filed) :
    e ∈ q.all ↔ q.entries.get? e.id = some e := by
  rw [Queue.mem_all]
  constructor
  · intro hex
    obtain ⟨i, hi⟩ := hex
    rw [h i e hi]
    exact hi
  · intro hi
    exact ⟨_, hi⟩

theorem Filed.map_id_all (h : q.Filed) :
    q.all.map (·.id) = q.entries.keys := by
  unfold all Table.values Table.keys
  rw [List.map_map]
  refine List.map_congr_left fun e he => ?_
  exact h e.1 e.2 ((Table.get?_eq_some_iff _ _ _).2 he)

/-- No two entries are of one reservation. -/
theorem Filed.nodup_ids (h : q.Filed) : (q.all.map (·.id)).Nodup := by
  rw [h.map_id_all]
  exact q.entries.nodup_keys

-- =============================================================== reports

/-- A reservation, if it is pending. -/
def pendingOnly (r : Option Reservation) : Option Reservation :=
  r.filter (·.state.isPending)

/-- The pending reservation of an id. -/
def pending? (q : Queue) (id : String) : Option Reservation :=
  pendingOnly ((q.entries.get? id).map (·.reservation))

/-- What a follower that knew `known` of an id knows after some
reports. -/
def told (id : String) (known : Option Reservation)
    (reports : List Reservation) : Option Reservation :=
  reports.foldl
    (fun known r => if r.id = id then pendingOnly (some r) else known) known

/-- A follower may hear of reports in two goes. -/
theorem told_append (id : String) (known : Option Reservation)
    (rs rs' : List Reservation) :
    told id known (rs ++ rs') = told id (told id known rs) rs' := by
  unfold told
  exact List.foldl_append

/-- What is not reported stays as it was known. -/
theorem told_of_notMem {id : String} {known : Option Reservation}
    {rs : List Reservation} (h : id ∉ rs.map (·.id)) :
    told id known rs = known := by
  induction rs generalizing known with
  | nil => rfl
  | cons r rest ih =>
    rw [List.map_cons, List.mem_cons, not_or] at h
    show told id (if r.id = id then _ else known) rest = known
    rw [if_neg (Ne.symm h.1)]
    exact ih h.2

/-- One report for each id says it all. -/
theorem told_of_mem (known : Option Reservation)
    {rs : List Reservation} {r : Reservation}
    (hnd : (rs.map (·.id)).Nodup) (h : r ∈ rs) :
    told r.id known rs = pendingOnly (some r) := by
  induction rs generalizing known with
  | nil => cases h
  | cons a rest ih =>
    rw [List.map_cons, List.nodup_cons] at hnd
    rcases List.mem_cons.1 h with rfl | h
    · show told r.id (if r.id = r.id then _ else known) rest = _
      rw [if_pos rfl]
      exact told_of_notMem hnd.1
    · exact ih _ hnd.2 h

-- ================================================================== put

/-- An entry is stored under its own id. -/
theorem get?_put :
    (q.put e).entries.get? i
      = if e.id = i then some e else q.entries.get? i :=
  Table.get?_insert _ _ _ _

/-- So a queue that is filed stays filed. -/
theorem Filed.put (h : q.Filed) (e : QueueEntry) : (q.put e).Filed := by
  intro i e' he'
  rw [get?_put] at he'
  split at he'
  · next hi => cases he'; exact hi
  · exact h i e' he'

/-- Who hears of the entry knows what is stored. -/
theorem pending?_insert
    (h : q'.entries = q.entries.insert e.id e) (id : String) :
    q'.pending? id = told id (q.pending? id) [e.reservation] := by
  show pendingOnly _ = if e.reservation.id = id then _ else _
  rw [h, Table.get?_insert]
  by_cases hid : e.reservation.id = id
  · rw [if_pos hid, if_pos (show e.id = id from hid)]
    rfl
  · rw [if_neg hid, if_neg (show ¬ e.id = id from hid)]
    rfl

theorem pending?_put (q : Queue) (e : QueueEntry) (id : String) :
    (q.put e).pending? id = told id (q.pending? id) [e.reservation] :=
  pending?_insert rfl id

/-- Entries that are put in one by one are reported one by one. -/
theorem pending?_foldl_put (es : List QueueEntry) (q : Queue)
    (id : String) :
    (es.foldl put q).pending? id
      = told id (q.pending? id) (es.map (·.reservation)) := by
  induction es generalizing q with
  | nil => rfl
  | cons e rest ih =>
    rw [List.foldl_cons, ih, pending?_put, List.map_cons, ← told_append]
    rfl

/-- What is stored stays stored. -/
theorem foldl_put_isSome (es : List QueueEntry)
    (h : ∃ e, q.entries.get? i = some e) :
    ∃ e, (es.foldl put q).entries.get? i = some e := by
  induction es generalizing q with
  | nil => exact h
  | cons a es ih =>
    refine ih ?_
    rw [get?_put]
    split
    · exact ⟨a, rfl⟩
    · exact h

/-- What is stored after several entries were put in. -/
theorem get?_foldl_put {es : List QueueEntry}
    (h : (es.foldl put q).entries.get? i = some e) :
    (e ∈ es ∧ e.id = i)
      ∨ (i ∉ es.map (·.id) ∧ q.entries.get? i = some e) := by
  induction es generalizing q with
  | nil => exact Or.inr ⟨by simp, h⟩
  | cons a rest ih =>
    rw [List.foldl_cons] at h
    rcases ih h with ⟨hmem, hid⟩ | ⟨hnot, hget⟩
    · exact Or.inl ⟨List.mem_cons_of_mem _ hmem, hid⟩
    · rw [get?_put] at hget
      split at hget
      · next ha =>
        cases hget
        exact Or.inl ⟨List.mem_cons_self, ha⟩
      · next ha =>
        refine Or.inr ⟨?_, hget⟩
        rw [List.map_cons, List.mem_cons, not_or]
        exact ⟨Ne.symm ha, hnot⟩

/-- Other entries stay as they were. -/
theorem get?_foldl_put_of_notMem {es : List QueueEntry}
    (h : i ∉ es.map (·.id)) :
    (es.foldl put q).entries.get? i = q.entries.get? i := by
  induction es generalizing q with
  | nil => rfl
  | cons a rest ih =>
    rw [List.map_cons, List.mem_cons, not_or] at h
    rw [List.foldl_cons, ih h.2, get?_put, if_neg (Ne.symm h.1)]

/-- Of different entries each is stored as it was put in. -/
theorem get?_foldl_put_of_mem {es : List QueueEntry}
    (hnd : (es.map (·.id)).Nodup) (he : e ∈ es) :
    (es.foldl put q).entries.get? e.id = some e := by
  induction es generalizing q with
  | nil => cases he
  | cons a rest ih =>
    obtain ⟨hnot, hnd⟩ := List.nodup_cons.1 hnd
    rcases List.mem_cons.1 he with rfl | he
    · rw [List.foldl_cons, get?_foldl_put_of_notMem hnot, get?_put,
        if_pos rfl]
    · exact ih hnd he

-- ========================================================== changeWhere

/-- An entry changes by what is in it and nothing else. -/
theorem get?_entries_changeWhere (q : Queue) (test : QueueEntry → Bool)
    (f : QueueEntry → QueueEntry) (i : String) :
    (q.changeWhere test f).2.entries.get? i
      = (q.entries.get? i).map fun e => if test e then f e else e :=
  Table.get?_mapValues ..

/-- What is stored after a change was changed, or was none of those
meant. -/
theorem get?_changeWhere {test : QueueEntry → Bool}
    {f : QueueEntry → QueueEntry}
    (h : (q.changeWhere test f).2.entries.get? i = some e') :
    ∃ e, q.entries.get? i = some e
      ∧ ((test e = true ∧ e' = f e) ∨ (test e = false ∧ e' = e)) := by
  rw [get?_entries_changeWhere] at h
  obtain ⟨e, he, rfl⟩ := Option.map_eq_some_iff.1 h
  refine ⟨e, he, ?_⟩
  cases ht : test e with
  | true => exact Or.inl ⟨rfl, by simp⟩
  | false => exact Or.inr ⟨rfl, by simp⟩

/-- Without a report there was nothing to change. -/
theorem changeWhere_of_nil {test : QueueEntry → Bool}
    {f : QueueEntry → QueueEntry}
    (h : (q.changeWhere test f).1 = []) :
    (q.changeWhere test f).2 = q := by
  have hnone : q.all.filter test = [] :=
    List.map_eq_nil_iff.1 (List.map_eq_nil_iff.1 h)
  have hsame : q.entries.mapValues (fun _ e => if test e then f e else e)
      = q.entries := by
    refine Table.ext_get? fun i => ?_
    rw [Table.get?_mapValues]
    cases he : q.entries.get? i with
    | none => rfl
    | some e =>
      have ht := List.filter_eq_nil_iff.1 hnone e (mem_all.2 ⟨i, he⟩)
      rw [Option.map_some, if_neg ht]
  unfold changeWhere
  rw [hsame]

/-- Changed entries under their old ids: each is reported once. -/
theorem pending?_changeWhere (h : q.Filed) {test : QueueEntry → Bool}
    {f : QueueEntry → QueueEntry} (hf : ∀ e, (f e).id = e.id)
    (id : String) :
    (q.changeWhere test f).2.pending? id
      = told id (q.pending? id) (q.changeWhere test f).1 := by
  have hids : (q.changeWhere test f).1.map (·.id)
      = (q.all.filter test).map (·.id) := by
    unfold changeWhere
    rw [List.map_map, List.map_map]
    exact List.map_congr_left fun e _ => hf e
  have hnd : ((q.changeWhere test f).1.map (·.id)).Nodup := by
    rw [hids]
    exact h.nodup_ids.sublist (List.filter_sublist.map _)
  show pendingOnly (Option.map _ ((q.entries.mapValues _).get? id)) = _
  rw [Table.get?_mapValues]
  by_cases hmem : id ∈ (q.all.filter test).map (·.id)
  · obtain ⟨e, he, rfl⟩ := List.mem_map.1 hmem
    obtain ⟨he, ht⟩ := List.mem_filter.1 he
    have hrep : (f e).reservation ∈ (q.changeWhere test f).1 := by
      unfold changeWhere
      refine List.mem_map_of_mem (List.mem_map_of_mem ?_)
      exact List.mem_filter.2 ⟨he, ht⟩
    have hid : (f e).reservation.id = e.id := hf e
    rw [h.mem_all.1 he, ← hid, told_of_mem _ hnd hrep]
    simp [ht]
  · rw [told_of_notMem (hids ▸ hmem)]
    cases hget : q.entries.get? id with
    | none => simp [pending?, hget]
    | some e =>
      have ht : test e = false := by
        rw [← Bool.not_eq_true]
        intro ht
        refine hmem (List.mem_map.2 ⟨e, ?_, h id e hget⟩)
        exact List.mem_filter.2 ⟨Queue.mem_all.2 ⟨id, hget⟩, ht⟩
      simp [pending?, hget, ht]

-- ================================================ conversion, invalidation

/-- An entry after a session has bound something: its allocation is taken
up if it holds a part of that. -/
theorem get?_convert {session : SessionId} {bound : List ResourceId}
    {now : Moment}
    (h : (q.convert session bound now).2.entries.get? i = some e') :
    ∃ e, q.entries.get? i = some e
      ∧ ((e.reservation.owner.session = session ∧ e.holdsAny bound = true
          ∧ e' = { e.moved .acquired with
              retireAt := some (now.ticks + q.pollTimeout) })
        ∨ ((e.reservation.owner.session = session →
              e.holdsAny bound = false) ∧ e' = e)) := by
  obtain ⟨e, he, hcase⟩ := get?_changeWhere h
  refine ⟨e, he, ?_⟩
  rw [Bool.and_eq_true, Bool.and_eq_false_iff,
    QueueEntry.isOwnedBy_iff] at hcase
  rcases hcase with ⟨⟨ho, hh⟩, heq⟩ | ⟨ht, heq⟩
  · exact Or.inl ⟨ho, hh, heq⟩
  · refine Or.inr ⟨fun ho => ?_, heq⟩
    rcases ht with ht | ht
    · rw [← Bool.not_eq_true, QueueEntry.isOwnedBy_iff] at ht
      exact absurd ho ht
    · exact ht

/-- Without a report no allocation was taken up. -/
theorem convert_of_nil (q : Queue) (session : SessionId)
    (bound : List ResourceId) (now : Moment)
    (h : (q.convert session bound now).1 = []) :
    (q.convert session bound now).2 = q :=
  changeWhere_of_nil h

/-- A follower hears of every allocation that is taken up. -/
theorem pending?_convert (h : q.Filed) (session : SessionId)
    (bound : List ResourceId) (now : Moment) (id : String) :
    (q.convert session bound now).2.pending? id
      = told id (q.pending? id) (q.convert session bound now).1 := by
  refine pending?_changeWhere h ?_ id
  exact fun _ => rfl

/-- An entry after some resources are gone: it waits again if it held one
of them. -/
theorem get?_invalidate {removed : List ResourceId}
    (h : (q.invalidate removed).2.entries.get? i = some e') :
    ∃ e, q.entries.get? i = some e
      ∧ ((e.holdsAny removed = true ∧ e' = e.moved .waiting)
        ∨ (e.holdsAny removed = false ∧ e' = e)) :=
  get?_changeWhere h

/-- A follower hears of every allocation that is lost. -/
theorem pending?_invalidate (h : q.Filed) (removed : List ResourceId)
    (id : String) :
    (q.invalidate removed).2.pending? id
      = told id (q.pending? id) (q.invalidate removed).1 := by
  refine pending?_changeWhere h ?_ id
  exact fun _ => rfl

-- =============================================================== rescan

/-- An entry that a rescan has served: it waited and was not skipped, and
got free resources by first fit. -/
structure Served (q : Queue) (inv : Inventory) (free : Resource → Bool)
    (skip : List String) (deadline : Nat) (e' : QueueEntry) : Prop where
  origin : ∃ e ids, e ∈ q.all ∧ e.reservation.state = .waiting
    ∧ e.id ∉ skip ∧ e' = e.allocated ids deadline
    ∧ FirstFit e.reservation.filters ids
  free : ∀ id ∈ e'.reservation.allocations, id ∉ q.taken
    ∧ ∃ r, inv.get? id = some r ∧ free r = true

/-- Who is waiting may be skipped. -/
theorem mem_waiting {skip : List String} :
    e ∈ q.waiting skip ↔ e ∈ q.all ∧ e.reservation.state = .waiting
      ∧ e.id ∉ skip := by
  unfold waiting
  rw [List.mem_mergeSort, List.mem_filter,
    Bool.and_eq_true, QueueEntry.isWaiting_iff]
  simp

/-- Whoever is served has a first fit out of what was not taken. -/
theorem mem_serve {inv : Inventory} (hf : inv.Filed)
    {free : Resource → Bool} {deadline : Nat} {taken : List ResourceId}
    {es : List QueueEntry} (h : e' ∈ serve inv free deadline taken es) :
    (∃ e ids, e ∈ es ∧ e' = e.allocated ids deadline
      ∧ FirstFit e.reservation.filters ids)
    ∧ ∀ id ∈ e'.reservation.allocations, id ∉ taken
      ∧ ∃ r, inv.get? id = some r ∧ free r = true := by
  induction es generalizing taken with
  | nil => cases h
  | cons e rest ih =>
    unfold serve at h
    cases hb : inv.bind (fun r => free r && !taken.contains r.id)
        e.reservation.filters with
    | error p =>
      rw [hb] at h
      obtain ⟨⟨e₀, ids, hmem, hrest⟩, hids⟩ := ih h
      exact ⟨⟨e₀, ids, List.mem_cons_of_mem e hmem, hrest⟩, hids⟩
    | ok ids =>
      rw [hb] at h
      rcases List.mem_cons.1 h with rfl | h
      · obtain ⟨hfit, hgot⟩ := Inventory.bind_firstFit hf hb
        refine ⟨⟨e, ids, List.mem_cons_self, rfl, hfit⟩, ?_⟩
        intro id hid
        obtain ⟨r, hr, hav⟩ := hgot id hid
        have hrid := hf.id_eq hr
        subst hrid
        simp only [Bool.and_eq_true, Bool.not_eq_true',
          List.contains_eq_mem, decide_eq_false_iff_not] at hav
        exact ⟨hav.2, r, hr, hav.1⟩
      · obtain ⟨⟨e₀, ids₀, hmem, hrest⟩, hids⟩ := ih h
        refine ⟨⟨e₀, ids₀, List.mem_cons_of_mem e hmem, hrest⟩, ?_⟩
        intro id hid
        obtain ⟨hnot, hr⟩ := hids id hid
        rw [List.mem_append, not_or] at hnot
        exact ⟨hnot.1, hr⟩

/-- Serving hands out nothing twice: whoever comes later finds taken what
went before. -/
theorem pairwise_serve {inv : Inventory} (hf : inv.Filed)
    (free : Resource → Bool) (deadline : Nat) (es : List QueueEntry)
    (taken : List ResourceId) :
    (serve inv free deadline taken es).Pairwise (fun a b =>
      ∀ id ∈ a.reservation.allocations,
        id ∉ b.reservation.allocations) := by
  induction es generalizing taken with
  | nil => exact .nil
  | cons e rest ih =>
    unfold serve
    cases inv.bind (fun r => free r && !taken.contains r.id)
        e.reservation.filters with
    | error p => exact ih taken
    | ok ids =>
      refine List.pairwise_cons.2 ⟨?_, ih (taken ++ ids)⟩
      intro e' he' id hid hid'
      obtain ⟨hnot, -⟩ := (mem_serve hf he').2 id hid'
      exact hnot (List.mem_append_right taken hid)

/-- What a rescan has served, in the order of the reports. -/
def served (q : Queue) (inv : Inventory) (free : Resource → Bool)
    (skip : List String) (now : Moment) : List QueueEntry :=
  serve inv free (now.ticks + q.gracePeriod) q.taken (q.waiting skip)

theorem rescan_eq (q : Queue) (inv : Inventory) (free : Resource → Bool)
    (skip : List String) (now : Moment) :
    q.rescan inv free skip now
      = ((q.served inv free skip now).map (·.reservation),
        (q.served inv free skip now).foldl put q) := rfl

/-- All that is said of a served entry at once. -/
theorem served_of_mem {inv : Inventory} {free : Resource → Bool}
    {skip : List String} {now : Moment} (hf : inv.Filed)
    (h : e' ∈ q.served inv free skip now) :
    Served q inv free skip (now.ticks + q.gracePeriod) e' := by
  obtain ⟨⟨e, ids, he, heq, hfit⟩, hids⟩ := mem_serve hf h
  obtain ⟨hall, hw, hskip⟩ := mem_waiting.1 he
  exact ⟨⟨e, ids, hall, hw, hskip, heq, hfit⟩, hids⟩

/-- Entries that are put in keep their ids. -/
theorem Filed.foldl_put (h : q.Filed) (es : List QueueEntry) :
    (es.foldl Queue.put q).Filed := by
  induction es generalizing q with
  | nil => exact h
  | cons e rest ih => exact ih (h.put e)

/-- Whoever is served keeps its id. -/
theorem Filed.rescan (h : q.Filed) (inv : Inventory)
    (free : Resource → Bool) (skip : List String) (now : Moment) :
    (q.rescan inv free skip now).2.Filed := by
  rw [rescan_eq]
  exact h.foldl_put _

/-- An entry after a rescan was served by it or is as it was. -/
theorem get?_rescan {inv : Inventory} {free : Resource → Bool}
    {skip : List String} {now : Moment}
    (h : (q.rescan inv free skip now).2.entries.get? i = some e') :
    (e' ∈ q.served inv free skip now ∧ e'.id = i)
      ∨ (i ∉ (q.served inv free skip now).map (·.id)
          ∧ q.entries.get? i = some e') := by
  rw [rescan_eq] at h
  exact get?_foldl_put h

/-- A follower hears of everybody who is served. -/
theorem pending?_rescan (q : Queue) (inv : Inventory)
    (free : Resource → Bool) (skip : List String) (now : Moment)
    (id : String) :
    (q.rescan inv free skip now).2.pending? id
      = told id (q.pending? id) (q.rescan inv free skip now).1 := by
  rw [rescan_eq]
  exact pending?_foldl_put _ q id

-- ==================================================== what a session asks

/-- A rescan forgets nobody. -/
theorem rescan_isSome (q : Queue) (inv : Inventory)
    (free : Resource → Bool) (skip : List String) (now : Moment)
    (h : ∃ e, q.entries.get? i = some e) :
    ∃ e, (q.rescan inv free skip now).2.entries.get? i = some e := by
  rw [rescan_eq]
  exact foldl_put_isSome _ h

/-- An id is known if something is stored under it. -/
theorem getEntry_eq_ok :
    q.getEntry i = .ok e ↔ q.entries.get? i = some e := by
  unfold getEntry
  cases q.entries.get? i <;> simp

/-- And is then answered with what is stored. -/
theorem get_of_get? (h : q.entries.get? i = some e) :
    q.get i = .ok e.reservation := by
  unfold get
  rw [getEntry_eq_ok.2 h]
  rfl

/-- Whoever gets an entry as its owner is its owner. -/
theorem getOwned_ok {session : SessionId}
    (h : q.getOwned i session = .ok e) :
    q.entries.get? i = some e
      ∧ e.reservation.owner.session = session := by
  unfold getOwned at h
  cases hg : q.getEntry i with
  | error r => rw [hg] at h; cases h
  | ok e₀ =>
    rw [hg] at h
    dsimp only [bind, Except.bind] at h
    split at h
    · cases h
    · next hown =>
      cases h
      refine ⟨getEntry_eq_ok.1 hg, QueueEntry.isOwnedBy_iff.1 ?_⟩
      simpa using hown

/-- A reservation as it is created, with its entry. -/
theorem create_ok {owner : Holder} {filters : List ResourcePattern}
    {priority : Int} {now : Moment} {r : Reservation}
    (h : q.create owner filters priority now = .ok (r, q')) :
    filters ≠ [] ∧ r = .new (q.created + 1) owner filters priority now.date
      ∧ q' = { q with
          entries := q.entries.insert r.id
            { reservation := r, arrival := q.arrivals + 1
              graceDeadline := none
              pollDeadline := now.ticks + q.pollTimeout
              retireAt := none }
          created := q.created + 1
          arrivals := q.arrivals + 1 } := by
  unfold create at h
  split at h
  · cases h
  · next hne =>
    cases h
    exact ⟨by simpa using hne, rfl, rfl⟩

/-- A cancellation: the session's own entry, finished already or pending
and finished by it. -/
theorem cancel_ok {session : SessionId} {now : Moment}
    {out : Option Reservation}
    (h : q.cancel i session now = .ok (out, q')) :
    ∃ e, q.entries.get? i = some e
      ∧ e.reservation.owner.session = session
      ∧ ((e.reservation.state.isPending = false ∧ out = none ∧ q' = q)
        ∨ (e.reservation.state.isPending = true
          ∧ out = some (e.moved .cancelled).reservation
          ∧ q' = { q with
              entries := q.entries.insert i
                { e.moved .cancelled with
                  retireAt := some (now.ticks + q.pollTimeout) } })) := by
  unfold cancel at h
  cases hg : q.getOwned i session with
  | error r => rw [hg] at h; cases h
  | ok e =>
    rw [hg] at h
    obtain ⟨he, ho⟩ := getOwned_ok hg
    refine ⟨e, he, ho, ?_⟩
    cases hp : e.reservation.state.isPending with
    | false =>
      simp only [bind, Except.bind, hp, Bool.not_false, if_true] at h
      cases h
      exact Or.inl ⟨rfl, rfl, rfl⟩
    | true =>
      simp only [bind, Except.bind, hp, Bool.not_true, Bool.false_eq_true,
        if_false] at h
      cases h
      exact Or.inr ⟨rfl, rfl, rfl⟩

/-- A poll moves the deadline of a pending entry and nothing else. -/
theorem poll_ok {session : SessionId} {now : Moment} {r : Reservation}
    (h : q.poll i session now = .ok (r, q')) :
    ∃ e, q.entries.get? i = some e
      ∧ e.reservation.owner.session = session ∧ r = e.reservation
      ∧ ((e.reservation.state.isPending = false ∧ q' = q)
        ∨ (e.reservation.state.isPending = true
          ∧ q' = { q with
              entries := q.entries.insert i
                { e with
                  pollDeadline := now.ticks + q.pollTimeout } })) := by
  unfold poll at h
  cases hg : q.getOwned i session with
  | error r => rw [hg] at h; cases h
  | ok e =>
    rw [hg] at h
    obtain ⟨he, ho⟩ := getOwned_ok hg
    refine ⟨e, he, ho, ?_⟩
    cases hp : e.reservation.state.isPending with
    | false =>
      simp only [bind, Except.bind, hp, Bool.false_eq_true, if_false] at h
      cases h
      exact ⟨rfl, Or.inl ⟨rfl, rfl⟩⟩
    | true =>
      simp only [bind, Except.bind, hp, if_true] at h
      cases h
      exact ⟨rfl, Or.inr ⟨rfl, rfl⟩⟩

-- ================================================ what operations report

/-- A follower hears of a new reservation. -/
theorem pending?_create {owner : Holder} {filters : List ResourcePattern}
    {priority : Int} {now : Moment} {r : Reservation}
    (h : q.create owner filters priority now = .ok (r, q'))
    (id : String) :
    q'.pending? id = told id (q.pending? id) [r] := by
  obtain ⟨-, hr, hq⟩ := create_ok h
  exact pending?_insert (e :=
    { reservation := r, arrival := q.arrivals + 1, graceDeadline := none
      pollDeadline := now.ticks + q.pollTimeout, retireAt := none })
    (congrArg entries hq) id

/-- And of one that is cancelled, if it was pending. -/
theorem pending?_cancel (hf : q.Filed) {session : SessionId}
    {now : Moment} {r : Reservation}
    (h : q.cancel i session now = .ok (some r, q')) (id : String) :
    q'.pending? id = told id (q.pending? id) [r] := by
  obtain ⟨e, he, -, ⟨-, hr, -⟩ | ⟨-, hr, hq⟩⟩ := cancel_ok h
  · cases hr
  · cases hr
    have hi := hf i e he
    subst hi
    exact pending?_insert (e := { e.moved .cancelled with
      retireAt := some (now.ticks + q.pollTimeout) })
      (congrArg entries hq) id

/-- A poll reports nothing: it changes no reservation. -/
theorem pending?_poll {session : SessionId} {now : Moment}
    {r : Reservation} (h : q.poll i session now = .ok (r, q'))
    (id : String) : q'.pending? id = q.pending? id := by
  obtain ⟨e, he, -, -, ⟨-, rfl⟩ | ⟨-, rfl⟩⟩ := poll_ok h
  · rfl
  · unfold pending?
    rw [Table.get?_insert]
    split
    · next hi =>
      rw [← hi, he]
      rfl
    · rfl

-- ===================================================== a session that ends

/-- What is left are the reservations of the others. -/
theorem get?_removeSession {session : SessionId} :
    (q.removeSession session).2.entries.get? i = some e ↔
      q.entries.get? i = some e
        ∧ e.reservation.owner.session ≠ session := by
  unfold removeSession
  rw [Table.get?_filter, Option.filter_eq_some_iff]
  rw [Bool.not_eq_true', ← Bool.not_eq_true, QueueEntry.isOwnedBy_iff]

/-- Entries that go: some are reported in a final state, and the others
were in one. -/
theorem pending?_filter (h : q.Filed) {stays reported : QueueEntry → Bool}
    {final : ReservationState} (hfinal : final.isPending = false)
    (hgo : ∀ e, reported e = true → stays e = false)
    (hquiet : ∀ i e, q.entries.get? i = some e → reported e = false →
      stays e = false → e.reservation.state.isPending = false)
    (id : String) :
    pending? { q with entries := q.entries.filter fun _ e => stays e } id
      = told id (q.pending? id) ((q.all.filter reported).map fun e =>
          e.reservation.transition final) := by
  have hids : ((q.all.filter reported).map fun e =>
        e.reservation.transition final).map (·.id)
      = (q.all.filter reported).map (·.id) := by
    rw [List.map_map]
    rfl
  have hnd : (((q.all.filter reported).map fun e =>
      e.reservation.transition final).map (·.id)).Nodup := by
    rw [hids]
    exact h.nodup_ids.sublist (List.filter_sublist.map _)
  show pendingOnly (Option.map _ ((q.entries.filter _).get? id)) = _
  rw [Table.get?_filter]
  by_cases hmem : id ∈ (q.all.filter reported).map (·.id)
  · obtain ⟨e, he, rfl⟩ := List.mem_map.1 hmem
    have hrep : e.reservation.transition final
        ∈ (q.all.filter reported).map fun e =>
            e.reservation.transition final := List.mem_map_of_mem he
    obtain ⟨he, hr⟩ := List.mem_filter.1 he
    have htold := told_of_mem (q.pending? e.id) hnd hrep
    have hid : (e.reservation.transition final).id = e.id := rfl
    have hstate : (e.reservation.transition final).state = final := rfl
    rw [hid] at htold
    rw [htold, h.mem_all.1 he, Option.filter_some, hgo e hr]
    simp [pendingOnly, Option.filter_some, hstate, hfinal]
  · rw [told_of_notMem (hids ▸ hmem)]
    unfold pending?
    cases hget : q.entries.get? id with
    | none => rfl
    | some e =>
      have hr : reported e = false := by
        rw [← Bool.not_eq_true]
        intro hr
        refine hmem (List.mem_map.2 ⟨e, ?_, h id e hget⟩)
        exact List.mem_filter.2 ⟨Queue.mem_all.2 ⟨id, hget⟩, hr⟩
      rw [Option.filter_some]
      cases hs : stays e with
      | true => rfl
      | false =>
        have hp := hquiet id e hget hr hs
        simp [pendingOnly, Option.filter_some, hp]

/-- Those of the session that were pending are reported as cancelled. -/
theorem pending?_removeSession (h : q.Filed) (session : SessionId)
    (id : String) :
    (q.removeSession session).2.pending? id
      = told id (q.pending? id) (q.removeSession session).1 := by
  refine pending?_filter h rfl ?_ ?_ id
  · intro e he
    rw [Bool.and_eq_true] at he
    rw [he.1]
    rfl
  · intro i e _ hr hs
    rw [Bool.not_eq_false'] at hs
    rw [hs, Bool.true_and] at hr
    exact hr

-- ============================================================ deadlines

/-- An allocation lapses at its deadline. -/
theorem isLapsed_iff {now : Moment} :
    isLapsed now e = true ↔ e.reservation.state = .allocated
      ∧ ∃ d, e.graceDeadline = some d ∧ d ≤ now.ticks := by
  unfold isLapsed
  rw [Bool.and_eq_true, QueueEntry.isAllocated_iff, Option.any_eq_true]
  simp

/-- A reservation that waits expires at its own. -/
theorem isUnpolled_iff {now : Moment} :
    isUnpolled now e = true ↔ e.reservation.state = .waiting
      ∧ e.pollDeadline ≤ now.ticks := by
  unfold isUnpolled
  rw [Bool.and_eq_true, QueueEntry.isWaiting_iff, decide_eq_true_iff]

/-- What is pending is not to be forgotten. -/
theorem isRetired_of_pending (hs : e.Sound)
    (hp : e.reservation.state.isPending = true) (now : Moment) :
    isRetired now e = false := by
  have hnone : e.retireAt = none := by
    rw [← Option.not_isSome_iff_eq_none, hs.retire]
    rintro (hdone | hdone)
    · rw [hdone] at hp
      cases hp
    · rw [hdone] at hp
      cases hp
  unfold isRetired
  rw [hnone]
  rfl

/-- An entry whose allocation lapsed waits again, at the end of the queue
and with a full lifetime. -/
theorem get?_lapseAll {now : Moment} {es : List QueueEntry}
    (h : (lapseAll now q es).2.entries.get? i = some e') :
    (∃ e ∈ es, e.id = i ∧ ∃ arrival,
        e' = { e.moved .waiting with
          arrival, pollDeadline := now.ticks + q.pollTimeout })
      ∨ (i ∉ es.map (·.id) ∧ q.entries.get? i = some e') := by
  induction es generalizing q with
  | nil => exact Or.inr ⟨by simp, h⟩
  | cons e rest ih =>
    rcases ih h with ⟨e₀, hmem, hid, hback⟩ | ⟨hnot, hget⟩
    · exact Or.inl ⟨e₀, List.mem_cons_of_mem _ hmem, hid, hback⟩
    · have hget' : (q.put { e.moved .waiting with
            arrival := q.arrivals + 1
            pollDeadline := now.ticks + q.pollTimeout }).entries.get? i
          = some e' := hget
      rw [get?_put] at hget'
      split at hget'
      · next hid =>
        cases hget'
        exact Or.inl ⟨e, List.mem_cons_self, hid, q.arrivals + 1, rfl⟩
      · next hid =>
        refine Or.inr ⟨?_, hget'⟩
        rw [List.map_cons, List.mem_cons, not_or]
        exact ⟨Ne.symm hid, hnot⟩

/-- An allocation that has not lapsed stays as it is. -/
theorem get?_lapseAll_of_notMem {now : Moment} {es : List QueueEntry}
    (h : i ∉ es.map (·.id)) :
    (lapseAll now q es).2.entries.get? i = q.entries.get? i := by
  induction es generalizing q with
  | nil => rfl
  | cons e rest ih =>
    rw [List.map_cons, List.mem_cons, not_or] at h
    refine (ih h.2).trans ?_
    exact get?_put.trans (if_neg (Ne.symm h.1))

/-- All that lapse are reported as waiting, in order. -/
theorem lapseAll_reports (now : Moment) (q : Queue)
    (es : List QueueEntry) :
    (lapseAll now q es).1
      = es.map fun e => e.reservation.transition .waiting := by
  induction es generalizing q with
  | nil => rfl
  | cons e rest ih => exact congrArg (List.cons _) (ih _)

/-- A follower hears of everybody who is put back. -/
theorem pending?_lapseAll (now : Moment) (es : List QueueEntry)
    (q : Queue) (id : String) :
    (lapseAll now q es).2.pending? id
      = told id (q.pending? id) (lapseAll now q es).1 := by
  induction es generalizing q with
  | nil => rfl
  | cons e rest ih =>
    have hone : (lapse now q e).2.pending? id
        = told id (q.pending? id) [(lapse now q e).1] :=
      pending?_put q _ id
    show (lapseAll now (lapse now q e).2 rest).2.pending? id
      = told id (q.pending? id)
          ([(lapse now q e).1] ++ (lapseAll now (lapse now q e).2 rest).1)
    rw [ih, hone, told_append]

/-- The entries that a check of deadlines leaves where they are, lapsed
ones included. -/
def kept (now : Moment) (q : Queue) : Queue :=
  { q with entries := q.entries.filter fun _ e =>
      isLapsed now e || !(isUnpolled now e || isRetired now e) }

/-- A check of deadlines in closed form: the expired are reported before
those that are put back. -/
theorem expire_eq (q : Queue) (now : Moment) :
    q.expire now
      = ({ changed :=
            (q.all.filter (isUnpolled now)).map
                (fun e => e.reservation.transition .expired)
              ++ (lapseAll now (q.kept now)
                (q.all.filter (isLapsed now))).1
           reverted := (q.all.filter (isLapsed now)).map (·.id) },
        (lapseAll now (q.kept now) (q.all.filter (isLapsed now))).2) :=
  rfl

/-- Who is put back, by what is stored. -/
theorem mem_reverted (hf : q.Filed) {now : Moment} :
    i ∈ (q.expire now).1.reverted ↔
      ∃ e, q.entries.get? i = some e ∧ isLapsed now e = true := by
  rw [expire_eq]
  dsimp only
  rw [List.mem_map]
  constructor
  · rintro ⟨e, he, rfl⟩
    obtain ⟨hall, hl⟩ := List.mem_filter.1 he
    exact ⟨e, hf.mem_all.1 hall, hl⟩
  · rintro ⟨e, he, hl⟩
    exact ⟨e, List.mem_filter.2 ⟨mem_all.2 ⟨i, he⟩, hl⟩, hf i e he⟩

/-- Without a report nobody is put back. -/
theorem expire_of_nil {now : Moment}
    (h : (q.expire now).1.changed = []) :
    (q.expire now).1.reverted = [] ∧ (q.expire now).2 = q.kept now := by
  rw [expire_eq] at h ⊢
  have hback := (List.append_eq_nil_iff.1 h).2
  cases hl : q.all.filter (isLapsed now) with
  | nil => exact ⟨rfl, rfl⟩
  | cons e rest =>
    rw [hl] at hback
    cases hback

/-- What is allocated stays. -/
theorem get?_kept_of_allocated {now : Moment} (hs : e.Sound)
    (he : q.entries.get? i = some e)
    (ha : e.reservation.state = .allocated) :
    (q.kept now).entries.get? i = some e := by
  have hu : isUnpolled now e = false := by
    rw [← Bool.not_eq_true, isUnpolled_iff, ha]
    simp
  have hr : isRetired now e = false :=
    isRetired_of_pending hs (by rw [ha]; rfl) now
  unfold kept
  rw [Table.get?_filter, he, Option.filter_some, hu, hr]
  simp

/-- An entry after a check of deadlines: its allocation lapsed, or nothing
was due. -/
theorem get?_expire (hf : q.Filed) {now : Moment}
    (h : (q.expire now).2.entries.get? i = some e') :
    ∃ e, q.entries.get? i = some e
      ∧ ((isLapsed now e = true ∧ ∃ arrival,
            e' = { e.moved .waiting with
              arrival, pollDeadline := now.ticks + q.pollTimeout })
        ∨ (isLapsed now e = false ∧ isUnpolled now e = false
            ∧ isRetired now e = false ∧ e' = e)) := by
  rw [expire_eq] at h
  rcases get?_lapseAll h with ⟨e, he, hid, hback⟩ | ⟨hnot, hget⟩
  · obtain ⟨hall, hl⟩ := List.mem_filter.1 he
    refine ⟨e, hid ▸ hf.mem_all.1 hall, Or.inl ⟨hl, hback⟩⟩
  · unfold kept at hget
    rw [Table.get?_filter, Option.filter_eq_some_iff] at hget
    obtain ⟨hget, hstay⟩ := hget
    have hl : isLapsed now e' = false := by
      rw [← Bool.not_eq_true]
      intro hl
      refine hnot (List.mem_map.2 ⟨e', ?_, hf i e' hget⟩)
      exact List.mem_filter.2 ⟨Queue.mem_all.2 ⟨i, hget⟩, hl⟩
    rw [hl, Bool.false_or, Bool.not_eq_true', Bool.or_eq_false_iff]
      at hstay
    exact ⟨e', hget, Or.inr ⟨hl, hstay.1, hstay.2, rfl⟩⟩

/-- A follower hears of all that a check of deadlines changes. What it
forgets in silence was finished, by the invariant of each entry. -/
theorem pending?_expire (hf : q.Filed)
    (hs : ∀ i e, q.entries.get? i = some e → e.Sound) (now : Moment)
    (id : String) :
    (q.expire now).2.pending? id
      = told id (q.pending? id) (q.expire now).1.changed := by
  rw [expire_eq]
  show (lapseAll now (q.kept now) _).2.pending? id
    = told id (q.pending? id) (_ ++ _)
  rw [pending?_lapseAll, told_append]
  congr 1
  refine pending?_filter hf rfl ?_ ?_ id
  · intro e hu
    have hl : isLapsed now e = false := by
      rw [← Bool.not_eq_true, isLapsed_iff, (isUnpolled_iff.1 hu).1]
      simp
    rw [hl, hu]
    rfl
  · -- forgotten without a report, hence finished
    intro i e he hu hstay
    rw [hu, Bool.false_or, Bool.or_eq_false_iff,
      Bool.not_eq_false'] at hstay
    have hat : e.retireAt.isSome = true := by
      obtain ⟨d, hd, -⟩ := (Option.any_eq_true _ _).1 hstay.2
      rw [hd]
      rfl
    rcases (hs i e he).retire.1 hat with h | h <;> rw [h] <;> rfl

end Queue

end LabLease
