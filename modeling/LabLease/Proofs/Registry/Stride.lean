/-
The life of a reservation in its reports: what one report may say after
another, and what an operation of the queue may make of one reservation.

# Strides

A reservation is stored under an id until it is forgotten. `Stride` is
all that an operation can make of what is stored under one id beside what
it reports of it: nothing, a first report of what is stored from now on,
one report that is the successor of what was stored, or the silent end of
what was finished. No operation reports a reservation twice, and none
changes one without a report.

# Lives

The strides of any operations in a row make a life (`Queue.Lived`): the
reports go from successor to successor, and the last one is what is
stored, or is final if nothing is. A life does not begin twice, because a
first report uses up an id for good.
-/
import LabLease.Proofs.Registry.Spell
import Mathlib.Data.List.Chain

namespace LabLease

-- ============================================================= successors

/-- The states in which two reports in a row may find a reservation. -/
def ReservationState.steps : List (ReservationState × ReservationState) :=
  [(.waiting, .allocated), (.waiting, .expired), (.waiting, .cancelled),
    (.allocated, .waiting), (.allocated, .acquired),
    (.allocated, .cancelled)]

namespace Reservation

/-- `r'` is the next report of the reservation that `r` reports. -/
structure Succeeds (r' r : Reservation) : Prop where
  id : r'.id = r.id
  owner : r'.owner = r.owner
  filters : r'.filters = r.filters
  priority : r'.priority = r.priority
  version : r'.version = r.version + 1
  step : (r.state, r'.state) ∈ ReservationState.steps

/-- A reservation as it is reported first. -/
structure IsFirst (r : Reservation) : Prop where
  version : r.version = 1
  waiting : r.state = .waiting
  allocations : r.allocations = []

variable {r r' : Reservation}

theorem Succeeds.transition {state : ReservationState}
    (h : (r.state, state) ∈ ReservationState.steps) :
    (r.transition state).Succeeds r :=
  ⟨rfl, rfl, rfl, rfl, rfl, h⟩

theorem Succeeds.allocated (h : r.state = .waiting)
    (ids : List ResourceId) :
    Succeeds { r.transition .allocated with allocations := ids } r := by
  refine ⟨rfl, rfl, rfl, rfl, rfl, ?_⟩
  show (r.state, ReservationState.allocated) ∈ ReservationState.steps
  rw [h]
  decide

/-- A pending reservation can be cancelled. -/
theorem Succeeds.cancelled (h : r.state.isPending = true) :
    (r.transition .cancelled).Succeeds r := by
  refine .transition ?_
  generalize r.state = state at h
  cases state with
  | waiting | allocated => decide
  | acquired | expired | cancelled => cases h

/-- Nothing succeeds a final report. -/
theorem Succeeds.not_final (h : r'.Succeeds r) :
    ¬ r.state.isFinal = true := by
  have hstep := h.step
  generalize r'.state = state' at hstep
  generalize r.state = state at hstep ⊢
  cases state with
  | waiting | allocated => exact nofun
  | acquired | expired | cancelled =>
    exact absurd hstep (by cases state' <;> decide)

end Reservation

-- ================================================================ strides

/-- The reservation that is stored under an id. -/
def Queue.stored? (q : Queue) (id : String) : Option Reservation :=
  (q.entries.get? id).map (·.reservation)

/-- What an operation may make of the reservation under one id, and
report of it. `Opens` is whether it may use the id for a new one. -/
inductive Stride (Opens : Prop) :
    Option Reservation → List Reservation → Option Reservation → Prop
  | quiet {a : Option Reservation} : Stride Opens a [] a
  | begun {r : Reservation} (hopens : Opens) (h : r.IsFirst) :
    Stride Opens none [r] (some r)
  | changed {r r' : Reservation} (h : r'.Succeeds r) :
    Stride Opens (some r) [r'] (some r')
  | ended {r r' : Reservation} (h : r'.Succeeds r)
      (hfinal : r'.state.isFinal = true) : Stride Opens (some r) [r'] none
  | forgotten {r : Reservation} (hfinal : r.state.isFinal = true) :
    Stride Opens (some r) [] none

/-- What a rescan makes of the reservation under one id, and reports of
it: nothing, or it waited and is served. -/
inductive Offer :
    Option Reservation → List Reservation → Option Reservation → Prop
  | quiet {a : Option Reservation} : Offer a [] a
  | served {r r' : Reservation} (h : r'.Succeeds r)
      (ha : r'.state = .allocated) : Offer (some r) [r'] (some r')

namespace Offer

variable {a b c : Option Reservation} {rs rs' : List Reservation}

theorem stride {Opens : Prop} (h : Offer a rs b) : Stride Opens a rs b := by
  cases h with
  | quiet => exact .quiet
  | served h => exact .changed h

/-- What is stored stays stored, for the same owner. -/
theorem of_some {r : Reservation} (h : Offer (some r) rs b) :
    ∃ r', b = some r' ∧ r'.owner = r.owner
      ∧ (rs = [] ∨ rs = [r'] ∧ r'.state = .allocated) := by
  cases h with
  | quiet => exact ⟨r, rfl, rfl, Or.inl rfl⟩
  | served h ha => exact ⟨_, rfl, h.owner, Or.inr ⟨rfl, ha⟩⟩

/-- Nobody is served twice. -/
theorem trans (h : Offer a rs b) (h' : Offer b rs' c) :
    Offer a (rs ++ rs') c := by
  cases h with
  | quiet => exact h'
  | served h ha =>
    cases h' with
    | quiet => exact .served h ha
    | served h' ha' =>
      have hstep := h'.step
      rw [ha, ha'] at hstep
      exact absurd hstep (by decide)

end Offer

namespace Queue

variable {q q' : Queue} {i : String} {e e' : QueueEntry}

/-- Whether an id is the one that a creation between two queues used. -/
def Opens (q q' : Queue) (i : String) : Prop :=
  i = Reservation.idOf (q.created + 1) ∧ q'.created = q.created + 1

/-- What an operation that reports `rs` makes of every reservation. -/
structure Strides (q : Queue) (rs : List Reservation) (q' : Queue) :
    Prop where
  created : q.created ≤ q'.created
  stride : ∀ i, Stride (q.Opens q' i) (q.stored? i) (reportsOf i rs)
    (q'.stored? i)

theorem stored?_of_get? (h : q.entries.get? i = some e) :
    q.stored? i = some e.reservation := by
  unfold stored?
  rw [h]
  rfl

theorem stored?_of_none (h : q.entries.get? i = none) :
    q.stored? i = none := by
  unfold stored?
  rw [h]
  rfl

theorem stored?_eq_some {r : Reservation} :
    q.stored? i = some r ↔
      ∃ e, q.entries.get? i = some e ∧ e.reservation = r :=
  Option.map_eq_some_iff

theorem stored?_of_mem_list (hf : q.Filed) {r : Reservation}
    (hr : r ∈ q.list) : q.stored? r.id = some r := by
  obtain ⟨e, he, rfl⟩ := List.mem_map.1 hr
  exact stored?_of_get? (hf.mem_all.1 (List.mem_mergeSort.1 he))

theorem mem_list_of_stored? {r : Reservation}
    (hr : q.stored? i = some r) : r ∈ q.list := by
  obtain ⟨e, he, rfl⟩ := stored?_eq_some.1 hr
  refine List.mem_map_of_mem (List.mem_mergeSort.2 ?_)
  exact mem_all.2 ⟨i, he⟩

theorem stored?_of_get {r : Reservation} (hr : q.get i = .ok r) :
    q.stored? i = some r := by
  unfold get at hr
  cases he : q.getEntry i with
  | error e =>
    rw [he] at hr
    cases hr
  | ok e =>
    rw [he] at hr
    cases hr
    exact stored?_of_get? (getEntry_eq_ok.1 he)

theorem id_of_stored? (hf : q.Filed) {r : Reservation}
    (hr : q.stored? i = some r) : r.id = i := by
  obtain ⟨e, he, rfl⟩ := stored?_eq_some.1 hr
  exact hf i e he

/-- Whoever owns what is stored may ask for it. -/
theorem getOwned_of_get? (he : q.entries.get? i = some e) :
    q.getOwned i e.reservation.owner.session = .ok e := by
  have hown : e.isOwnedBy e.reservation.owner.session = true :=
    QueueEntry.isOwnedBy_iff.2 rfl
  unfold getOwned
  rw [getEntry_eq_ok.2 he]
  dsimp only [bind, Except.bind]
  rw [hown]
  rfl

theorem poll_of_get? (he : q.entries.get? i = some e) (now : Moment) :
    ∃ q', q.poll i e.reservation.owner.session now
      = .ok (e.reservation, q') := by
  unfold poll
  rw [getOwned_of_get? he]
  dsimp only [bind, Except.bind]
  split <;> exact ⟨_, rfl⟩

theorem cancel_of_get? (he : q.entries.get? i = some e) (now : Moment) :
    ∃ out q', q.cancel i e.reservation.owner.session now
      = .ok (out, q') := by
  unfold cancel
  rw [getOwned_of_get? he]
  dsimp only [bind, Except.bind]
  split <;> exact ⟨_, _, rfl⟩

/-- One entry is put in. -/
theorem stored?_insert (q : Queue) (i : String) (e : QueueEntry)
    (j : String) :
    stored? { q with entries := q.entries.insert i e } j
      = if i = j then some e.reservation else q.stored? j := by
  unfold stored?
  rw [Table.get?_insert]
  split <;> rfl

theorem Strides.refl (q : Queue) : q.Strides [] q :=
  ⟨Nat.le_refl _, fun _ => .quiet⟩

/-- A report for the entry that is put in, and no other. -/
theorem reportsOf_singleton (r : Reservation) (i : String) :
    reportsOf i [r] = if r.id = i then [r] else [] := by
  unfold reportsOf
  rw [List.filter_cons, List.filter_nil]
  simp only [decide_eq_true_eq]

-- ================================================================ rescans

/-- A rescan of one reservation: it is as it was, or it waited and is
reported with what is set aside for it. -/
theorem rescan_offer (hq : q.Filed) {inv : Inventory} (hf : inv.Filed)
    (free : Resource → Bool) (skip : List String) (now : Moment)
    (i : String) :
    Offer (q.stored? i) (reportsOf i (q.rescan inv free skip now).1)
      ((q.rescan inv free skip now).2.stored? i) := by
  rw [rescan_eq]
  have hids : ((q.served inv free skip now).map (·.reservation)).map (·.id)
      = (q.served inv free skip now).map (·.id) := List.map_map
  have hnd := hq.nodup_served inv free skip now
  by_cases hmem : i ∈ (q.served inv free skip now).map (·.id)
  · obtain ⟨e', he', rfl⟩ := List.mem_map.1 hmem
    obtain ⟨e, ids, hall, hw, -, rfl, -⟩ := (served_of_mem hf he').origin
    have hone := reportsOf_of_mem (hids ▸ hnd) (List.mem_map_of_mem he')
    have hafter := get?_foldl_put_of_mem (q := q) hnd he'
    rw [QueueEntry.allocated_id] at hafter ⊢
    rw [show reportsOf e.id _ = _ from hone,
      stored?_of_get? (hq.mem_all.1 hall), stored?_of_get? hafter]
    exact .served (.allocated hw ids) rfl
  · have hsame : stored? ((q.served inv free skip now).foldl put q) i
        = q.stored? i :=
      congrArg (Option.map _) (get?_foldl_put_of_notMem hmem)
    rw [reportsOf_of_notMem (hids ▸ hmem), hsame]
    exact .quiet

theorem rescan_strides (hq : q.Filed) {inv : Inventory} (hf : inv.Filed)
    (free : Resource → Bool) (skip : List String) (now : Moment) :
    q.Strides (q.rescan inv free skip now).1
      (q.rescan inv free skip now).2 := by
  refine ⟨?_, fun i => (rescan_offer hq hf free skip now i).stride⟩
  rw [rescan_eq]
  exact Nat.le_of_eq (Steady.foldl_put _ q).created.symm

-- ==================================================== entries that change

theorem changeWhere_strides (h : q.Filed) {test : QueueEntry → Bool}
    {f : QueueEntry → QueueEntry} (hf : ∀ e, (f e).id = e.id)
    (hnext : ∀ e, test e = true →
      (f e).reservation.Succeeds e.reservation) :
    q.Strides (q.changeWhere test f).1 (q.changeWhere test f).2 := by
  refine ⟨Nat.le_refl _, fun i => ?_⟩
  have hlist : (q.changeWhere test f).1
      = (q.all.filter test).map fun e => (f e).reservation :=
    List.map_map
  rw [hlist, reportsOf_picked h test hf i]
  unfold stored?
  rw [get?_entries_changeWhere]
  cases he : q.entries.get? i with
  | none => exact .quiet
  | some e =>
    by_cases htest : test e = true
    · rw [Option.filter_some, if_pos htest, Option.map_some,
        Option.map_some, if_pos htest]
      exact .changed (hnext e htest)
    · rw [Option.filter_some, if_neg htest, Option.map_some,
        Option.map_some, if_neg htest]
      exact .quiet

theorem convert_strides (h : q.Filed) (session : SessionId)
    (bound : List ResourceId) (now : Moment) :
    q.Strides (q.convert session bound now).1
      (q.convert session bound now).2 := by
  refine changeWhere_strides h (fun _ => rfl) fun e htest => ?_
  obtain ⟨ha, -⟩ :=
    QueueEntry.holdsAny_iff.1 (Bool.and_eq_true_iff.1 htest).2
  refine .transition ?_
  rw [ha]
  decide

theorem invalidate_strides (h : q.Filed) (removed : List ResourceId) :
    q.Strides (q.invalidate removed).1 (q.invalidate removed).2 := by
  refine changeWhere_strides h (fun _ => rfl) fun e htest => ?_
  refine .transition ?_
  rw [(QueueEntry.holdsAny_iff.1 htest).1]
  decide

-- ==================================================== what a session asks

/-- A creation opens the next id. -/
theorem create_strides (hfresh : q.Fresh) {owner : Holder}
    {filters : List ResourcePattern} {priority : Int} {now : Moment}
    {r : Reservation}
    (h : q.create owner filters priority now = .ok (r, q')) :
    q.Strides [r] q' := by
  obtain ⟨-, rfl, rfl⟩ := create_ok h
  refine ⟨Nat.le_succ _, fun i => ?_⟩
  rw [reportsOf_singleton]
  refine Eq.subst (motive := Stride _ _ _)
    (stored?_insert q (Reservation.idOf (q.created + 1)) _ i).symm ?_
  by_cases hi : Reservation.idOf (q.created + 1) = i
  · subst hi
    rw [if_pos rfl, stored?_of_none (hfresh _ (Nat.lt_succ_self _))]
    refine Eq.subst (motive := fun rs => Stride _ _ rs _)
      (if_pos rfl).symm ?_
    exact .begun ⟨rfl, rfl⟩ ⟨rfl, rfl, rfl⟩
  · rw [if_neg hi]
    refine Eq.subst (motive := fun rs => Stride _ _ rs _)
      (if_neg hi).symm .quiet

theorem cancel_strides (hf : q.Filed) {id : String} {session : SessionId}
    {now : Moment} {r : Reservation}
    (h : q.cancel id session now = .ok (some r, q')) :
    q.Strides [r] q' := by
  obtain ⟨e, he, -, ⟨-, hnone, -⟩ | ⟨hpending, hsome, rfl⟩⟩ := cancel_ok h
  · cases hnone
  cases hsome
  have hid : (e.moved .cancelled).reservation.id = id := hf id e he
  refine ⟨Nat.le_refl _, fun i => ?_⟩
  rw [reportsOf_singleton, hid, stored?_insert]
  by_cases hi : id = i
  · subst hi
    rw [if_pos rfl, if_pos rfl, stored?_of_get? he]
    exact .changed (.cancelled hpending)
  · rw [if_neg hi, if_neg hi]
    exact .quiet

/-- A poll changes a deadline only. -/
theorem poll_stored? {id : String} {session : SessionId} {now : Moment}
    {r : Reservation} (h : q.poll id session now = .ok (r, q'))
    (i : String) : q'.stored? i = q.stored? i := by
  obtain ⟨e, he, -, -, ⟨-, rfl⟩ | ⟨-, rfl⟩⟩ := poll_ok h
  · rfl
  · rw [stored?_insert]
    split
    · next hi =>
      subst hi
      exact (stored?_of_get? he).symm
    · rfl

theorem poll_strides {id : String} {session : SessionId} {now : Moment}
    {r : Reservation} (h : q.poll id session now = .ok (r, q')) :
    q.Strides [] q' := by
  refine ⟨Nat.le_of_eq (Steady.poll h).created.symm, fun i => ?_⟩
  rw [poll_stored? h]
  exact .quiet

-- ============================================================ deadlines

/-- What is stored under an id after a check of deadlines. -/
theorem get?_expire_of_get? (hf : q.Filed) {now : Moment}
    (he : q.entries.get? i = some e) (hl : ¬ isLapsed now e = true) :
    (q.expire now).2.entries.get? i
      = if isUnpolled now e || isRetired now e then none else some e := by
  have hnot : i ∉ (q.all.filter (isLapsed now)).map (·.id) := by
    intro hin
    obtain ⟨f, hmem, hid⟩ := List.mem_map.1 hin
    obtain ⟨hall, hl'⟩ := List.mem_filter.1 hmem
    have hget := hf.mem_all.1 hall
    rw [hid, he] at hget
    cases hget
    exact hl hl'
  rw [Bool.not_eq_true] at hl
  have hkept : (q.kept now).entries.get? i
      = if isUnpolled now e || isRetired now e then none else some e := by
    unfold kept
    rw [Table.get?_filter, he, Option.filter_some, hl, Bool.false_or]
    cases isUnpolled now e || isRetired now e <;> rfl
  exact (get?_lapseAll_of_notMem hnot).trans hkept

/-- Whoever waits stays unless it is overdue. -/
theorem get?_expire_of_waiting (hf : q.Filed) (hs : e.Sound)
    (he : q.entries.get? i = some e)
    (hw : e.reservation.state = .waiting) (now : Moment) :
    (q.expire now).2.entries.get? i
      = if isUnpolled now e then none else some e := by
  have hl : ¬ isLapsed now e = true := by
    rw [isLapsed_iff, hw]
    exact nofun
  have hr : isRetired now e = false :=
    isRetired_of_pending hs (by rw [hw]; rfl) now
  rw [get?_expire_of_get? hf he hl, hr, Bool.or_false]

theorem expire_strides (hf : q.Filed)
    (hs : ∀ i e, q.entries.get? i = some e → e.Sound) (now : Moment) :
    q.Strides (q.expire now).1.changed (q.expire now).2 := by
  refine ⟨Nat.le_of_eq (Steady.expire q now).created.symm, fun i => ?_⟩
  cases he : q.entries.get? i with
  | none =>
    have hafter : (q.expire now).2.entries.get? i = none := by
      rw [Option.eq_none_iff_forall_ne_some]
      intro e' he'
      obtain ⟨e, hget, -⟩ := get?_expire hf he'
      rw [he] at hget
      cases hget
    rw [reportsOf_expire hf, he, stored?_of_none he,
      stored?_of_none hafter]
    exact .quiet
  | some e =>
    rw [stored?_of_get? he]
    by_cases hl : isLapsed now e = true
    · obtain ⟨hreports, -, e', he', hr⟩ := expire_lapsed hf hs he hl
      rw [hreports, stored?_of_get? he', hr]
      refine .changed (.transition ?_)
      rw [(isLapsed_iff.1 hl).1]
      decide
    · have hafter := get?_expire_of_get? hf he hl
      rw [reportsOf_expire hf, he, Option.filter_some, Option.filter_some,
        if_neg hl]
      unfold stored?
      rw [hafter]
      by_cases hu : isUnpolled now e = true
      · rw [hu, Bool.true_or, if_pos rfl, if_pos rfl]
        refine .ended (.transition ?_) rfl
        rw [(isUnpolled_iff.1 hu).1]
        decide
      · rw [if_neg hu]
        rw [Bool.not_eq_true] at hu
        rw [hu, Bool.false_or]
        by_cases hr : isRetired now e = true
        · -- only what is finished is to be forgotten
          have hat : e.retireAt.isSome = true := by
            obtain ⟨d, hd, -⟩ := (Option.any_eq_true _ _).1 hr
            rw [hd]
            rfl
          rw [if_pos hr]
          refine .forgotten ?_
          rcases (hs i e he).retire.1 hat with h | h <;> rw [h] <;> rfl
        · rw [if_neg hr]
          exact .quiet

-- ===================================================== a session that ends

theorem get?_entries_removeSession (q : Queue) (session : SessionId)
    (i : String) :
    (q.removeSession session).2.entries.get? i
      = (q.entries.get? i).filter fun e => !e.isOwnedBy session :=
  Table.get?_filter ..

theorem reportsOf_removeSession (hf : q.Filed) (session : SessionId)
    (i : String) :
    reportsOf i (q.removeSession session).1
      = ((q.entries.get? i).filter fun e =>
          e.isOwnedBy session && e.reservation.state.isPending).toList.map
        fun e => e.reservation.transition .cancelled :=
  reportsOf_picked hf _
    (f := fun e => e.reservation.transition .cancelled) (fun _ => rfl) i

theorem removeSession_strides (hf : q.Filed) (session : SessionId) :
    q.Strides (q.removeSession session).1
      (q.removeSession session).2 := by
  refine ⟨Nat.le_refl _, fun i => ?_⟩
  unfold stored?
  rw [reportsOf_removeSession hf, get?_entries_removeSession]
  cases he : q.entries.get? i with
  | none => exact .quiet
  | some e =>
    rw [Option.filter_some, Option.filter_some]
    by_cases hown : e.isOwnedBy session = true
    · rw [hown, Bool.true_and]
      by_cases hp : e.reservation.state.isPending = true
      · rw [if_pos hp]
        exact .ended (.cancelled hp) rfl
      · rw [if_neg hp]
        refine .forgotten ?_
        generalize e.reservation.state = state at hp
        cases state with
        | waiting | allocated => exact absurd rfl hp
        | acquired | expired | cancelled => rfl
    · rw [Bool.not_eq_true] at hown
      rw [hown, Bool.false_and]
      exact .quiet

-- ================================================================== lives

/-- The reports of one id so far, beside what a queue has stored under
it. -/
structure Lived (q : Queue) (i : String) (rs : List Reservation) :
    Prop where
  first : ∀ r ∈ rs.head?, r.IsFirst
  chain : rs.IsChain fun r r' => r'.Succeeds r
  /-- What is stored was reported last. -/
  stored : ∀ r, q.stored? i = some r → rs.getLast? = some r
  gone : q.stored? i = none → ∀ r ∈ rs.getLast?, r.state.isFinal = true
  /-- An id with reports has been given away. -/
  used : rs ≠ [] → ∃ n ≤ q.created, i = Reservation.idOf n

namespace Lived

variable {rs rs' : List Reservation}

theorem new (grace poll : Nat) (i : String) :
    (Queue.new grace poll).Lived i [] :=
  ⟨nofun, .nil, nofun, nofun, fun h => absurd rfl h⟩

/-- A report more: the first, or the successor of the last. -/
theorem snoc {r : Reservation} (h : q.Lived i rs)
    (hnext : (rs = [] ∧ r.IsFirst)
      ∨ ∃ last, rs.getLast? = some last ∧ r.Succeeds last)
    (hstored : q'.stored? i = some r
      ∨ q'.stored? i = none ∧ r.state.isFinal = true)
    (hused : ∃ n ≤ q'.created, i = Reservation.idOf n) :
    q'.Lived i (rs ++ [r]) := by
  refine ⟨?_, ?_, ?_, ?_, fun _ => hused⟩
  · rcases hnext with ⟨rfl, hfirst⟩ | ⟨last, hlast, -⟩
    · rintro x hx
      cases hx
      exact hfirst
    · obtain ⟨ys, rfl⟩ := List.getLast?_eq_some_iff.1 hlast
      have hhead : ((ys ++ [last]) ++ [r]).head? = (ys ++ [last]).head? :=
        List.head?_append_of_ne_nil _ (by simp)
      rw [hhead]
      exact h.first
  · rw [List.isChain_append]
    refine ⟨h.chain, .singleton r, fun x hx y hy => ?_⟩
    cases hy
    rcases hnext with ⟨rfl, -⟩ | ⟨last, hlast, hsucc⟩
    · cases hx
    · rw [hlast] at hx
      cases hx
      exact hsucc
  · intro x hx
    rw [List.getLast?_concat]
    rcases hstored with hsome | ⟨hnone, -⟩
    · exact hsome.symm.trans hx
    · rw [hnone] at hx
      cases hx
  · intro hx y hy
    rw [List.getLast?_concat] at hy
    cases hy
    rcases hstored with hsome | ⟨-, hfinal⟩
    · rw [hsome] at hx
      cases hx
    · exact hfinal

/-- Whatever an operation makes of a reservation, its life goes on. -/
theorem strides (h : q.Lived i rs) (hq : q.Strides rs' q') :
    q'.Lived i (rs ++ reportsOf i rs') := by
  have hused : rs ≠ [] → ∃ n ≤ q'.created, i = Reservation.idOf n := by
    intro hne
    obtain ⟨n, hn, hi⟩ := h.used hne
    exact ⟨n, Nat.le_trans hn hq.created, hi⟩
  have hnonempty : ∀ r, rs.getLast? = some r → rs ≠ [] := by
    rintro r hlast rfl
    cases hlast
  have hstride := hq.stride i
  generalize hreports : reportsOf i rs' = new at hstride ⊢
  generalize hbefore : q.stored? i = a at hstride
  generalize hafter : q'.stored? i = b at hstride
  cases hstride with
  | quiet =>
    rw [List.append_nil]
    have hsame : q'.stored? i = q.stored? i := hafter.trans hbefore.symm
    exact ⟨h.first, h.chain, hsame ▸ h.stored, hsame ▸ h.gone, hused⟩
  | begun hopens hfirst =>
    obtain ⟨hid, hcreated⟩ := hopens
    -- an id with reports would have been given away before
    have hnil : rs = [] := by
      by_contra hne
      obtain ⟨n, hn, hi⟩ := h.used hne
      have heq := Reservation.idOf_injective (hi.symm.trans hid)
      omega
    refine h.snoc (Or.inl ⟨hnil, hfirst⟩) (Or.inl hafter) ⟨_, ?_, hid⟩
    exact Nat.le_of_eq hcreated.symm
  | changed hsucc =>
    have hlast := h.stored _ hbefore
    exact h.snoc (Or.inr ⟨_, hlast, hsucc⟩) (Or.inl hafter)
      (hused (hnonempty _ hlast))
  | ended hsucc hfinal =>
    have hlast := h.stored _ hbefore
    exact h.snoc (Or.inr ⟨_, hlast, hsucc⟩) (Or.inr ⟨hafter, hfinal⟩)
      (hused (hnonempty _ hlast))
  | forgotten hfinal =>
    rw [List.append_nil]
    refine ⟨h.first, h.chain, fun r hr => ?_, fun _ r hr => ?_, hused⟩
    · rw [hafter] at hr
      cases hr
    · rw [h.stored _ hbefore] at hr
      cases hr
      exact hfinal

/-- The reports are numbered. -/
theorem versions (h : q.Lived i rs) :
    rs.map (·.version) = List.range' 1 rs.length := by
  have hfrom : ∀ (rs : List Reservation) (n : Nat),
      rs.IsChain (fun r r' => r'.Succeeds r) →
      (∀ r ∈ rs.head?, r.version = n) →
      rs.map (·.version) = List.range' n rs.length := by
    intro rs
    induction rs with
    | nil => exact fun _ _ _ => rfl
    | cons r rest ih =>
      intro n hchain hhead
      have hr : r.version = n := hhead r rfl
      rw [List.map_cons, List.length_cons, List.range'_succ, hr,
        ih (n + 1) hchain.tail]
      intro x hx
      rw [((List.isChain_cons.1 hchain).1 x hx).version, hr]
  exact hfrom rs 1 h.chain fun r hr => (h.first r hr).version

/-- Two reports in a row. -/
theorem next {before after : List Reservation} {r r' : Reservation}
    (h : q.Lived i (before ++ r :: r' :: after)) : r'.Succeeds r :=
  (List.isChain_append_cons_cons.1 h.chain).2.1

/-- A final report is the last. -/
theorem last_of_final {before after : List Reservation} {r : Reservation}
    (h : q.Lived i (before ++ r :: after)) (hr : r.state.isFinal = true) :
    after = [] := by
  cases after with
  | nil => rfl
  | cons r' after => exact absurd hr h.next.not_final

end Lived

end Queue

end LabLease
