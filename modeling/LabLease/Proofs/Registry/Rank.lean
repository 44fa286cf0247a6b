/-
Serving by rank: what a rescan gives to a reservation depends on what is
set aside already and on the reservations that rank before it, and on
nothing else that waits.

# Ranks

The higher priority ranks first, then the earlier arrival. Arrivals are
counted, and only a creation or a lapse draws the next number, so no two
entries have the same one (`Counted`) and the ranks of all entries
differ. The ids by which the order of service breaks ties never decide.

# The turn, cut in two

The waiting entries are served in one row. An entry cuts the row into
those before it and those behind it (`waiting_cut`): it is bound out of
what those before it have left over (`serve_append`), and whatever goes
on behind it comes too late to matter. What the entries before it got can
be read off the queue after the rescan (`mem_given`), which is how the
outcome is stated.

# Two queues

Of the row before an entry only the reservations and their order matter.
Two queues that agree on them have the same rows there, since a sorted
row without ties is determined by what is in it (`eq_of_pairwise_before`).
-/
import LabLease.Proofs.Registry.Spell

namespace LabLease

-- =================================================================== ranks

/-- What decides when a reservation is served. -/
structure Rank where
  priority : Int
  arrival : Nat
deriving DecidableEq

namespace Rank

/-- The higher priority first, then the earlier arrival. -/
def Before (a b : Rank) : Prop :=
  b.priority < a.priority
    ∨ a.priority = b.priority ∧ a.arrival < b.arrival

instance (a b : Rank) : Decidable (a.Before b) :=
  inferInstanceAs (Decidable (_ ∨ _))

variable {a b c : Rank}

theorem Before.irrefl (a : Rank) : ¬ a.Before a := by
  unfold Before
  omega

theorem Before.asymm (h : a.Before b) : ¬ b.Before a := by
  unfold Before at h ⊢
  omega

end Rank

/-- A sorted row without ties is determined by what is in it. -/
theorem eq_of_pairwise_before {α : Type} {rank : α → Rank}
    {xs ys : List α}
    (hx : xs.Pairwise fun a b => (rank a).Before (rank b))
    (hy : ys.Pairwise fun a b => (rank a).Before (rank b))
    (hmem : ∀ a, a ∈ xs ↔ a ∈ ys) : xs = ys := by
  have hnodup : ∀ zs : List α,
      zs.Pairwise (fun a b => (rank a).Before (rank b)) → zs.Nodup := by
    refine fun zs hz => hz.imp fun {a b} hab => ?_
    rintro rfl
    exact Rank.Before.irrefl _ hab
  have hperm : xs.Perm ys :=
    (List.perm_ext_iff_of_nodup (hnodup xs hx) (hnodup ys hy)).2 hmem
  exact hperm.eq_of_pairwise
    (fun a b _ _ hab hba => absurd hba hab.asymm) hx hy

namespace QueueEntry

def rank (e : QueueEntry) : Rank := ⟨e.reservation.priority, e.arrival⟩

variable {e f : QueueEntry}

theorem ranksBefore_trans {a b c : QueueEntry}
    (h : a.ranksBefore b = true) (h' : b.ranksBefore c = true) :
    a.ranksBefore c = true := by
  unfold ranksBefore at h h' ⊢
  simp only [Bool.or_eq_true, Bool.and_eq_true, decide_eq_true_eq]
    at h h' ⊢
  have hid : (compare a.id b.id).isLE = true →
      (compare b.id c.id).isLE = true →
      (compare a.id c.id).isLE = true := Std.TransCmp.isLE_trans
  rcases h with h | ⟨hp, h | ⟨ha, hi⟩⟩ <;>
    rcases h' with h' | ⟨hp', h' | ⟨ha', hi'⟩⟩
  · exact Or.inl (by omega)
  · exact Or.inl (by omega)
  · exact Or.inl (by omega)
  · exact Or.inl (by omega)
  · exact Or.inr ⟨by omega, Or.inl (by omega)⟩
  · exact Or.inr ⟨by omega, Or.inl (by omega)⟩
  · exact Or.inl (by omega)
  · exact Or.inr ⟨by omega, Or.inl (by omega)⟩
  · exact Or.inr ⟨by omega, Or.inr ⟨by omega, hid hi hi'⟩⟩

theorem ranksBefore_total (a b : QueueEntry) :
    (a.ranksBefore b || b.ranksBefore a) = true := by
  unfold ranksBefore
  simp only [Bool.or_eq_true, Bool.and_eq_true, decide_eq_true_eq]
  have hid : (compare a.id b.id).isLE = true
      ∨ (compare b.id a.id).isLE = true := by
    have hswap : compare b.id a.id = (compare a.id b.id).swap :=
      Std.OrientedCmp.eq_swap
    rw [hswap]
    cases compare a.id b.id <;> simp
  by_cases hp : a.reservation.priority = b.reservation.priority
  · by_cases ha : a.arrival = b.arrival
    · rcases hid with hid | hid
      · exact Or.inl (Or.inr ⟨hp, Or.inr ⟨ha, hid⟩⟩)
      · exact Or.inr (Or.inr ⟨hp.symm, Or.inr ⟨ha.symm, hid⟩⟩)
    · omega
  · omega

/-- Without a tie the ids do not matter. -/
theorem before_of_ranksBefore (h : e.ranksBefore f = true)
    (hne : e.arrival ≠ f.arrival) : e.rank.Before f.rank := by
  unfold ranksBefore at h
  simp only [Bool.or_eq_true, Bool.and_eq_true, decide_eq_true_eq] at h
  unfold Rank.Before rank
  rcases h with h | ⟨hp, h | ⟨ha, -⟩⟩
  · exact Or.inl h
  · exact Or.inr ⟨hp, h⟩
  · exact absurd ha hne

end QueueEntry

namespace Queue

variable {q q' : Queue} {i : String} {e f : QueueEntry}

-- ================================================================ arrivals

/-- Arrivals are counted, and no two entries have the same one. -/
structure Counted (q : Queue) : Prop where
  filed : q.Filed
  fresh : q.Fresh
  counted : ∀ i e, q.entries.get? i = some e → e.arrival ≤ q.arrivals
  unique : ∀ i j e f, q.entries.get? i = some e →
    q.entries.get? j = some f → e.arrival = f.arrival → i = j

/-- Every entry of the later queue was there before, with the arrival
that it has, and nothing was counted. -/
structure Keeps (q' q : Queue) : Prop where
  created : q'.created = q.created
  arrivals : q'.arrivals = q.arrivals
  entries : ∀ i e', q'.entries.get? i = some e' →
    ∃ e, q.entries.get? i = some e ∧ e'.id = e.id
      ∧ e'.arrival = e.arrival

namespace Counted

theorem new (grace poll : Nat) : (Queue.new grace poll).Counted := by
  refine ⟨?_, .new grace poll, ?_, ?_⟩
  · intro i e he
    cases he
  · intro i e he
    cases he
  · intro i j e f he
    cases he

theorem of_keeps (h : q.Counted) (hk : q'.Keeps q) : q'.Counted := by
  refine ⟨?_, ?_, ?_, ?_⟩
  · intro i e' he'
    obtain ⟨e, he, hid, -⟩ := hk.entries i e' he'
    exact hid.trans (h.filed i e he)
  · intro n hn
    rw [Option.eq_none_iff_forall_ne_some]
    intro e' he'
    obtain ⟨e, he, -⟩ := hk.entries _ e' he'
    rw [h.fresh n (hk.created ▸ hn)] at he
    cases he
  · intro i e' he'
    obtain ⟨e, he, -, harr⟩ := hk.entries i e' he'
    rw [harr, hk.arrivals]
    exact h.counted i e he
  · intro i j e' f' he' hf' heq
    obtain ⟨e, he, -, harr⟩ := hk.entries i e' he'
    obtain ⟨f, hf, -, harr'⟩ := hk.entries j f' hf'
    exact h.unique i j e f he hf (by omega)

/-- Whoever draws the next number has one of its own. -/
theorem draw (h : q.Counted) {created : Nat} {e : QueueEntry}
    (hcreated : q.created ≤ created)
    (hid : ∀ n, created < n → e.id ≠ Reservation.idOf n)
    (harr : e.arrival = q.arrivals + 1) :
    Counted { q.put e with created, arrivals := q.arrivals + 1 } := by
  have hother : ∀ j f, q.entries.get? j = some f →
      f.arrival ≠ q.arrivals + 1 := by
    intro j f hf
    have := h.counted j f hf
    omega
  refine ⟨h.filed.put e, fun n hn => ?_, ?_, ?_⟩
  · have hlt : created < n := hn
    show (q.put e).entries.get? _ = none
    rw [get?_put, if_neg (hid n hlt)]
    exact h.fresh n (by omega)
  · intro j f hf
    rw [get?_put] at hf
    split at hf
    · cases hf
      exact Nat.le_of_eq harr
    · exact Nat.le_succ_of_le (h.counted j f hf)
  · intro j k f g hf hg heq
    rw [get?_put] at hf hg
    split at hf <;> split at hg
    · next hj hk => exact hj.symm.trans hk
    · next hj hk =>
      cases hf
      exact absurd (heq.symm.trans harr) (hother k g hg)
    · next hj hk =>
      cases hg
      exact absurd (heq.trans harr) (hother j f hf)
    · exact h.unique j k f g hf hg heq

theorem create (h : q.Counted) {owner : Holder}
    {filters : List ResourcePattern} {priority : Int} {now : Moment}
    {r : Reservation}
    (hc : q.create owner filters priority now = .ok (r, q')) :
    q'.Counted := by
  obtain ⟨-, rfl, rfl⟩ := create_ok hc
  let r := Reservation.new (q.created + 1) owner filters priority now.date
  refine h.draw (e := ⟨r, q.arrivals + 1, none, now.ticks + q.pollTimeout,
    none⟩) (Nat.le_succ _) (fun n hn hid => ?_) rfl
  have := Reservation.idOf_injective hid
  omega

/-- Those that are put back get the next numbers in turn. -/
theorem lapseAll (now : Moment) {es : List QueueEntry} (h : q.Counted)
    (hes : ∀ e ∈ es, ∃ f, q.entries.get? e.id = some f) :
    (lapseAll now q es).2.Counted
      ∧ ∀ i e', (Queue.lapseAll now q es).2.entries.get? i = some e' →
        i ∈ es.map (·.id) → q.arrivals < e'.arrival := by
  induction es generalizing q with
  | nil => exact ⟨h, fun i e' _ hi => absurd hi List.not_mem_nil⟩
  | cons e es ih =>
    obtain ⟨f, hf⟩ := hes e List.mem_cons_self
    have hlapse : (lapse now q e).2.Counted := by
      refine h.draw (e := { e.moved .waiting with
        arrival := q.arrivals + 1
        pollDeadline := now.ticks + q.pollTimeout }) (Nat.le_refl _)
        (fun n hn hid => ?_) rfl
      have hnone := h.fresh n hn
      rw [← hid] at hnone
      cases hf.symm.trans hnone
    have hget : ∀ i, (lapse now q e).2.entries.get? i
        = if e.id = i then some { e.moved .waiting with
            arrival := q.arrivals + 1
            pollDeadline := now.ticks + q.pollTimeout }
          else q.entries.get? i := fun i => get?_put
    obtain ⟨hrest, hlater⟩ := ih hlapse fun g hg => by
      rw [hget]
      split
      · exact ⟨_, rfl⟩
      · exact hes g (List.mem_cons_of_mem e hg)
    refine ⟨hrest, fun i e' he' hi => ?_⟩
    by_cases hin : i ∈ es.map (·.id)
    · exact Nat.lt_of_succ_lt (hlater i e' he' hin)
    · have hid : e.id = i := by
        rw [List.map_cons, List.mem_cons] at hi
        exact (hi.resolve_right hin).symm
      have hfirst : (lapse now q e).2.entries.get? i = some e' :=
        (get?_lapseAll_of_notMem hin).symm.trans he'
      rw [hget, if_pos hid] at hfirst
      cases hfirst
      exact Nat.lt_succ_self _

end Counted

namespace Keeps

theorem refl (q : Queue) : q.Keeps q :=
  ⟨rfl, rfl, fun _ e he => ⟨e, he, rfl, rfl⟩⟩

/-- One entry is replaced. -/
theorem insert {e' : QueueEntry} (he : q.entries.get? i = some e)
    (hid : e'.id = e.id) (harr : e'.arrival = e.arrival) :
    Keeps { q with entries := q.entries.insert i e' } q := by
  refine ⟨rfl, rfl, fun j f hf => ?_⟩
  rw [Table.get?_insert] at hf
  split at hf
  · next hij =>
    cases hf
    exact ⟨e, hij ▸ he, hid, harr⟩
  · exact ⟨f, hf, rfl, rfl⟩

theorem cancel {session : SessionId} {now : Moment}
    {out : Option Reservation}
    (h : q.cancel i session now = .ok (out, q')) : q'.Keeps q := by
  obtain ⟨e, he, -, ⟨-, -, rfl⟩ | ⟨-, -, rfl⟩⟩ := cancel_ok h
  · exact refl _
  · exact insert he rfl rfl

theorem poll {session : SessionId} {now : Moment} {r : Reservation}
    (h : q.poll i session now = .ok (r, q')) : q'.Keeps q := by
  obtain ⟨e, he, -, -, ⟨-, rfl⟩ | ⟨-, rfl⟩⟩ := poll_ok h
  · exact refl _
  · exact insert he rfl rfl

theorem changeWhere {test : QueueEntry → Bool}
    {f : QueueEntry → QueueEntry}
    (hf : ∀ e, (f e).id = e.id ∧ (f e).arrival = e.arrival) :
    (q.changeWhere test f).2.Keeps q := by
  refine ⟨rfl, rfl, fun i e' he' => ?_⟩
  obtain ⟨e, he, ⟨-, rfl⟩ | ⟨-, rfl⟩⟩ := get?_changeWhere he'
  · exact ⟨e, he, hf e⟩
  · exact ⟨e', he, rfl, rfl⟩

theorem convert (q : Queue) (session : SessionId)
    (bound : List ResourceId) (now : Moment) :
    (q.convert session bound now).2.Keeps q :=
  changeWhere fun _ => ⟨rfl, rfl⟩

theorem invalidate (q : Queue) (removed : List ResourceId) :
    (q.invalidate removed).2.Keeps q :=
  changeWhere fun _ => ⟨rfl, rfl⟩

theorem removeSession (q : Queue) (session : SessionId) :
    (q.removeSession session).2.Keeps q :=
  ⟨rfl, rfl, fun _ e he => ⟨e, (get?_removeSession.1 he).1, rfl, rfl⟩⟩

theorem kept (q : Queue) (now : Moment) : (q.kept now).Keeps q := by
  refine ⟨rfl, rfl, fun i e he => ?_⟩
  unfold Queue.kept at he
  rw [Table.get?_filter, Option.filter_eq_some_iff] at he
  exact ⟨e, he.1, rfl, rfl⟩

end Keeps

-- ================================================================= serving

section Serving

variable {inv : Inventory} {free : Resource → Bool} {deadline : Nat}
  {taken : List ResourceId} {rest : List QueueEntry}

theorem serve_cons_ok {ids : List ResourceId}
    (hb : inv.bind (fun r => free r && !taken.contains r.id)
      e.reservation.filters = .ok ids) :
    serve inv free deadline taken (e :: rest)
      = e.allocated ids deadline
        :: serve inv free deadline (taken ++ ids) rest := by
  rw [serve, hb]

theorem serve_cons_error {p : ResourcePattern}
    (hb : inv.bind (fun r => free r && !taken.contains r.id)
      e.reservation.filters = .error p) :
    serve inv free deadline taken (e :: rest)
      = serve inv free deadline taken rest := by
  rw [serve, hb]

/-- Whoever is served comes from the row. -/
theorem serve_origin {es : List QueueEntry} {e' : QueueEntry}
    (h : e' ∈ serve inv free deadline taken es) :
    ∃ e ∈ es, ∃ ids, e' = e.allocated ids deadline := by
  induction es generalizing taken with
  | nil => cases h
  | cons e rest ih =>
    have hrest : ∀ taken', e' ∈ serve inv free deadline taken' rest →
        ∃ f ∈ e :: rest, ∃ ids, e' = f.allocated ids deadline := by
      intro taken' h'
      obtain ⟨f, hf, hids⟩ := ih h'
      exact ⟨f, List.mem_cons_of_mem e hf, hids⟩
    cases hb : inv.bind (fun r => free r && !taken.contains r.id)
        e.reservation.filters with
    | error p =>
      rw [serve_cons_error hb] at h
      exact hrest _ h
    | ok ids =>
      rw [serve_cons_ok hb] at h
      rcases List.mem_cons.1 h with rfl | h
      · exact ⟨e, List.mem_cons_self, ids, rfl⟩
      · exact hrest _ h

/-- A row is served front first, and the rest out of what is left. -/
theorem serve_append (inv : Inventory) (free : Resource → Bool)
    (deadline : Nat) (taken : List ResourceId)
    (front rest : List QueueEntry) :
    serve inv free deadline taken (front ++ rest)
      = serve inv free deadline taken front
        ++ serve inv free deadline
          (taken ++ allocations (serve inv free deadline taken front))
          rest := by
  induction front generalizing taken with
  | nil =>
    have hnone : allocations (serve inv free deadline taken []) = [] := rfl
    rw [hnone, List.append_nil]
    rfl
  | cons e front ih =>
    rw [List.cons_append]
    cases hb : inv.bind (fun r => free r && !taken.contains r.id)
        e.reservation.filters with
    | error p =>
      rw [serve_cons_error hb, serve_cons_error hb]
      exact ih taken
    | ok ids =>
      have hmore : taken ++ allocations (e.allocated ids deadline
            :: serve inv free deadline (taken ++ ids) front)
          = taken ++ ids ++ allocations
              (serve inv free deadline (taken ++ ids) front) :=
        (List.append_assoc ..).symm
      rw [serve_cons_ok hb, serve_cons_ok hb, ih, hmore]
      rfl

/-- Rows that want the same are served the same if the same is taken. -/
theorem serve_congr (inv : Inventory) (free : Resource → Bool)
    (deadline deadline' : Nat) {taken taken' : List ResourceId}
    (htaken : ∀ id, id ∈ taken ↔ id ∈ taken')
    {es fs : List QueueEntry}
    (h : es.map (·.reservation) = fs.map (·.reservation)) :
    (serve inv free deadline taken es).map (·.reservation)
      = (serve inv free deadline' taken' fs).map (·.reservation) := by
  induction es generalizing taken taken' fs with
  | nil =>
    cases List.map_eq_nil_iff.1 h.symm
    rfl
  | cons e es ih =>
    cases fs with
    | nil => cases h
    | cons f fs =>
      rw [List.map_cons, List.map_cons, List.cons.injEq] at h
      obtain ⟨hef, hrest⟩ := h
      have hsame : inv.bind (fun r => free r && !taken.contains r.id)
            e.reservation.filters
          = inv.bind (fun r => free r && !taken'.contains r.id)
            f.reservation.filters := by
        rw [hef]
        congr 1
        funext r
        simp [htaken r.id]
      cases hb : inv.bind (fun r => free r && !taken'.contains r.id)
          f.reservation.filters with
      | error p =>
        rw [serve_cons_error (hsame.trans hb), serve_cons_error hb]
        exact ih htaken hrest
      | ok ids =>
        have hmore : ∀ id, id ∈ taken ++ ids ↔ id ∈ taken' ++ ids := by
          intro id
          rw [List.mem_append, List.mem_append, htaken]
        rw [serve_cons_ok (hsame.trans hb), serve_cons_ok hb,
          List.map_cons, List.map_cons, ih hmore hrest]
        unfold QueueEntry.allocated
        rw [hef]

end Serving

-- ================================================================ the turn

/-- The row is sorted by rank, without ties. -/
theorem Counted.pairwise_waiting (h : q.Counted) (skip : List String) :
    (q.waiting skip).Pairwise fun a b => a.rank.Before b.rank := by
  have hsorted : (q.waiting skip).Pairwise fun a b => a.ranksBefore b := by
    refine List.pairwise_mergeSort ?_ QueueEntry.ranksBefore_total _
    exact fun _ _ _ => QueueEntry.ranksBefore_trans
  have hnodup : (q.waiting skip).Pairwise fun a b => a.id ≠ b.id :=
    List.pairwise_map.1 (h.filed.nodup_waiting skip)
  refine (hsorted.and hnodup).imp_of_mem ?_
  rintro a b ha hb ⟨hranks, hne⟩
  refine QueueEntry.before_of_ranksBefore hranks fun harr => hne ?_
  exact h.unique _ _ a b (h.filed.mem_all.1 (mem_waiting.1 ha).1)
    (h.filed.mem_all.1 (mem_waiting.1 hb).1) harr

/-- An entry of the row between those before it and those behind it. -/
structure Cut (q : Queue) (skip : List String) (e : QueueEntry)
    (front rest : List QueueEntry) : Prop where
  row : q.waiting skip = front ++ e :: rest
  front : ∀ f, f ∈ front ↔ f ∈ q.waiting skip ∧ f.rank.Before e.rank
  rest : ∀ f ∈ rest, e.rank.Before f.rank

theorem Counted.cut (h : q.Counted) {skip : List String}
    (he : e ∈ q.waiting skip) : ∃ front rest, q.Cut skip e front rest := by
  obtain ⟨front, rest, hrow⟩ := List.append_of_mem he
  have hsorted := h.pairwise_waiting skip
  rw [hrow, List.pairwise_append, List.pairwise_cons] at hsorted
  obtain ⟨-, ⟨hrest, -⟩, hfront⟩ := hsorted
  refine ⟨front, rest, hrow, fun f => ⟨fun hf => ?_, ?_⟩, hrest⟩
  · rw [hrow]
    exact ⟨List.mem_append_left _ hf, hfront f hf e List.mem_cons_self⟩
  · rintro ⟨hf, hbefore⟩
    rw [hrow] at hf
    refine (List.mem_append.1 hf).resolve_right fun hf => ?_
    rcases List.mem_cons.1 hf with rfl | hf
    · exact Rank.Before.irrefl _ hbefore
    · exact (hrest f hf).asymm hbefore

/-- The resources that a rescan from `q` to `q'` has set aside for entries
that rank before a rank. -/
def given (q q' : Queue) (rank : Rank) : List ResourceId :=
  allocations (q'.all.filter fun f' => f'.isAllocated
    && (q.entries.get? f'.id).any fun f =>
      f.isWaiting && f.rank.Before rank)

section Turn

variable {inv : Inventory} {free : Resource → Bool} {skip : List String}
  {now : Moment} {front rest : List QueueEntry}

/-- What is taken when it is an entry's turn. -/
def takenBefore (q : Queue) (inv : Inventory) (free : Resource → Bool)
    (now : Moment) (front : List QueueEntry) : List ResourceId :=
  q.taken ++ allocations
    (serve inv free (now.ticks + q.gracePeriod) q.taken front)

theorem Cut.served_eq (hcut : q.Cut skip e front rest) :
    q.served inv free skip now
      = serve inv free (now.ticks + q.gracePeriod) q.taken front
        ++ serve inv free (now.ticks + q.gracePeriod)
          (q.takenBefore inv free now front) (e :: rest) := by
  unfold served
  rw [hcut.row, serve_append]
  rfl

/-- Whoever was served waited, and its entry is the one that is stored. -/
theorem Counted.served_origin (h : q.Counted) {e' : QueueEntry}
    (he' : e' ∈ q.served inv free skip now) :
    ∃ e ∈ q.waiting skip, q.entries.get? e'.id = some e
      ∧ ∃ ids, e' = e.allocated ids (now.ticks + q.gracePeriod) := by
  obtain ⟨e, he, ids, rfl⟩ := serve_origin he'
  exact ⟨e, he, h.filed.mem_all.1 (mem_waiting.1 he).1, ids, rfl⟩

theorem Counted.get?_served (h : q.Counted) {e' : QueueEntry}
    (he' : e' ∈ q.served inv free skip now) :
    (q.rescan inv free skip now).2.entries.get? e'.id = some e' :=
  get?_foldl_put_of_mem (h.filed.nodup_served inv free skip now) he'

/-- Nothing happens to whoever is not in the row. -/
theorem Counted.rescan_others (h : q.Counted)
    (hnot : ∀ e, q.entries.get? i = some e →
      e.reservation.state = .waiting → i ∈ skip) :
    (q.rescan inv free skip now).2.entries.get? i
      = q.entries.get? i := by
  rw [rescan_eq]
  refine get?_foldl_put_of_notMem fun hin => ?_
  obtain ⟨e', he', rfl⟩ := List.mem_map.1 hin
  obtain ⟨e, he, hget, ids, rfl⟩ := h.served_origin he'
  obtain ⟨-, hw, hskip⟩ := mem_waiting.1 he
  exact hskip (hnot e hget hw)

/-- An entry is served out of what those before it have left over, if it
can be. -/
theorem Counted.rescan_get? (h : q.Counted)
    (hcut : q.Cut skip e front rest) :
    (q.rescan inv free skip now).2.entries.get? e.id
      = match inv.bind (fun r => free r
            && !(q.takenBefore inv free now front).contains r.id)
          e.reservation.filters with
        | .ok ids => some (e.allocated ids (now.ticks + q.gracePeriod))
        | .error _ => some e := by
  have hmem : e ∈ q.waiting skip := by
    rw [hcut.row]
    exact List.mem_append_right _ List.mem_cons_self
  have hget := h.filed.mem_all.1 (mem_waiting.1 hmem).1
  have hserved : q.served inv free skip now = _ := hcut.served_eq
  cases hb : inv.bind (fun r => free r
      && !(q.takenBefore inv free now front).contains r.id)
      e.reservation.filters with
  | ok ids =>
    rw [serve_cons_ok hb] at hserved
    have hin : e.allocated ids (now.ticks + q.gracePeriod)
        ∈ q.served inv free skip now := by
      rw [hserved]
      exact List.mem_append_right _ List.mem_cons_self
    exact h.get?_served hin
  | error p =>
    rw [serve_cons_error hb] at hserved
    dsimp only
    rw [rescan_eq, get?_foldl_put_of_notMem, hget]
    intro hin
    obtain ⟨e', he', hid⟩ := List.mem_map.1 hin
    -- somebody under the same id would be the entry itself
    have hsame : ∀ f ∈ q.waiting skip, f.id = e.id → f = e := by
      intro f hf heq
      have hget' := h.filed.mem_all.1 (mem_waiting.1 hf).1
      rw [heq, hget] at hget'
      exact (Option.some.inj hget').symm
    rw [hserved] at he'
    rcases List.mem_append.1 he' with he' | he'
    · obtain ⟨f, hf, ids, rfl⟩ := serve_origin he'
      obtain ⟨hrow, hbefore⟩ := (hcut.front f).1 hf
      rw [hsame f hrow hid] at hbefore
      exact Rank.Before.irrefl _ hbefore
    · obtain ⟨f, hf, ids, rfl⟩ := serve_origin he'
      have hrow : f ∈ q.waiting skip := by
        rw [hcut.row]
        exact List.mem_append_right _ (List.mem_cons_of_mem e hf)
      have hbefore := hcut.rest f hf
      rw [hsame f hrow hid] at hbefore
      exact Rank.Before.irrefl _ hbefore

end Turn

end Queue

end LabLease
