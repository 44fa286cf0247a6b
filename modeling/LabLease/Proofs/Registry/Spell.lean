/-
Spells of allocation: the times during which a reservation has resources
set aside, from the report that says so to the next report of the same
reservation.

# Spells

While an entry is allocated it has a deadline, so its spell is the
reservation as it was reported together with the deadline
(`QueueEntry.spell?`). `Turn` is all that an operation of the queue can
make of one spell: it reports nothing and leaves the spell as it is, or it
reports the reservation once and a spell begins or ends there. Each
operation has its own reason for ending a spell, and only a rescan begins
one.

# New ids

A reservation is created under an id that is not in use, or its first
report would end the spell of another. The ids are the numbers of the
reservations in hexadecimal digits, with zeros in front, and so they
differ (`idOf_injective`).
-/
import LabLease.Proofs.Registry.Descent
import LabLease.Proofs.Registry.Service

namespace LabLease

-- ================================================================= new ids

namespace Reservation

/-- The value of a hexadecimal digit as `Nat.digitChar` writes it. -/
def digitValue (c : Char) : Nat :=
  if c.toNat < 58 then c.toNat - 48 else c.toNat - 87

theorem digitValue_digitChar {d : Nat} (h : d < 16) :
    digitValue (Nat.digitChar d) = d := by
  decide +revert

/-- The number that hexadecimal digits stand for, behind a number that
was read before. -/
def valueOf (before : Nat) (digits : List Char) : Nat :=
  digits.foldl (fun n c => 16 * n + digitValue c) before

theorem valueOf_zeros (n : Nat) :
    valueOf 0 (List.replicate n '0') = 0 := by
  induction n with
  | zero => rfl
  | succ n ih => exact ih

theorem valueOf_toDigits (n : Nat) :
    valueOf 0 (Nat.toDigits 16 n) = n := by
  induction n using Nat.strongRecOn with
  | ind n ih =>
    rw [Nat.toDigits_eq_if (by decide)]
    split
    · next hlt =>
      show 16 * 0 + digitValue (Nat.digitChar n) = n
      rw [digitValue_digitChar hlt]
      omega
    · next hge =>
      have hless : n / 16 < n := by omega
      unfold valueOf at ih ⊢
      rw [List.foldl_append, ih (n / 16) hless]
      show 16 * (n / 16) + digitValue (Nat.digitChar (n % 16)) = n
      rw [digitValue_digitChar (by omega)]
      omega

/-- No two reservations have one id. -/
theorem idOf_injective {m n : Nat} (h : idOf m = idOf n) : m = n := by
  have hvalue : ∀ k, valueOf 0 (List.replicate
      (16 - (Nat.toDigits 16 k).length) '0' ++ Nat.toDigits 16 k) = k := by
    intro k
    have hzeros := valueOf_zeros (16 - (Nat.toDigits 16 k).length)
    unfold valueOf at hzeros ⊢
    rw [List.foldl_append, hzeros]
    exact valueOf_toDigits k
  unfold idOf at h
  have hlists := String.ofList_injective h
  rw [List.append_assoc, List.append_assoc] at hlists
  have hdigits := List.append_cancel_left hlists
  rw [← hvalue m, hdigits, hvalue n]

end Reservation

/-- The ids of the reservations to come are not in use. -/
def Queue.Fresh (q : Queue) : Prop :=
  ∀ n, q.created < n → q.entries.get? (Reservation.idOf n) = none

namespace Queue.Fresh

variable {q q' : Queue}

theorem new (grace poll : Nat) : (Queue.new grace poll).Fresh :=
  fun _ _ => rfl

theorem of_descends (h : q.Fresh) (hd : q'.Descends q)
    (hcreated : q'.created = q.created) : q'.Fresh := by
  intro n hn
  rw [Option.eq_none_iff_forall_ne_some]
  intro e' he'
  obtain ⟨e, he, -⟩ := hd _ e' he'
  rw [h n (hcreated ▸ hn)] at he
  cases he

theorem create (h : q.Fresh) {owner : Holder}
    {filters : List ResourcePattern} {priority : Int} {now : Moment}
    {r : Reservation}
    (hc : q.create owner filters priority now = .ok (r, q')) :
    q'.Fresh := by
  obtain ⟨-, rfl, rfl⟩ := Queue.create_ok hc
  intro n hn
  have hlt : q.created + 1 < n := hn
  have hne : Reservation.idOf (q.created + 1) ≠ Reservation.idOf n := by
    intro heq
    have := Reservation.idOf_injective heq
    omega
  show (q.entries.insert (Reservation.idOf (q.created + 1)) _).get? _ = none
  rw [Table.get?_insert, if_neg hne]
  exact h n (by omega)

end Queue.Fresh

-- ================================================================== spells

/-- The reservation of an entry that is allocated, and its deadline. -/
def QueueEntry.spell? (e : QueueEntry) : Option (Reservation × Nat) :=
  e.graceDeadline.map (e.reservation, ·)

/-- The spell of the reservation that is stored under an id. -/
def Queue.spell? (q : Queue) (id : String) : Option (Reservation × Nat) :=
  (q.entries.get? id).bind QueueEntry.spell?

/-- The reports of one reservation. -/
def reportsOf (id : String) (rs : List Reservation) : List Reservation :=
  rs.filter (·.id = id)

/-- What may become of a spell in one operation: a spell begins with the
deadline that the operation sets, or ends for a reason that the operation
has. -/
inductive Turn (deadline? : Option Nat)
    (Reason : Reservation → Nat → Reservation → Prop) :
    Option (Reservation × Nat) → List Reservation →
      Option (Reservation × Nat) → Prop
  | quiet {a : Option (Reservation × Nat)} : Turn deadline? Reason a [] a
  | begins {r : Reservation} {d : Nat} (hd : deadline? = some d)
      (hr : r.state = .allocated) :
    Turn deadline? Reason none [r] (some (r, d))
  | ends {r r' : Reservation} {d : Nat} (hr : r'.state ≠ .allocated)
      (h : Reason r d r') : Turn deadline? Reason (some (r, d)) [r'] none
  /-- Something else is reported while there is no spell. -/
  | other {r' : Reservation} (hr : r'.state ≠ .allocated) :
    Turn deadline? Reason none [r'] none

/-- What an operation that reports `rs` makes of every spell. -/
def Queue.Turns (deadline? : Option Nat)
    (Reason : Reservation → Nat → Reservation → Prop) (q : Queue)
    (rs : List Reservation) (q' : Queue) : Prop :=
  ∀ i, Turn deadline? Reason (q.spell? i) (reportsOf i rs) (q'.spell? i)

namespace QueueEntry

variable {e : QueueEntry}

@[simp] theorem spell?_moved (e : QueueEntry) (s : ReservationState) :
    (e.moved s).spell? = none := rfl

theorem spell?_eq_some {r : Reservation} {d : Nat} :
    e.spell? = some (r, d) ↔
      e.graceDeadline = some d ∧ e.reservation = r := by
  unfold spell?
  rw [Option.map_eq_some_iff]
  constructor
  · rintro ⟨d', hd, heq⟩
    cases heq
    exact ⟨hd, rfl⟩
  · rintro ⟨hd, rfl⟩
    exact ⟨d, hd, rfl⟩

/-- There is a spell exactly while the entry is allocated. -/
theorem Sound.spell?_eq_none (h : e.Sound)
    (hs : e.reservation.state ≠ .allocated) : e.spell? = none := by
  unfold spell?
  cases hd : e.graceDeadline with
  | none => rfl
  | some d => exact absurd (h.grace.1 (by rw [hd]; rfl)) hs

theorem Sound.spell?_of_allocated (h : e.Sound)
    (hs : e.reservation.state = .allocated) :
    ∃ d, e.spell? = some (e.reservation, d) := by
  obtain ⟨d, hd⟩ := Option.isSome_iff_exists.1 (h.grace.2 hs)
  exact ⟨d, spell?_eq_some.2 ⟨hd, rfl⟩⟩

end QueueEntry

section Reports

variable {rs : List Reservation} {r : Reservation} {i : String}

theorem reportsOf_append (i : String) (rs rs' : List Reservation) :
    reportsOf i (rs ++ rs') = reportsOf i rs ++ reportsOf i rs' :=
  List.filter_append ..

theorem reportsOf_of_notMem (h : i ∉ rs.map (·.id)) :
    reportsOf i rs = [] := by
  refine List.filter_eq_nil_iff.2 fun r hr hid => h ?_
  exact List.mem_map.2 ⟨r, hr, of_decide_eq_true hid⟩

/-- What is known of a reservation depends on its own reports. -/
theorem told_reportsOf (i : String) (known : Option Reservation)
    (rs : List Reservation) :
    Queue.told i known (reportsOf i rs) = Queue.told i known rs := by
  unfold reportsOf Queue.told
  rw [List.foldl_filter]
  refine congrArg (fun f => rs.foldl f known) (funext fun r => ?_)
  funext x
  by_cases hx : x.id = i <;> simp [hx]

theorem reportsOf_of_mem (hnd : (rs.map (·.id)).Nodup) (h : r ∈ rs) :
    reportsOf r.id rs = [r] := by
  induction rs with
  | nil => cases h
  | cons x rs ih =>
    obtain ⟨hx, hrest⟩ := List.nodup_cons.1 hnd
    rcases List.mem_cons.1 h with rfl | hmem
    · have hnone := reportsOf_of_notMem hx
      unfold reportsOf at hnone ⊢
      rw [List.filter_cons_of_pos (by simp), hnone]
    · have hne : x.id ≠ r.id :=
        fun heq => hx (List.mem_map.2 ⟨r, hmem, heq.symm⟩)
      have hrec := ih hrest hmem
      unfold reportsOf at hrec ⊢
      rw [List.filter_cons_of_neg (by simpa using hne), hrec]

end Reports

namespace Turn

variable {deadline? : Option Nat}
  {Reason Reason' : Reservation → Nat → Reservation → Prop}
  {e : QueueEntry} {r : Reservation} {rs : List Reservation}
  {a b : Option (Reservation × Nat)}

theorem mono (h : Turn deadline? Reason a rs b)
    (hreason : ∀ r d r', Reason r d r' → Reason' r d r') :
    Turn deadline? Reason' a rs b := by
  cases h with
  | quiet => exact .quiet
  | begins hd hr => exact .begins hd hr
  | ends hr hwhy => exact .ends hr (hreason _ _ _ hwhy)
  | other hr => exact .other hr

/-- One report after which there is no spell. -/
theorem close (hr : r.state ≠ .allocated)
    (h : ∀ d, e.graceDeadline = some d → Reason e.reservation d r) :
    Turn deadline? Reason e.spell? [r] none := by
  unfold QueueEntry.spell?
  cases hd : e.graceDeadline with
  | none => exact .other hr
  | some d => exact .ends hr (h d hd)

end Turn

namespace Queue

variable {q q' : Queue} {i : String} {e : QueueEntry}
  {deadline? : Option Nat}
  {Reason Reason' : Reservation → Nat → Reservation → Prop}

theorem spell?_of_get? (h : q.entries.get? i = some e) :
    q.spell? i = e.spell? := by
  unfold spell?
  rw [h]
  rfl

theorem spell?_of_none (h : q.entries.get? i = none) :
    q.spell? i = none := by
  unfold spell?
  rw [h]
  rfl

theorem spell?_eq_some {r : Reservation} {d : Nat} :
    q.spell? i = some (r, d) ↔ ∃ e, q.entries.get? i = some e
      ∧ e.graceDeadline = some d ∧ e.reservation = r := by
  unfold spell?
  rw [Option.bind_eq_some_iff]
  exact exists_congr fun e => and_congr_right fun _ =>
    QueueEntry.spell?_eq_some

/-- Nothing is reported and all spells go on. -/
theorem Turns.refl (q : Queue) : Turns deadline? Reason q [] q :=
  fun _ => .quiet

theorem Turns.mono {rs : List Reservation}
    (h : Turns deadline? Reason q rs q')
    (hreason : ∀ r d r', Reason r d r' → Reason' r d r') :
    Turns deadline? Reason' q rs q' :=
  fun i => (h i).mono hreason

/-- One entry is put in. -/
theorem spell?_insert (q : Queue) (i : String) (e : QueueEntry)
    (j : String) :
    spell? { q with entries := q.entries.insert i e } j
      = if i = j then e.spell? else q.spell? j := by
  unfold spell?
  rw [Table.get?_insert]
  split <;> rfl

/-- Reports of entries that are picked out: there is one for an id if the
entry under this id is picked. -/
theorem reportsOf_picked (h : q.Filed) (test : QueueEntry → Bool)
    {f : QueueEntry → Reservation} (hf : ∀ e, (f e).id = e.id)
    (i : String) :
    reportsOf i ((q.all.filter test).map f)
      = ((q.entries.get? i).filter test).toList.map f := by
  have hids : ((q.all.filter test).map f).map (·.id)
      = (q.all.filter test).map (·.id) := by
    rw [List.map_map]
    exact List.map_congr_left fun e _ => hf e
  have hnd : (((q.all.filter test).map f).map (·.id)).Nodup := by
    rw [hids]
    exact h.nodup_ids.sublist (List.filter_sublist.map _)
  by_cases hmem : i ∈ (q.all.filter test).map (·.id)
  · obtain ⟨e, he, rfl⟩ := List.mem_map.1 hmem
    obtain ⟨hall, htest⟩ := List.mem_filter.1 he
    have hone := reportsOf_of_mem hnd (List.mem_map_of_mem he)
    rw [hf e] at hone
    rw [hone, h.mem_all.1 hall, Option.filter_some, if_pos htest]
    rfl
  · rw [reportsOf_of_notMem (hids ▸ hmem)]
    cases he : q.entries.get? i with
    | none => rfl
    | some e =>
      have htest : ¬ test e = true := by
        intro htest
        refine hmem (List.mem_map.2 ⟨e, ?_, h i e he⟩)
        exact List.mem_filter.2 ⟨Queue.mem_all.2 ⟨i, he⟩, htest⟩
      rw [Option.filter_some, if_neg htest]
      rfl

-- ================================================================ rescans

theorem Filed.nodup_served (h : q.Filed) (inv : Inventory)
    (free : Resource → Bool) (skip : List String) (now : Moment) :
    ((q.served inv free skip now).map (·.id)).Nodup :=
  (h.nodup_waiting skip).sublist (serve_ids_sublist ..)

/-- A rescan begins spells, all with one deadline, and ends none. -/
theorem rescan_turns (hq : q.Filed)
    (hs : ∀ i e, q.entries.get? i = some e → e.Sound) {inv : Inventory}
    (hf : inv.Filed) (free : Resource → Bool) (skip : List String)
    (now : Moment) :
    Turns (some (now.ticks + q.gracePeriod)) Reason q
      (q.rescan inv free skip now).1 (q.rescan inv free skip now).2 := by
  intro i
  rw [rescan_eq]
  have hids : ((q.served inv free skip now).map (·.reservation)).map (·.id)
      = (q.served inv free skip now).map (·.id) := List.map_map
  have hnd := hq.nodup_served inv free skip now
  by_cases hmem : i ∈ (q.served inv free skip now).map (·.id)
  · obtain ⟨e', he', rfl⟩ := List.mem_map.1 hmem
    obtain ⟨e, ids, hall, hw, -, rfl, -⟩ := (served_of_mem hf he').origin
    have hget := hq.mem_all.1 hall
    have hnone : q.spell? e.id = none := by
      rw [spell?_of_get? hget]
      refine (hs e.id e hget).spell?_eq_none ?_
      rw [hw]
      exact nofun
    have hone := reportsOf_of_mem (hids ▸ hnd) (List.mem_map_of_mem he')
    have hafter := get?_foldl_put_of_mem (q := q) hnd he'
    rw [QueueEntry.allocated_id] at hafter ⊢
    rw [hnone, show reportsOf e.id _ = _ from hone, spell?_of_get? hafter]
    exact .begins rfl rfl
  · rw [reportsOf_of_notMem (hids ▸ hmem)]
    have hsame : spell? ((q.served inv free skip now).foldl put q) i
        = q.spell? i :=
      congrArg (·.bind QueueEntry.spell?) (get?_foldl_put_of_notMem hmem)
    rw [hsame]
    exact .quiet

-- ==================================================== entries that change

/-- Entries that change where they stand, and are not allocated then. -/
theorem changeWhere_turns (h : q.Filed) {test : QueueEntry → Bool}
    {f : QueueEntry → QueueEntry} (hf : ∀ e, (f e).id = e.id)
    (hnone : ∀ e, (f e).spell? = none)
    (hstate : ∀ e, (f e).reservation.state ≠ .allocated)
    (hreason : ∀ e d, test e = true → e.graceDeadline = some d →
      Reason e.reservation d (f e).reservation) :
    Turns deadline? Reason q (q.changeWhere test f).1
      (q.changeWhere test f).2 := by
  intro i
  have hreports := reportsOf_picked h test (f := fun e =>
    (f e).reservation) hf i
  have hlist : (q.changeWhere test f).1
      = (q.all.filter test).map fun e => (f e).reservation :=
    List.map_map
  unfold spell?
  rw [hlist, hreports, get?_entries_changeWhere]
  cases he : q.entries.get? i with
  | none => exact .quiet
  | some e =>
    by_cases htest : test e = true
    · rw [Option.filter_some, if_pos htest, Option.map_some, if_pos htest]
      show Turn deadline? Reason e.spell? [(f e).reservation] (f e).spell?
      rw [hnone]
      exact .close (hstate e) fun d hd => hreason e d htest hd
    · rw [Option.filter_some, if_neg htest, Option.map_some,
        if_neg htest]
      exact .quiet

/-- A conversion ends spells of the session's own out of which something
was bound. -/
theorem convert_turns (h : q.Filed) (session : SessionId)
    (bound : List ResourceId) (now : Moment) :
    Turns deadline? (fun r _ r' => r.owner.session = session
        ∧ (∃ id ∈ r.allocations, id ∈ bound)
        ∧ r' = r.transition .acquired) q
      (q.convert session bound now).1 (q.convert session bound now).2 := by
  refine changeWhere_turns h (fun _ => rfl) (fun _ => rfl)
    (fun _ => nofun) fun e d htest _ => ?_
  obtain ⟨hown, hholds⟩ := Bool.and_eq_true_iff.1 htest
  exact ⟨QueueEntry.isOwnedBy_iff.1 hown,
    (QueueEntry.holdsAny_iff.1 hholds).2, rfl⟩

/-- An invalidation ends the spells that lost something. -/
theorem invalidate_turns (h : q.Filed) (removed : List ResourceId) :
    Turns deadline? (fun r _ r' => (∃ id ∈ r.allocations, id ∈ removed)
        ∧ r' = r.transition .waiting) q
      (q.invalidate removed).1 (q.invalidate removed).2 := by
  refine changeWhere_turns h (fun _ => rfl) (fun _ => rfl)
    (fun _ => nofun) fun e d htest _ => ?_
  exact ⟨(QueueEntry.holdsAny_iff.1 htest).2, rfl⟩

-- ==================================================== what a session asks

/-- A creation is reported under an id of its own. -/
theorem create_turns (hfresh : q.Fresh) {owner : Holder}
    {filters : List ResourcePattern} {priority : Int} {now : Moment}
    {r : Reservation}
    (h : q.create owner filters priority now = .ok (r, q')) :
    Turns deadline? Reason q [r] q' := by
  obtain ⟨-, rfl, rfl⟩ := create_ok h
  intro i
  have hafter := spell?_insert q (Reservation.idOf (q.created + 1))
    { reservation := Reservation.new (q.created + 1) owner filters priority
        now.date
      arrival := q.arrivals + 1, graceDeadline := none
      pollDeadline := now.ticks + q.pollTimeout, retireAt := none } i
  by_cases hi : Reservation.idOf (q.created + 1) = i
  · subst hi
    rw [if_pos rfl] at hafter
    rw [spell?_of_none (hfresh _ (Nat.lt_succ_self _))]
    have hone : reportsOf (Reservation.idOf (q.created + 1))
        [Reservation.new (q.created + 1) owner filters priority now.date]
        = [_] := reportsOf_of_mem (by simp)
          List.mem_cons_self
    rw [hone]
    refine Eq.subst (motive := fun a => Turn deadline? Reason none _ a)
      hafter.symm (.other nofun)
  · rw [if_neg hi] at hafter
    have hnot : i ∉ [Reservation.new (q.created + 1) owner filters priority
        now.date].map (·.id) := fun hin => hi (List.mem_singleton.1 hin).symm
    rw [reportsOf_of_notMem hnot]
    exact Eq.subst (motive := fun a => Turn deadline? Reason _ _ a)
      hafter.symm .quiet

/-- A cancellation ends the spell of the reservation that it is about. -/
theorem cancel_turns (hf : q.Filed) {id : String} {session : SessionId}
    {now : Moment} {r : Reservation}
    (h : q.cancel id session now = .ok (some r, q')) :
    Turns deadline? (fun x _ x' => x.id = id ∧ x.owner.session = session
        ∧ x' = x.transition .cancelled) q [r] q' := by
  obtain ⟨e, he, hown, ⟨-, hnone, -⟩ | ⟨-, hsome, rfl⟩⟩ := cancel_ok h
  · cases hnone
  cases hsome
  have hid := hf id e he
  intro i
  rw [spell?_insert]
  by_cases hi : id = i
  · subst hi
    have hone : reportsOf (e.moved .cancelled).reservation.id
        [(e.moved .cancelled).reservation] = [_] :=
      reportsOf_of_mem (by simp) List.mem_cons_self
    rw [if_pos rfl, spell?_of_get? he]
    rw [show (e.moved .cancelled).reservation.id = id from hid] at hone
    rw [hone]
    exact .close nofun fun d _ => ⟨hid, hown, rfl⟩
  · rw [if_neg hi]
    have hnot : i ∉ [(e.moved .cancelled).reservation].map (·.id) := by
      rw [List.map_singleton, List.mem_singleton]
      exact fun hin => hi (hid.symm.trans hin.symm)
    rw [reportsOf_of_notMem hnot]
    exact .quiet

/-- A poll leaves every spell as it is. -/
theorem poll_turns {id : String} {session : SessionId} {now : Moment}
    {r : Reservation} (h : q.poll id session now = .ok (r, q')) :
    Turns deadline? Reason q [] q' := by
  obtain ⟨e, he, -, -, ⟨-, rfl⟩ | ⟨-, rfl⟩⟩ := poll_ok h
  · exact .refl _
  · intro i
    rw [spell?_insert]
    by_cases hi : id = i
    · subst hi
      rw [if_pos rfl, spell?_of_get? he]
      exact .quiet
    · rw [if_neg hi]
      exact .quiet

-- ============================================================ deadlines

/-- A spell goes on after a check of deadlines unless it is over. -/
theorem spell?_expire (hf : q.Filed) (hs : e.Sound) {now : Moment}
    (he : q.entries.get? i = some e) :
    (q.expire now).2.spell? i
      = if isLapsed now e then none else e.spell? := by
  by_cases hkept : e.reservation.state = .allocated
      ∧ ¬ isLapsed now e = true
  · obtain ⟨hstate, hl⟩ := hkept
    have hnot : i ∉ (q.all.filter (isLapsed now)).map (·.id) := by
      intro hin
      obtain ⟨e', hmem, hid⟩ := List.mem_map.1 hin
      obtain ⟨hall, hl'⟩ := List.mem_filter.1 hmem
      have hget := hf.mem_all.1 hall
      rw [hid, he] at hget
      cases hget
      exact hl hl'
    have hstays : (q.expire now).2.entries.get? i = some e :=
      (get?_lapseAll_of_notMem hnot).trans
        (get?_kept_of_allocated hs he hstate)
    rw [if_neg hl, spell?_of_get? hstays]
  · have hnone : (if isLapsed now e then none else e.spell?) = none := by
      split
      · rfl
      · next hl =>
        exact hs.spell?_eq_none fun hstate => hkept ⟨hstate, hl⟩
    rw [hnone]
    cases he' : (q.expire now).2.entries.get? i with
    | none => exact spell?_of_none he'
    | some e' =>
      rw [spell?_of_get? he']
      obtain ⟨e₀, hget, ⟨-, arrival, rfl⟩ | ⟨hl, -, -, rfl⟩⟩ :=
        get?_expire hf he'
      · rfl
      · rw [he] at hget
        cases hget
        rw [hl] at hnone
        exact hnone

theorem reportsOf_expire (hf : q.Filed) (now : Moment) (i : String) :
    reportsOf i (q.expire now).1.changed
      = ((q.entries.get? i).filter (isUnpolled now)).toList.map
          (fun e => e.reservation.transition .expired)
        ++ ((q.entries.get? i).filter (isLapsed now)).toList.map
          (fun e => e.reservation.transition .waiting) := by
  rw [expire_eq]
  show reportsOf i (_ ++ (lapseAll now (q.kept now) _).1) = _
  rw [lapseAll_reports, reportsOf_append]
  exact congrArg₂ (· ++ ·)
    (reportsOf_picked hf _ (f := fun e =>
      e.reservation.transition .expired) (fun _ => rfl) i)
    (reportsOf_picked hf _ (f := fun e =>
      e.reservation.transition .waiting) (fun _ => rfl) i)

/-- A check of deadlines ends the spells that are over. -/
theorem expire_turns (hf : q.Filed)
    (hs : ∀ i e, q.entries.get? i = some e → e.Sound) (now : Moment) :
    Turns deadline? (fun r d r' => d ≤ now.ticks
        ∧ r' = r.transition .waiting) q
      (q.expire now).1.changed (q.expire now).2 := by
  intro i
  rw [reportsOf_expire hf]
  cases he : q.entries.get? i with
  | none =>
    have hafter : (q.expire now).2.entries.get? i = none := by
      rw [Option.eq_none_iff_forall_ne_some]
      intro e' he'
      obtain ⟨e, hget, -⟩ := get?_expire hf he'
      rw [he] at hget
      cases hget
    rw [spell?_of_none he, spell?_of_none hafter]
    exact .quiet
  | some e =>
    rw [spell?_of_get? he, spell?_expire hf (hs i e he) he,
      Option.filter_some, Option.filter_some]
    by_cases hl : isLapsed now e = true
    · obtain ⟨hstate, d, hd, hle⟩ := isLapsed_iff.1 hl
      have hu : ¬ isUnpolled now e = true := by
        rw [isUnpolled_iff, hstate]
        simp
      rw [if_pos hl, if_neg hu, if_pos hl]
      refine .close nofun fun d' hd' => ?_
      rw [hd] at hd'
      cases hd'
      exact ⟨hle, rfl⟩
    · rw [if_neg hl, if_neg hl]
      by_cases hu : isUnpolled now e = true
      · have hwaits : e.spell? = none := by
          refine (hs i e he).spell?_eq_none ?_
          rw [(isUnpolled_iff.1 hu).1]
          exact nofun
        rw [if_pos hu, hwaits]
        exact .other nofun
      · rw [if_neg hu]
        exact .quiet

/-- And it does not miss any of them. -/
theorem expire_lapsed (hf : q.Filed) {now : Moment}
    (hs : ∀ i e, q.entries.get? i = some e → e.Sound)
    (he : q.entries.get? i = some e) (hl : isLapsed now e = true) :
    reportsOf i (q.expire now).1.changed
        = [e.reservation.transition .waiting]
      ∧ i ∈ (q.expire now).1.reverted
      ∧ ∃ e', (q.expire now).2.entries.get? i = some e'
        ∧ e'.reservation = e.reservation.transition .waiting := by
  obtain ⟨hstate, -⟩ := isLapsed_iff.1 hl
  have hu : ¬ isUnpolled now e = true := by
    rw [isUnpolled_iff, hstate]
    simp
  have hmem : e ∈ q.all.filter (isLapsed now) :=
    List.mem_filter.2 ⟨mem_all.2 ⟨i, he⟩, hl⟩
  have hreports : reportsOf i (q.expire now).1.changed
      = [e.reservation.transition .waiting] := by
    rw [reportsOf_expire hf, he, Option.filter_some, Option.filter_some,
      if_neg hu, if_pos hl]
    rfl
  refine ⟨hreports, ?_, ?_⟩
  · rw [expire_eq]
    exact List.mem_map.2 ⟨e, hmem, hf i e he⟩
  · -- it is reported as pending, so it is stored
    have hid : (e.reservation.transition .waiting).id = i := hf i e he
    have hpending : (q.expire now).2.pending? i
        = some (e.reservation.transition .waiting) := by
      rw [pending?_expire hf hs, ← told_reportsOf, hreports]
      show (if _ then _ else _) = _
      rw [if_pos hid]
      rfl
    unfold pending? pendingOnly at hpending
    obtain ⟨e', he', hr⟩ := Option.map_eq_some_iff.1
      (Option.filter_eq_some_iff.1 hpending).1
    exact ⟨e', he', hr⟩

-- ===================================================== a session that ends

/-- The end of a session ends its spells. -/
theorem removeSession_turns (hf : q.Filed)
    (hs : ∀ i e, q.entries.get? i = some e → e.Sound)
    (session : SessionId) :
    Turns deadline? (fun r _ r' => r.owner.session = session
        ∧ r' = r.transition .cancelled) q
      (q.removeSession session).1 (q.removeSession session).2 := by
  intro i
  have hreports := reportsOf_picked hf (fun e =>
    e.isOwnedBy session && e.reservation.state.isPending) (f := fun e =>
      e.reservation.transition .cancelled) (fun _ => rfl) i
  have hafter : (q.removeSession session).2.entries.get? i
      = (q.entries.get? i).filter fun e => !e.isOwnedBy session :=
    Table.get?_filter ..
  unfold spell?
  rw [show reportsOf i (q.removeSession session).1 = _ from hreports,
    hafter]
  cases he : q.entries.get? i with
  | none => exact .quiet
  | some e =>
    rw [Option.filter_some, Option.filter_some]
    by_cases hown : e.isOwnedBy session = true
    · rw [hown, Bool.true_and]
      show Turn deadline? _ e.spell? _ none
      by_cases hp : e.reservation.state.isPending = true
      · rw [if_pos hp]
        exact .close nofun
          fun d _ => ⟨QueueEntry.isOwnedBy_iff.1 hown, rfl⟩
      · have hdone : e.spell? = none := by
          refine (hs i e he).spell?_eq_none fun hstate => hp ?_
          rw [hstate]
          rfl
        rw [if_neg hp, hdone]
        exact .quiet
    · rw [Bool.not_eq_true] at hown
      rw [hown, Bool.false_and]
      exact .quiet

end Queue

end LabLease
