/-
An allocation stands for its grace period: what is set aside for a
reservation stays as it is until its owner uses it or gives it up, until
some of it is gone, or until a sweep finds the deadline over.

# Histories

The coordinator looks through the queue within almost every call, so an
allocation may begin or end in the middle of one. What is said about it
is therefore said of the reports: the history of a reservation is the
list of its reports, each with the call that it came in, and between two
of them nothing happens to it. `Spells` follows a history from spell to
spell, and the history of a call is put together from those of its moves
(`Moves.spells`).

# The deadline

It is kept in the entry, but it is the instant of the call that reported
the allocation and the grace period, and this is how it is stated.
-/
import LabLease.Proofs.Coordinator.Leasing
import LabLease.Proofs.Coordinator.Reports

namespace LabLease.Coordinator

-- =============================================================== histories

/-- When a call is made, if that matters to it. -/
def Input.instant? : Input → Option Moment
  | .register _ _ now | .execute _ _ now | .disconnect _ now
  | .sweep now => some now
  | .takeEvents | .takeNotices => none

/-- A call beside the state in which it is made. -/
structure Call where
  before : State
  input : Input

namespace Call

/-- All that a call emits. -/
def changes (c : Call) : List Change :=
  c.before.emitted (c.before.step c.input)

/-- What a call reports of one reservation. -/
def reportsOf (c : Call) (id : String) : List Reservation :=
  LabLease.reportsOf id (reported c.changes)

end Call

namespace State

/-- The calls of a run. -/
def calls : State → List Input → List Call
  | _, [] => []
  | s, input :: inputs => ⟨s, input⟩ :: (s.step input).calls inputs

/-- The reports of one reservation in a run, each with its call. -/
def history (s : State) (id : String) (inputs : List Input) :
    List (Call × Reservation) :=
  (s.calls inputs).flatMap fun c => (c.reportsOf id).map (c, ·)

end State

-- ============================================================ the reasons

/-- The calls that end a session. -/
inductive EndsSession (s : State) (x : SessionId) : Input → Prop
  | disconnected (now : Moment) : EndsSession s x (.disconnect x now)
  | asked (now : Moment) :
    EndsSession s x (.execute x .disconnect now)
  | replaced {name : String} {old : Session} (role : Role) (now : Moment)
      (hn : s.roster.named? name = some old) (hx : old.id = x) :
    EndsSession s x (.register name role now)
  | evicted {now : Moment} (hx : x ∈ s.roster.expired now) :
    EndsSession s x (.sweep now)

/-- The calls by which an exporter takes resources out of the
inventory. -/
inductive Withdraws (s : State) (owner : SessionId) : Input → Prop
  | published (specs : List ResourceSpec) (now : Moment) :
    Withdraws s owner (.execute owner (.setResources specs) now)
  | withdrawn (ids : List ResourceId) (now : Moment) :
    Withdraws s owner (.execute owner (.withdraw ids) now)
  | ended {input : Input} (h : EndsSession s owner input) :
    Withdraws s owner input

/-- The calls that end an allocation with a deadline, made in a state `s`
and emitting `cs`: the reservation is reported as `r` before and as `r'`
by the call. -/
inductive Closes (s : State) (cs : List Change) (r : Reservation)
    (d : Nat) : Input → Reservation → Prop
  | cancelled (now : Moment) :
    Closes s cs r d
      (.execute r.owner.session (.cancelReservation r.id) now)
      (r.transition .cancelled)
  /-- The owner acquires a place, and some of the resources are bound. -/
  | acquired {v : PlaceView} {id : ResourceId} (now : Moment)
      (hv : .place v ∈ cs)
      (hheld : v.place.isHeldBy r.owner.session = true)
      (hid : id ∈ r.allocations) (hbound : id ∈ v.place.bound) :
    Closes s cs r d
      (.execute r.owner.session (.acquire v.place.name) now)
      (r.transition .acquired)
  | left {input : Input} (h : EndsSession s r.owner.session input) :
    Closes s cs r d input (r.transition .cancelled)
  /-- The exporter of some of the resources takes them away. -/
  | removed {input : Input} {owner : SessionId} {id : ResourceId}
      (hid : id ∈ r.allocations) (hgone : .resourceRemoved id ∈ cs)
      (hl : s.roster.Live owner id.exporter .exporter)
      (h : Withdraws s owner input) :
    Closes s cs r d input (r.transition .waiting)
  | lapsed {now : Moment} (hd : d ≤ now.ticks) :
    Closes s cs r d (.sweep now) (r.transition .waiting)

/-- What a call asks for if it is made of moves of a kind. -/
def Kind.Asks (s : State) (input : Input) : Kind → Prop
  | .rescan now => input.instant? = some now
  | .restock owner => Withdraws s owner input
  | .leave x | .forget x => EndsSession s x input
  | .acquire place client =>
    ∃ now, input = .execute client.session (.acquire place) now
  | .cancel id x => ∃ now, input = .execute x (.cancelReservation id) now
  | .expire now => input = .sweep now
  | _ => True

variable {k : Kind} {kinds : Kind → Prop} {l l' : Option SessionId}
  {s s' : State} {input : Input} {i : SessionId} {name : String}
  {role : Role}

theorem Departure.asks {x : SessionId} {now : Moment}
    (h : Departure x now k) (hends : EndsSession s x input)
    (hnow : input.instant? = some now) : k.Asks s input := by
  cases h with
  | leave | forget => exact hends
  | rescan => exact hnow
  | vacate => exact trivial

theorem Takes.asks (h : Takes s input k) : k.Asks s input := by
  cases h with
  | aside | join | heard => exact trivial
  | clear h =>
    cases h with
    | aside => exact trivial
    | replace hn h => exact h.asks (.replaced _ _ hn rfl) rfl
  | serve _ h =>
    cases h with
    | rescan => rfl
    | disconnect h => exact h.asks (.asked _) rfl
    | setResources => exact .published _ _
    | withdraw => exact .withdrawn _ _
    | acquire | cancelReservation => exact ⟨_, rfl⟩
    | createPlace | deletePlace | edit | release | createReservation
    | pollReservation => exact trivial
  | disconnect h => exact h.asks (.disconnected _) rfl
  | sweep h =>
    cases h with
    | aside | reclaim => exact trivial
    | rescan | expire => rfl
    | evict hs h => exact h.asks (.evicted hs) rfl

/-- Only a registration lets somebody join. -/
theorem Takes.joins {x : SessionId} (h : Takes s input (.join x)) :
    ∃ name role now, input = .register name role now := by
  cases h with
  | join => exact ⟨_, _, _, rfl⟩
  | clear h => exact absurd .join h.not_greets
  | serve _ h => exact absurd .join h.not_greets
  | disconnect h => exact absurd .join h.not_greets
  | sweep h => exact absurd .join h.not_greets

/-- Where somebody may join, whoever may leave was there before. -/
theorem Takes.leaves_known (h : Sound none s) {x y : SessionId}
    (hgoes : Takes s input (.restock y) ∨ Takes s input (.leave y))
    (hjoin : Takes s input (.join x)) : y ≤ s.roster.lastId := by
  obtain ⟨name, role, now, rfl⟩ := hjoin.joins
  rcases hgoes with hgoes | hgoes
  · cases hgoes with
    | clear h => cases h with
      | replace _ h => cases h
  · cases hgoes with
    | clear hc => cases hc with
      | replace hn hd =>
        cases hd
        have hlive := (h.attended.roster.named?_eq_some.1 hn).1
        exact h.attended.roster.given _ _ hlive

-- =========================================================== who is there

/-- Names and roles do not change while a session is live. -/
theorem Move.live_was (hm : Move k l s l' s') (hk : k ≠ .join i)
    (hl : s'.roster.Live i name role) : s.roster.Live i name role := by
  obtain ⟨o', ho', rfl, rfl⟩ := hl
  have hsame : ∀ o, s.roster.sessions.get? i = some o →
      o'.bare = o.bare → s.roster.Live i o'.name o'.role := by
    intro o ho hbare
    refine ⟨o, ho, ?_, ?_⟩
    · exact (congrArg Session.name hbare).symm
    · exact (congrArg Session.role hbare).symm
  by_cases hg : Greets i k
  · cases hg with
    | join => exact absurd rfl hk
    | heard now =>
      cases hm with
      | heard hr =>
        obtain ⟨o, ho, rfl⟩ := Roster.heartbeat_ok hr
        rw [Table.get?_insert, if_pos rfl] at ho'
        cases ho'
        exact ⟨o, ho, rfl, rfl⟩
  · obtain ⟨o, ho, hbare⟩ := hm.record_was hg ho'
    exact hsame o ho hbare

/-- Whoever is live stays so, unless it leaves. -/
theorem Move.live_stays (h : Sound l s) (hm : Move k l s l' s')
    (hk : k ≠ .leave i) (hl : s.roster.Live i name role) :
    s'.roster.Live i name role := by
  have hsame : ∀ {r : Roster}, s'.roster.Same r → r.Live i name role →
      s'.roster.Live i name role := by
    intro r hs hl
    obtain ⟨o, ho, rfl, rfl⟩ := hl
    obtain ⟨o', ho', hbare⟩ := hs.stays ho
    refine ⟨o', ho', ?_, ?_⟩
    · show o'.bare.name = o.bare.name
      rw [hbare]
    · show o'.bare.role = o.bare.role
      rw [hbare]
  rcases hm.roster with ⟨_, _, -, hr⟩ | ⟨_, _, _, _, -, hr⟩ | ⟨x, rfl, hr⟩
    | hr
  · exact hl.heartbeat hr
  · exact hl.register h.attended.roster hr
  · refine hsame hr (hl.remove ?_)
    rintro rfl
    exact hk rfl
  · exact hsame hr hl

/-- Nobody who joins gets a number that was given. -/
theorem Moves.live_was (hm : Moves kinds l s l' s')
    (hi : kinds (.join i) → i ≤ s.roster.lastId)
    (hl : s'.roster.Live i name role) : s.roster.Live i name role := by
  induction hm with
  | refl => exact hl
  | tail hrun hkind step ih =>
    refine ih hi (step.live_was ?_ hl)
    rintro rfl
    cases step with
    | join hr =>
      obtain ⟨-, -, hid, -⟩ := Roster.register_ok hr
      have hgiven := Nat.le_trans (hi hkind) hrun.lastId
      exact absurd (hid ▸ hgiven) (Nat.not_succ_le_self _)

-- ============================================================== one call

/-- More may be emitted beside. -/
theorem Closes.mono {cs ds : List Change} {r r' : Reservation} {d : Nat}
    (h : Closes s cs r d input r') (hsub : cs ⊆ ds) :
    Closes s ds r d input r' := by
  cases h with
  | cancelled now => exact .cancelled now
  | acquired now hv hheld hid hbound =>
    exact .acquired now (hsub hv) hheld hid hbound
  | left h => exact .left h
  | removed hid hgone hl h => exact .removed hid (hsub hgone) hl h
  | lapsed hd => exact .lapsed hd

/-- What a move ends it ends on behalf of its call. -/
theorem Breaks.closes {roster : Roster} {cs : List Change}
    {r r' : Reservation} {d : Nat} (hb : Breaks roster cs r d k r')
    (hask : k.Asks s input)
    (hlive : ∀ y name, k = .restock y ∨ k = .leave y →
      roster.Live y name .exporter → s.roster.Live y name .exporter) :
    Closes s cs r d input r' := by
  cases hb with
  | cancelled =>
    obtain ⟨now, rfl⟩ := hask
    exact .cancelled now
  | acquired hclient hv hheld hid hbound =>
    obtain ⟨now, rfl⟩ := hask
    rw [hclient]
    refine .acquired now hv ?_ hid hbound
    simp [Place.isHeldBy, hheld, hclient]
  | @removed _ owner id hk hid hgone hl =>
    refine .removed hid hgone (hlive owner _ hk hl) ?_
    rcases hk with rfl | rfl
    · exact hask
    · exact .ended hask
  | forgotten => exact .left hask
  | lapsed hd =>
    subst hask
    exact .lapsed hd

namespace Call

/-- The deadline of the allocations that a call makes. -/
def deadline? (grace : Nat) (c : Call) : Option Nat :=
  c.input.instant?.map (·.ticks + grace)

theorem deadline?_eq_some {grace d : Nat} {c : Call} :
    c.deadline? grace = some d ↔
      ∃ t, c.input.instant? = some t ∧ t.ticks + grace = d :=
  Option.map_eq_some_iff

end Call

/-- A history from spell to spell: each report makes a turn, within its
call and with the reason that the call has. -/
inductive Spells (grace : Nat)
    (Reason : Call → Reservation → Nat → Reservation → Prop) :
    Option (Reservation × Nat) → List (Call × Reservation) →
      Option (Reservation × Nat) → Prop
  | nil {a : Option (Reservation × Nat)} : Spells grace Reason a [] a
  | cons {a b z : Option (Reservation × Nat)} {c : Call}
      {r : Reservation} {rest : List (Call × Reservation)}
      (h : Turn (c.deadline? grace) (Reason c) a [r] b)
      (hrest : Spells grace Reason b rest z) :
    Spells grace Reason a ((c, r) :: rest) z

namespace Spells

variable {grace : Nat} {Reason : Call → Reservation → Nat → Reservation → Prop}
  {a b z : Option (Reservation × Nat)} {xs ys : List (Call × Reservation)}
  {c c' : Call} {r r' : Reservation} {d : Nat}

theorem append (h : Spells grace Reason a xs b)
    (h' : Spells grace Reason b ys z) :
    Spells grace Reason a (xs ++ ys) z := by
  induction h with
  | nil => exact h'
  | cons h _ ih => exact .cons h (ih h')

theorem split (h : Spells grace Reason a (xs ++ ys) z) :
    ∃ b, Spells grace Reason a xs b ∧ Spells grace Reason b ys z := by
  induction xs generalizing a with
  | nil => exact ⟨a, .nil, h⟩
  | cons x xs ih =>
    cases h with
    | cons h hrest =>
      obtain ⟨b, hxs, hys⟩ := ih hrest
      exact ⟨b, .cons h hxs, hys⟩

/-- A turn within a call. -/
theorem of_turn {deadline? : Option Nat}
    {Why : Reservation → Nat → Reservation → Prop}
    {rs : List Reservation} (h : Turn deadline? Why a rs b)
    (hd : ∀ d, deadline? = some d → c.deadline? grace = some d)
    (hwhy : ∀ r d r', Why r d r' → Reason c r d r') :
    Spells grace Reason a (rs.map (c, ·)) b := by
  cases h with
  | quiet => exact .nil
  | begins hdl hr => exact .cons (.begins (hd _ hdl) hr) .nil
  | ends hr h => exact .cons (.ends hr (hwhy _ _ _ h)) .nil
  | other hr => exact .cons (.other hr) .nil

/-- If the last report is of an allocation, it stands, with a deadline
from the call of the report. -/
theorem of_last (h : Spells grace Reason none xs z)
    (hlast : xs.getLast? = some (c, r)) (hr : r.state = .allocated) :
    ∃ d, z = some (r, d) ∧ c.deadline? grace = some d := by
  obtain ⟨ys, rfl⟩ := List.getLast?_eq_some_iff.1 hlast
  obtain ⟨b, -, hturn⟩ := h.split
  cases hturn with
  | cons hturn hnil =>
    cases hnil
    cases hturn with
    | begins hd => exact ⟨_, rfl, hd⟩
    | ends hno | other hno => exact absurd hr hno

/-- What stands was reported last. -/
theorem last_of (h : Spells grace Reason none xs (some (r, d))) :
    ∃ c, xs.getLast? = some (c, r) ∧ c.deadline? grace = some d := by
  rcases List.eq_nil_or_concat xs with rfl | ⟨ys, ⟨c, r'⟩, rfl⟩
  · cases h
  · rw [List.concat_eq_append] at h ⊢
    obtain ⟨b, -, hturn⟩ := h.split
    cases hturn with
    | cons hturn hnil =>
      cases hnil
      cases hturn with
      | begins hd => exact ⟨c, List.getLast?_concat, hd⟩

/-- A report of an allocation begins a spell, and the next report ends
it. -/
theorem next {before after : List (Call × Reservation)}
    (h : Spells grace Reason a (before ++ (c, r) :: (c', r') :: after) z)
    (hr : r.state = .allocated) :
    ∃ d, c.deadline? grace = some d ∧ Reason c' r d r' := by
  obtain ⟨b, -, hrest⟩ := h.split
  cases hrest with
  | cons hturn hrest =>
    cases hturn with
    | ends hno | other hno => exact absurd hr hno
    | begins hd =>
      cases hrest with
      | cons hturn' =>
        cases hturn' with
        | ends _ hwhy => exact ⟨_, hd, hwhy⟩

end Spells

/-- How the call of a report ends an allocation. -/
def Call.Closes (c : Call) (r : Reservation) (d : Nat)
    (r' : Reservation) : Prop :=
  Coordinator.Closes c.before c.changes r d c.input r'

/-- The history of a reservation within a call, as far as its moves have
gone. -/
theorem Moves.spells (id : String) (h : Sound none s) (ht : Timed s)
    (hm : Moves kinds none s l' s')
    (hask : ∀ k, kinds k → k.Asks s input)
    (hknown : ∀ x y, kinds (.restock y) ∨ kinds (.leave y) →
      kinds (.join x) → y ≤ s.roster.lastId) :
    Timed s' ∧ ∃ cs, Emits s s' cs
      ∧ ∀ Reason : Call → Reservation → Nat → Reservation → Prop,
        (∀ r d r', Closes s cs r d input r' → Reason ⟨s, input⟩ r d r') →
        Spells s.settings.reservationGrace Reason (s.queue.spell? id)
          ((reportsOf id (reported cs)).map (⟨s, input⟩, ·))
          (s'.queue.spell? id) := by
  generalize hl : (none : Option SessionId) = l at hm
  induction hm with
  | refl =>
    exact ⟨ht, [], .nil rfl, fun _ _ => .nil⟩
  | @tail k l l' l'' s u t hrun hkind step ih =>
    subst hl
    obtain ⟨htu, cs, hcs, hspells⟩ := ih h ht hask hknown rfl
    have hu := h.moves hrun
    obtain ⟨ds, hds, hturns⟩ := step.turns hu htu
    refine ⟨htu.move hu step, cs ++ ds, hcs.trans hds, ?_⟩
    intro Reason hreason
    rw [reported_append, reportsOf_append, List.map_append]
    refine (hspells Reason fun r d r' hwhy => ?_).append ?_
    · exact hreason r d r' (hwhy.mono (List.subset_append_left cs ds))
    · refine .of_turn (hturns id) (fun d hd => ?_) fun r d r' hb => ?_
      · rw [hrun.settings] at hd
        cases k with
        | rescan now =>
          cases hd
          show Option.map _ input.instant? = _
          rw [show input.instant? = some now from hask _ hkind]
          rfl
        | _ => cases hd
      · have hwhy := hb.closes (hask k hkind) fun y name hgoes hlive =>
          hrun.live_was (hknown y y ?_) hlive
        · exact hreason r d r' (hwhy.mono (List.subset_append_right cs ds))
        · rcases hgoes with rfl | rfl
          · exact Or.inl hkind
          · exact Or.inr hkind

namespace Sound

variable {id : String}

/-- The history of a reservation in one call. -/
theorem step_spells (h : Sound none s) (ht : Timed s) (input : Input) :
    Timed (s.step input)
      ∧ Spells s.settings.reservationGrace Call.Closes
          (s.queue.spell? id)
          (((⟨s, input⟩ : Call).reportsOf id).map (⟨s, input⟩, ·))
          ((s.step input).queue.spell? id) := by
  unfold Call.reportsOf Call.changes
  rcases h.step_moves input with hm | hdrained
  · obtain ⟨ht', cs, hcs, hspells⟩ := hm.spells id h ht
      (fun _ hk => hk.asks) fun _ _ => Takes.leaves_known h
    refine ⟨ht', ?_⟩
    rw [hcs.emitted_eq]
    refine hspells _ fun r d r' hwhy => ?_
    unfold Call.Closes Call.changes
    rw [hcs.emitted_eq]
    exact hwhy
  · dsimp only
    rw [hdrained, State.emitted_drained]
    exact ⟨⟨ht.fresh, ht.grace⟩, .nil⟩

/-- The history of a reservation in a run. -/
theorem run_spells (h : Sound none s) (ht : Timed s)
    (inputs : List Input) :
    Timed (s.run inputs)
      ∧ Spells s.settings.reservationGrace Call.Closes
          (s.queue.spell? id) (s.history id inputs)
          ((s.run inputs).queue.spell? id) := by
  induction inputs generalizing s with
  | nil => exact ⟨ht, .nil⟩
  | cons input inputs ih =>
    obtain ⟨ht', hstep⟩ := h.step_spells ht input
    obtain ⟨ht'', hrest⟩ := ih (h.step input) ht'
    rw [show (s.step input).settings = s.settings from
      h.run_settings [input]] at hrest
    exact ⟨ht'', hstep.append hrest⟩

end Sound

-- ============================================================ the sweep

/-- Moves only add to what is emitted. -/
theorem Moves.emits (h : Sound l s) (ht : Timed s)
    (hm : Moves kinds l s l' s') : Timed s' ∧ ∃ cs, Emits s s' cs := by
  induction hm with
  | refl => exact ⟨ht, [], .nil rfl⟩
  | tail hrun _ step ih =>
    obtain ⟨htu, cs, hcs⟩ := ih h ht
    have hu := h.moves hrun
    obtain ⟨ds, hds, -⟩ := step.turns hu htu
    exact ⟨htu.move hu step, cs ++ ds, hcs.trans hds⟩

/-- A check of the deadlines comes with its reports, and then with a
rescan unless there was nothing to report. -/
theorem State.expireReservations_parts (s : State) (now : Moment) :
    ∃ t : State, t.queue = (s.queue.expire now).2
      ∧ t.inventory = s.inventory
      ∧ Emits s t ((s.queue.expire now).1.changed.map .reservation)
      ∧ s.expireReservations now
        = if (s.queue.expire now).1.changed.isEmpty = true then t
          else t.rescan now (s.queue.expire now).1.reverted := by
  refine ⟨emitAll { s with queue := (s.queue.expire now).2 }
      ((s.queue.expire now).1.changed.map .reservation),
    emitAll_queue _ _, emitAll_inventory _ _, .emitAll rfl _, ?_⟩
  by_cases hnil : (s.queue.expire now).1.changed.isEmpty = true
  · rw [if_pos hnil, show s.expireReservations now = _ from if_pos hnil,
      List.isEmpty_iff.1 hnil]
    rfl
  · rw [if_neg hnil, show s.expireReservations now = _ from if_neg hnil]
    rfl

/-- What has lapsed when deadlines are checked waits again, and is not
served at once. -/
theorem State.expireReservations_lapsed (h : Sound none s)
    {id : String} {e : QueueEntry} {now : Moment}
    (he : s.queue.entries.get? id = some e)
    (hl : Queue.isLapsed now e = true) :
    (∃ e', (s.expireReservations now).queue.entries.get? id = some e'
        ∧ e'.reservation = e.reservation.transition .waiting)
      ∧ ∃ cs rest, Emits s (s.expireReservations now) cs
        ∧ reportsOf id (reported cs)
          = e.reservation.transition .waiting :: rest := by
  obtain ⟨hreports, hskip, e', he', hr⟩ :=
    Queue.expire_lapsed h.queue h.allotted.sound he hl
  have hsome : ¬ (s.queue.expire now).1.changed.isEmpty = true := by
    intro hnil
    rw [List.isEmpty_iff.1 hnil] at hreports
    cases hreports
  -- the check and its reports are done before the others are served
  obtain ⟨t, hqueue, hinv, hfirst, heq⟩ := s.expireReservations_parts now
  rw [heq, if_neg hsome]
  constructor
  · refine ⟨e', ?_, hr⟩
    rw [State.rescan_queue, Queue.rescan_eq, hqueue]
    refine (Queue.get?_foldl_put_of_notMem fun hin => ?_).trans he'
    obtain ⟨f', hf', hid⟩ := List.mem_map.1 hin
    obtain ⟨f, ids, -, -, hnot, rfl, -⟩ :=
      (Queue.served_of_mem (hinv ▸ h.inventory) hf').origin
    rw [QueueEntry.allocated_id] at hid
    exact hnot (hid ▸ hskip)
  · rw [State.rescan_eq]
    refine ⟨_, reportsOf id (t.queue.rescan t.inventory t.isFree
      (s.queue.expire now).1.reverted now).1, hfirst.trans (.emitAll rfl _),
      ?_⟩
    rw [reported_append, reportsOf_append, reported_reservations,
      reported_reservations, hreports]
    rfl

/-- What a sweep reports of a reservation before it checks deadlines. -/
def State.evictionReports (s : State) (id : String) (now : Moment) :
    List Reservation :=
  reportsOf id (reported (s.emitted (s.evictSilent now)))

/-- The end of a sweep only adds to what is emitted. -/
theorem Sound.sweep_emits (h : Sound none s) (ht : Timed s)
    (now : Moment) : ∃ es, Emits (s.inspected now) (s.sweep now) es := by
  have hcheck := Moves.inspected h now
  have horphans : Moves (fun _ => True) none (s.inspected now) none
      (s.sweep now) :=
    .releaseOrphans (h.moves hcheck) now trivial trivial
      fun _ _ _ => trivial
  exact (horphans.emits (h.moves hcheck) (hcheck.emits h ht).1).2

/-- What is allocated when a sweep checks deadlines has been so since a
report, and waits again if the grace period is over. -/
theorem Sound.sweep_lapses (h : Sound none s) (ht : Timed s)
    {id : String} {past : List (Call × Reservation)}
    (hpast : Spells s.settings.reservationGrace Call.Closes none past
      (s.queue.spell? id)) (now : Moment) {e : QueueEntry}
    (he : (s.evictSilent now).queue.entries.get? id = some e)
    (ha : e.reservation.state = .allocated) :
    ∃ c t, (past ++ (s.evictionReports id now).map
        (Call.mk s (.sweep now), ·)).getLast? = some (c, e.reservation)
      ∧ c.input.instant? = some t
      ∧ (t.ticks + s.settings.reservationGrace ≤ now.ticks →
        (∃ e', (s.inspected now).queue.entries.get? id = some e'
          ∧ e'.reservation = e.reservation.transition .waiting)
        ∧ ∃ rest, (Call.mk s (.sweep now)).reportsOf id
          = s.evictionReports id now
            ++ e.reservation.transition .waiting :: rest) := by
  have hevict := Moves.evictSilent h now
  have hu := h.moves hevict
  obtain ⟨htu, cs, hcs, hspells⟩ := (hevict.mono fun _ => Takes.sweep).spells
    id h ht (fun _ hk => hk.asks) fun _ _ => Takes.leaves_known h
  obtain ⟨es, hes⟩ := h.sweep_emits ht now
  have hexpire : Moves (fun _ => True) none (s.evictSilent now) none
      (s.inspected now) := .expireReservations none _ now trivial trivial
  obtain ⟨-, ds, hds⟩ := hexpire.emits hu htu
  have hseen : s.evictionReports id now = reportsOf id (reported cs) := by
    unfold State.evictionReports
    rw [hcs.emitted_eq]
  have hall : (Call.mk s (.sweep now)).changes = cs ++ ds ++ es :=
    ((hcs.trans hds).trans hes).emitted_eq
  have hsofar := hpast.append (hspells Call.Closes fun r d r' hwhy => by
    unfold Call.Closes
    rw [hall, List.append_assoc]
    exact hwhy.mono (List.subset_append_left _ _))
  -- what is allocated was reported last, and its deadline goes back there
  obtain ⟨d, hspell⟩ := (hu.allotted.sound id e he).spell?_of_allocated ha
  have hdeadline := (QueueEntry.spell?_eq_some.1 hspell).1
  rw [Queue.spell?_of_get? he, hspell] at hsofar
  obtain ⟨c, hlast, hd⟩ := hsofar.last_of
  obtain ⟨t, hinstant, rfl⟩ := Call.deadline?_eq_some.1 hd
  rw [hseen]
  refine ⟨c, t, hlast, hinstant, fun hover => ?_⟩
  obtain ⟨hwaits, ds', rest, hds', hreports⟩ :=
    State.expireReservations_lapsed hu he
      (Queue.isLapsed_iff.2 ⟨ha, _, hdeadline, hover⟩)
  refine ⟨hwaits, rest ++ reportsOf id (reported es), ?_⟩
  have hsame : ds = ds' := hds.emitted_eq.symm.trans hds'.emitted_eq
  unfold Call.reportsOf
  rw [hall, hsame, reported_append, reported_append, reportsOf_append,
    reportsOf_append, hreports, List.append_assoc]
  rfl

-- ======================================================= in every state

/-- An allocation stands for its grace period. In every state a
reservation is stored as allocated exactly as its last report says, that
is, nothing changes between its reports. The report that follows the one
of an allocation ends it: its owner cancels it, or acquires a place with
some of its resources, or ends, or some of them are taken out of the
inventory by their exporter, or a sweep comes after the grace period,
counted from the call in which it began. And whatever is allocated when
such a sweep checks deadlines waits again after the check. -/
theorem allocation_stands (settings : Settings) (inputs : List Input)
    (id : String) :
    let s := (State.new settings).run inputs
    let past := (State.new settings).history id inputs
    (∀ r, r.state = .allocated →
      ((∃ e, s.queue.entries.get? id = some e ∧ e.reservation = r)
        ↔ ∃ c, past.getLast? = some (c, r)))
    ∧ (∀ before c r c' r' after,
      past = before ++ (c, r) :: (c', r') :: after →
      r.state = .allocated →
      ∃ t, c.input.instant? = some t
        ∧ Closes c'.before c'.changes r
          (t.ticks + settings.reservationGrace) c'.input r')
    ∧ ∀ now e, (s.evictSilent now).queue.entries.get? id = some e →
      e.reservation.state = .allocated →
      ∃ c t, (past ++ (s.evictionReports id now).map
          (Call.mk s (.sweep now), ·)).getLast? = some (c, e.reservation)
        ∧ c.input.instant? = some t
        ∧ (t.ticks + settings.reservationGrace ≤ now.ticks →
          (∃ e', (s.inspected now).queue.entries.get? id = some e'
            ∧ e'.reservation = e.reservation.transition .waiting)
          ∧ ∃ rest, (Call.mk s (.sweep now)).reportsOf id
            = s.evictionReports id now
              ++ e.reservation.transition .waiting :: rest) := by
  intro s past
  have h : Sound none s := .reached settings inputs
  have hset : s.settings = settings :=
    (Sound.new settings).run_settings inputs
  obtain ⟨ht, hspells⟩ : Timed s
      ∧ Spells settings.reservationGrace Call.Closes none past
        (s.queue.spell? id) :=
    (Sound.new settings).run_spells (.new settings) inputs
  refine ⟨fun r hr => ⟨?_, ?_⟩, ?_, ?_⟩
  · rintro ⟨e, he, rfl⟩
    obtain ⟨d, hspell⟩ := (h.allotted.sound id e he).spell?_of_allocated hr
    rw [Queue.spell?_of_get? he, hspell] at hspells
    obtain ⟨c, hlast, -⟩ := hspells.last_of
    exact ⟨c, hlast⟩
  · rintro ⟨c, hlast⟩
    obtain ⟨d, hspell, -⟩ := hspells.of_last hlast hr
    obtain ⟨e, he, -, heq⟩ := Queue.spell?_eq_some.1 hspell
    exact ⟨e, he, heq⟩
  · intro before c r c' r' after heq hr
    rw [heq] at hspells
    obtain ⟨d, hd, hwhy⟩ := hspells.next hr
    obtain ⟨t, ht, rfl⟩ := Call.deadline?_eq_some.1 hd
    exact ⟨t, ht, hwhy⟩
  · intro now e he ha
    rw [← hset] at hspells ⊢
    exact h.sweep_lapses ht hspells now he ha

/-- A grace period of five seconds. -/
def brisk : Settings := { reservationGraceSecs := 5 }

/-- Five seconds past noon. -/
def late : Moment := ⟨5000, ⟨2024, 1, 1, 12, 0, 5, 0⟩⟩

/-- The allocation of a booking lapses in a sweep that comes late. -/
theorem allocation_stands_booking :
    let s := (State.new brisk).run booking
    let id := Reservation.idOf 1
    (∃ e c, s.queue.entries.get? id = some e
      ∧ e.reservation.state = .allocated
      ∧ ((State.new brisk).history id booking).getLast?
        = some (c, e.reservation)
      ∧ ∃ e', (s.inspected late).queue.entries.get? id = some e'
        ∧ e'.reservation = e.reservation.transition .waiting)
    ∧ ∃ before c r c' r' after t,
      (State.new brisk).history id (booking ++ [.sweep late])
        = before ++ (c, r) :: (c', r') :: after
      ∧ r.state = .allocated ∧ c.input.instant? = some t
      ∧ Closes c'.before c'.changes r (t.ticks + 5000) c'.input r' := by
  intro s id
  constructor
  · have hnone : s.evictionReports id late = [] := by
      decide +kernel +revert
    have hnoon : (((State.new brisk).history id booking).getLast?.bind
        (·.1.input.instant?)).map (·.ticks) = some 0 := by
      decide +kernel +revert
    obtain ⟨e, he⟩ : ∃ e, s.queue.entries.get? id = some e :=
      Option.isSome_iff_exists.1 (by decide +kernel +revert)
    have ha : e.reservation.state = .allocated := by
      have hall : (s.queue.entries.get? id).all
          (·.reservation.state = .allocated) = true := by
        decide +kernel +revert
      rw [he] at hall
      exact of_decide_eq_true hall
    have hsame : (s.evictSilent late).queue.entries.get? id = some e := by
      have hquiet : (s.evictSilent late).queue.entries.get? id
          = s.queue.entries.get? id := by decide +kernel +revert
      rw [hquiet, he]
    obtain ⟨-, -, hlapses⟩ := allocation_stands brisk booking id
    obtain ⟨c, t, hlast, ht, hwaits⟩ := hlapses late e hsame ha
    rw [hnone, List.map_nil, List.append_nil] at hlast
    rw [hlast, Option.bind_some, ht] at hnoon
    have hticks : t.ticks = 0 := Option.some.inj hnoon
    refine ⟨e, c, he, ha, hlast, (hwaits ?_).1⟩
    rw [hticks]
    decide
  · -- it waits, has its allocation, and waits again
    have hstates : ((State.new brisk).history id
        (booking ++ [.sweep late])).map (·.2.state)
          = [.waiting, .allocated, .waiting] := by
      decide +kernel +revert
    obtain ⟨x, rest, hpast, -, hrest⟩ := List.map_eq_cons_iff.1 hstates
    obtain ⟨⟨c, r⟩, rest', rfl, hr, hrest'⟩ :=
      List.map_eq_cons_iff.1 hrest
    obtain ⟨⟨c', r'⟩, after, rfl, -⟩ := List.map_eq_cons_iff.1 hrest'
    obtain ⟨-, hnext, -⟩ := allocation_stands brisk
      (booking ++ [.sweep late]) id
    obtain ⟨t, ht, hends⟩ := hnext [x] c r c' r' after hpast hr
    exact ⟨[x], c, r, c', r', after, t, hpast, hr, ht, hends⟩

end LabLease.Coordinator
