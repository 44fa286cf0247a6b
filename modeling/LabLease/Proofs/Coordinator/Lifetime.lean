/-
When a sweep lets a waiting reservation expire: once nobody has asked for
it for as long as it may live.

# Whence the lifetime counts

The deadline that a sweep goes by is state; `lastRenewed` is read off the
calls. The two agree (`Sound.run_renewed`), because each kind of move says
what it does to the poll deadlines: a creation, a poll and a check of the
deadlines may set some, and no other kind does (`Move.renewed`).

# A loss is no renewal

Where an allocation comes to an end because a resource is gone, the
reservation goes back to waiting with the deadline it had. If it was not
polled meanwhile it may expire in the next sweep
(`lost_allocation_expires`).
-/
import LabLease.Proofs.Coordinator.Lapse
import LabLease.Proofs.Coordinator.LifeCycle
import LabLease.Proofs.Registry.Lifetime

namespace LabLease

/-- Whether an answer to an operation says that a reservation was created,
or that it was polled while it was pending. -/
def Operation.renews (id : String) : Operation → Reply → Bool
  | .createReservation .., .reservation r => r.id = id
  | .pollReservation i, .reservation r => i = id && r.state.isPending
  | _, _ => false

namespace Coordinator

variable {k : Kind} {kinds : Kind → Prop} {l l' : Option SessionId}
  {s s' : State} {id : String} {now : Moment}

namespace State

/-- From when on a call lets a reservation live for its full time, if it
does. -/
def renewedAt (s : State) (id : String) : Input → Option Nat
  | .execute session op now =>
    match ((Action.execute session op now).apply s).1 with
    | .ok reply => if op.renews id reply then some now.ticks else none
    | .error _ => none
  | .sweep now => if id ∈ s.reverted now then some now.ticks else none
  | _ => none

/-- When the lifetime of a reservation was last renewed in the course of
some calls. -/
def lastRenewed (s : State) (id : String) : List Input → Option Nat
  | [] => none
  | input :: inputs =>
    ((s.step input).lastRenewed id inputs).or (s.renewedAt id input)

end State

-- ================================================================== moves

/-- The kinds of moves that leave all poll deadlines where they are. -/
def Kind.Lasting : Kind → Prop
  | .reserve _ | .poll _ _ | .expire _ => False
  | _ => True

theorem Move.renewed (h : Sound l s) (hm : Move k l s l' s')
    (hk : k.Lasting) : s'.queue.Renewed s.queue id none := by
  have hsame : s'.queue = s.queue → s'.queue.Renewed s.queue id none :=
    fun heq => heq ▸ .refl _ id
  cases hm with
  | aside | heard | join => exact hsame rfl
  | rescan now skip =>
    rw [State.rescan_queue]
    exact .rescan h.queue h.inventory id _ skip now
  | restock | leave =>
    unfold State.restocked
    rw [State.emitAll_queue]
    exact .invalidate _ id _
  | vacate | create | revise | delete =>
    exact hsame (State.emitAll_queue _ _)
  | acquire =>
    unfold State.occupied
    rw [State.emitAll_queue]
    exact .convert _ id _ _ _
  | cancel hc =>
    rw [State.emitAll_queue]
    exact .cancel hc
  | forget =>
    rw [State.emitAll_queue]
    exact .removeSession _ id _
  | reserve | poll | expire => exact hk.elim

theorem Moves.renewed (h : Sound l s) (hm : Moves kinds l s l' s')
    (hk : ∀ k, kinds k → k.Lasting) :
    s'.queue.Renewed s.queue id none := by
  induction hm with
  | refl => exact .refl _ id
  | tail hrun hkind step ih =>
    exact (step.renewed (h.moves hrun) (hk _ hkind)).trans (ih h)

theorem Departure.lasting {session : SessionId}
    (h : Departure session now k) : k.Lasting := by
  cases h <;> exact trivial

/-- Only creations and polls touch the deadlines. -/
theorem Serves.lasting {session : SessionId} {settings : Settings}
    {op : Operation} (h : Serves session now settings op k)
    (hcreate : ∀ filters priority,
      op ≠ .createReservation filters priority)
    (hpoll : ∀ id, op ≠ .pollReservation id) : k.Lasting := by
  cases h with
  | disconnect h => exact h.lasting
  | createReservation => exact absurd rfl (hcreate _ _)
  | pollReservation => exact absurd rfl (hpoll _)
  | _ => exact trivial

-- ================================================================== calls

/-- What a granted operation does to the lifetimes is told by its
answer. -/
theorem Granted.renewed {session : SessionId} {op : Operation}
    {reply : Reply} (h : Sound none s)
    (hg : Granted session now s op reply s') :
    s'.queue.Renewed s.queue id
      (if op.renews id reply then some now.ticks else none) := by
  cases op with
  | createReservation filters priority =>
    cases hg with
    | answered ha => cases ha
    | edited hop => cases hop
    | @reserved _ _ name r r' queue hl hc hr =>
      have hm : Move (.reserve ⟨name, session⟩) none s none
          ({ s with queue }.emitAll [.reservation r]) := .reserve _ hl hc
      have hu := h.move hm
      have hid : r'.id = r.id := by
        refine Queue.id_of_stored? ?_ (Queue.stored?_of_get hr)
        exact (hu.move (.rescan now [])).queue
      have hset : Queue.Renewed ({ s with queue }.emitAll
            [.reservation r]).queue s.queue id
          (if r'.id = id then some now.ticks else none) := by
        rw [State.emitAll_queue, hid]
        exact .create hc
      rw [State.rescan_queue]
      simp only [Operation.renews, decide_eq_true_eq]
      exact (Queue.Renewed.rescan hu.queue hu.inventory id _ [] now).trans
        hset
  | pollReservation i =>
    cases hg with
    | answered ha => cases ha
    | edited hop => cases hop
    | polled hp =>
      simp only [Operation.renews, Bool.and_eq_true, decide_eq_true_eq]
      exact .poll hp
  | _ => exact (hg.moves h).renewed h fun k hk => hk.lasting nofun nofun

namespace Sound

theorem expireReservations_advances (h : Sound none s) (now : Moment) :
    (s.expireReservations now).queue.Advances (s.queue.expire now).2 := by
  obtain ⟨t, hqueue, hinv, -, heq⟩ := s.expireReservations_parts now
  rw [heq, ← hqueue]
  split
  · exact .refl _
  · rw [State.rescan_queue]
    refine .rescan ?_ (hinv ▸ h.inventory) _ _ _
    exact hqueue ▸ h.queue.descends (Queue.expire_descends h.queue now)

theorem expireReservations_renewed (h : Sound none s) (now : Moment) :
    (s.expireReservations now).queue.Renewed s.queue id
      (if id ∈ (s.queue.expire now).1.reverted then some now.ticks
        else none) := by
  have hexpire := Queue.Renewed.expire h.queue id now
  obtain ⟨t, hqueue, hinv, -, heq⟩ := s.expireReservations_parts now
  rw [← hqueue] at hexpire
  rw [heq]
  split
  · exact hexpire
  · rw [State.rescan_queue]
    refine (Queue.Renewed.rescan ?_ (hinv ▸ h.inventory) id _ _ _).trans
      hexpire
    exact hqueue ▸ h.queue.descends (Queue.expire_descends h.queue now)

/-- Evictions renew nothing. -/
theorem evictSilent_renewed (h : Sound none s) (now : Moment) :
    (s.evictSilent now).queue.Renewed s.queue id none := by
  have hm : Moves Kind.Lasting none s none (s.evictSilent now) :=
    .foldl (fun _ _ _ ht => .evict ht now trivial
      fun _ hk => Departure.lasting hk) h
  exact hm.renewed h fun _ hk => hk

theorem sweep_renewed (h : Sound none s) (now : Moment) :
    (s.sweep now).queue.Renewed s.queue id
      (if id ∈ s.reverted now then some now.ticks else none) := by
  have hu := h.moves (Moves.evictSilent h now)
  have hi := h.moves (Moves.inspected h now)
  have horphans : Moves Kind.Lasting none (s.inspected now) none
      (s.sweep now) :=
    .releaseOrphans hi now trivial trivial fun _ _ _ => trivial
  have hcheck : (s.inspected now).queue.Renewed s.queue id
      ((if id ∈ s.reverted now then some now.ticks else none).or none) :=
    (hu.expireReservations_renewed now).trans (h.evictSilent_renewed now)
  rw [Option.or_none] at hcheck
  exact (horphans.renewed hi fun _ hk => hk).trans hcheck

/-- What a call does to the lifetime of a reservation. -/
theorem step_renewed (h : Sound none s) (input : Input) :
    (s.step input).queue.Renewed s.queue id (s.renewedAt id input) := by
  cases input with
  | register name role now =>
    refine (h.register_moves name role now).renewed h fun k hk => ?_
    cases hk with
    | join => exact trivial
    | clear hc =>
      cases hc with
      | aside => exact trivial
      | replace _ hd => exact hd.lasting
  | execute session op now =>
    unfold State.step State.renewedAt
    dsimp only
    rcases Action.execute_outcome s session op now with
      ⟨e, -, he⟩ | ⟨roster, hr, ho⟩
    · rw [he]
      exact .refl _ id
    · generalize (Action.execute session op now).apply s = out at ho
      cases ho with
      | refused => exact .refl _ id
      | done hg =>
        have hdone : Queue.Renewed _ _ id _ := hg.renewed (h.heard hr)
        exact hdone
  | disconnect session now =>
    refine (h.disconnect_moves session now).renewed h fun k hk => ?_
    cases hk with
    | disconnect hd => exact hd.lasting
  | sweep now => exact h.sweep_renewed now
  | takeEvents => exact .refl _ id
  | takeNotices => exact .refl _ id

theorem run_renewed (h : Sound none s) (inputs : List Input) :
    (s.run inputs).queue.Renewed s.queue id (s.lastRenewed id inputs) := by
  induction inputs generalizing s with
  | nil => exact .refl _ id
  | cons input inputs ih =>
    exact (ih (h.step input)).trans (h.step_renewed input)

end Sound

-- ============================================================= expiration

/-- In a call a reservation is reported as expired. -/
def Call.Expires (c : Call) (id : String) : Prop :=
  ∃ r ∈ c.reportsOf id, r.state = .expired

instance (c : Call) : Decidable (c.Expires id) :=
  inferInstanceAs (Decidable (∃ r ∈ c.reportsOf id, r.state = .expired))

namespace Sound

variable {e : QueueEntry}

/-- Whoever waits and is overdue when a sweep checks the deadlines is
reported. -/
theorem sweep_expires (h : Sound none s) (ht : Timed s)
    (he : (s.evictSilent now).queue.entries.get? id = some e)
    (hu : Queue.isUnpolled now e = true) :
    (Call.mk s (.sweep now)).Expires id := by
  have hevict := Moves.evictSilent h now
  have hgone := h.moves hevict
  obtain ⟨-, cs, hcs⟩ := hevict.emits h ht
  obtain ⟨t, -, -, hchecked, heq⟩ :=
    (s.evictSilent now).expireReservations_parts now
  -- the rest of the sweep only adds to what is reported
  obtain ⟨ds, hds⟩ : ∃ ds, Emits t (s.inspected now) ds := by
    unfold State.inspected
    rw [heq]
    split
    · exact ⟨[], .nil rfl⟩
    · rw [State.rescan_eq]
      exact ⟨_, .emitAll rfl _⟩
  obtain ⟨es, hes⟩ := h.sweep_emits ht now
  have hall := (((hcs.trans hchecked).trans hds).trans hes).emitted_eq
  refine ⟨e.reservation.transition .expired, ?_, rfl⟩
  unfold Call.reportsOf Call.changes
  rw [show s.emitted (s.step (.sweep now)) = _ from hall]
  simp only [reported_append, reportsOf_append, reported_reservations,
    Queue.reportsOf_expire hgone.queue, he, Option.filter_some, hu]
  simp

/-- Nothing is stored of what was reported as expired. -/
theorem step_forgets (h : Sound none s) (ht : Timed s) {input : Input}
    {log : List Change} (hlog : Recorded log s)
    (hexp : (Call.mk s input).Expires id) :
    (s.step input).queue.entries.get? id = none := by
  have hlife : (s.step input).queue.Lived id
      (reportsOf id (reported (log ++ (Call.mk s input).changes))) :=
    h.step_carried ht input (fun _ hp => hp)
      (fun h ht => Recorded.move h ht) hlog id
  obtain ⟨r, hr, hstate⟩ := hexp
  obtain ⟨before, after, hsplit⟩ := List.append_of_mem hr
  rw [reported_append, reportsOf_append,
    show reportsOf id (reported (Call.mk s input).changes) = _ from hsplit,
    ← List.append_assoc] at hlife
  have hlast : after = [] :=
    hlife.last_of_final (by rw [hstate]; rfl)
  subst hlast
  by_contra hne
  obtain ⟨e, he⟩ := Option.ne_none_iff_exists'.1 hne
  have hstored := hlife.stored _ (Queue.stored?_of_get? he)
  rw [List.getLast?_concat, Option.some_inj] at hstored
  refine ((h.step input).allotted.sound id e he).kept ?_
  rw [← hstored, hstate]

/-- Whoever waits and is not overdue outlives the sweep. -/
theorem sweep_keeps (h : Sound none s)
    (he : (s.evictSilent now).queue.entries.get? id = some e)
    (hw : e.reservation.state = .waiting)
    (hu : ¬ Queue.isUnpolled now e = true) :
    ∃ e', (s.sweep now).queue.entries.get? id = some e' := by
  have hgone := h.moves (Moves.evictSilent h now)
  have hkept := Queue.get?_expire_of_waiting hgone.queue
    (hgone.allotted.sound id e he) he hw now
  rw [if_neg hu] at hkept
  have hadv := (releaseOrphans_advances
    (h.moves (Moves.inspected h now)) now).trans
      (hgone.expireReservations_advances now) id
  rw [hkept] at hadv
  show ∃ e', ((s.inspected now).releaseOrphans now).queue.entries.get? id
    = some e'
  generalize State.queue _ = q at hadv ⊢
  cases hq : q.entries.get? id with
  | none =>
    rw [hq] at hadv
    cases hadv
  | some e' => exact ⟨e', rfl⟩

end Sound

/-- A waiting reservation lives as long as somebody asks for it. When a
sweep checks the deadlines, whatever waits was once created, and it is
reported as expired, and forgotten, iff the poll timeout has passed since
the latest of these: its creation, the last time its owner polled it while
it was pending, and the last time its allocation lapsed. That an
allocation was lost with a resource does not count. -/
theorem waiting_expires_iff (settings : Settings) (inputs : List Input)
    (now : Moment) (id : String) (e : QueueEntry)
    (he : (((State.new settings).run inputs).evictSilent
      now).queue.entries.get? id = some e)
    (hw : e.reservation.state = .waiting) :
    let start := State.new settings
    let s := start.run inputs
    ∃ t, start.lastRenewed id inputs = some t
      ∧ ((Call.mk s (.sweep now)).Expires id
        ↔ t + settings.reservationPollTimeout ≤ now.ticks)
      ∧ ((s.sweep now).queue.entries.get? id = none
        ↔ t + settings.reservationPollTimeout ≤ now.ticks) := by
  intro start s
  have hstart : Sound none start := .new settings
  have h : Sound none s := .reached settings inputs
  have ht : Timed s := hstart.run_timed (.new settings) inputs
  have hlog : Recorded (start.log inputs) s := .reached settings inputs
  have hrenewed : (s.evictSilent now).queue.Renewed start.queue id
      (start.lastRenewed id inputs) :=
    (h.evictSilent_renewed now).trans (hstart.run_renewed inputs)
  have hdeadline := hrenewed.deadline e he
  -- nothing was stored at the start
  rw [show start.queue.entries.get? id = none from rfl, Option.map_none,
    Option.or_none] at hdeadline
  obtain ⟨t, hlast, hticks⟩ := Option.map_eq_some_iff.1 hdeadline
  have hdue : Queue.isUnpolled now e = true
      ↔ t + settings.reservationPollTimeout ≤ now.ticks := by
    rw [Queue.isUnpolled_iff, ← hticks]
    exact and_iff_right hw
  have hforgets : (Call.mk s (.sweep now)).Expires id →
      (s.sweep now).queue.entries.get? id = none := h.step_forgets ht hlog
  have hkeeps : (s.sweep now).queue.entries.get? id = none →
      Queue.isUnpolled now e = true := by
    intro hnone
    by_contra hu
    obtain ⟨e', he'⟩ := h.sweep_keeps he hw hu
    rw [hnone] at he'
    cases he'
  refine ⟨t, hlast, ?_, ?_⟩
  · rw [← hdue]
    exact ⟨fun hexp => hkeeps (hforgets hexp), h.sweep_expires ht he⟩
  · rw [← hdue]
    exact ⟨hkeeps, fun hu => hforgets (h.sweep_expires ht he hu)⟩

/-- Ten seconds without a poll. -/
def impatient : Settings := { reservationPollTimeoutSecs := 10 }

/-- A client reserves what there is not, and asks for it once. -/
def askedOnce : List Input :=
  let any : ResourcePattern := ⟨everything, everything, everything, none⟩
  let clock (ms : Nat) : Moment := ⟨ms, ⟨2024, 1, 1, 12, 0, 0, 0⟩⟩
  [.register "alice" .client (clock 0),
    .execute 1 (.createReservation [any] 0) (clock 0),
    .execute 1 (.pollReservation (Reservation.idOf 1)) (clock 8000)]

/-- Ten seconds after it has asked, and no earlier, the reservation
expires. -/
theorem waiting_expires_iff_asked :
    let clock (ms : Nat) : Moment := ⟨ms, ⟨2024, 1, 1, 12, 0, 0, 0⟩⟩
    let start := State.new impatient
    let s := start.run askedOnce
    let id := Reservation.idOf 1
    start.lastRenewed id askedOnce = some 8000
      ∧ ¬ (Call.mk s (.sweep (clock 17999))).Expires id
      ∧ (Call.mk s (.sweep (clock 18000))).Expires id := by
  intro clock start s id
  have hrenewed : start.lastRenewed id askedOnce = some 8000 := by
    decide +kernel +revert
  have hw : (s.queue.entries.get? id).map (·.reservation.state)
      = some .waiting := by
    decide +kernel +revert
  have hearly : (s.evictSilent (clock 17999)).queue = s.queue := by
    decide +kernel +revert
  have hlate : (s.evictSilent (clock 18000)).queue = s.queue := by
    decide +kernel +revert
  have hsweep : ∀ now, (s.evictSilent now).queue = s.queue →
      ((Call.mk s (.sweep now)).Expires id
        ↔ 8000 + impatient.reservationPollTimeout ≤ now.ticks) := by
    intro now hsame
    obtain ⟨e, he, hwaits⟩ := Option.map_eq_some_iff.1 hw
    obtain ⟨t, hlast, hexpires, -⟩ :=
      waiting_expires_iff impatient askedOnce now id e (hsame ▸ he) hwaits
    cases hlast.symm.trans hrenewed
    exact hexpires
  refine ⟨hrenewed, ?_, ?_⟩
  · rw [hsweep _ hearly]
    decide
  · rw [hsweep _ hlate]
    decide

/-- A client has a resource set aside, which its exporter takes away
twenty seconds later. -/
def losing : List Input :=
  let any : ResourcePattern := ⟨everything, everything, everything, none⟩
  let clock (ms : Nat) : Moment := ⟨ms, ⟨2024, 1, 1, 12, 0, 0, 0⟩⟩
  [.register "bench" .exporter (clock 0),
    .execute 1 (.setResources [⟨"io", "led", .sysfsGpio 7⟩]) (clock 0),
    .register "alice" .client (clock 0),
    .execute 2 (.createReservation [any] 0) (clock 0),
    .execute 1 (.setResources []) (clock 20000),
    .execute 2 .heartbeat (clock 20000)]

/-- The reservation goes back to waiting with the resource, and a second
later it expires, though it might live for ten without being asked for. -/
theorem lost_allocation_expires :
    let s := (State.new impatient).run losing
    let id := Reservation.idOf 1
    let now : Moment := ⟨21000, ⟨2024, 1, 1, 12, 0, 21, 0⟩⟩
    ((State.new impatient).history id losing).map
        (fun x => (x.1.input.instant?.map (·.ticks), x.2.state))
      = [(some 0, .waiting), (some 0, .allocated), (some 20000, .waiting)]
    ∧ ((s.evictSilent now).queue.entries.get? id).map
        (·.reservation.state) = some .waiting
    ∧ (Call.mk s (.sweep now)).Expires id
    ∧ ¬ 20000 + impatient.reservationPollTimeout ≤ now.ticks := by
  decide +kernel

end Coordinator

end LabLease
