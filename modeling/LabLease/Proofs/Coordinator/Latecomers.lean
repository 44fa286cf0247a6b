/-
Latecomers: what still comes in for a session that has ended changes
nothing.

A request may be on its way, or the end of a connection be reported, when
the session has ended already and somebody else uses its name.

# Why nothing happens

Numbers are given in order, so that a session which has ended stays ended
(`Ended.after`). It is not on the roster then, which is what every call
looks at first, and it has no mailbox, because the end of each turn takes
the mailboxes of all who are not on the roster (`Tenanted`). So a late
input is counted, and that is all (`step_late`).

# Two runs

A run with late inputs in it and the run without them go side by side,
with hubs that differ in the count of messages. No turn looks at that
count, except to report it (`step_recounted`), so the runs stay together.
-/
import LabLease.Proofs.Coordinator.Grace
import LabLease.Proofs.Coordinator.Subscription

namespace LabLease.Coordinator.Hub

open Mailboxes

variable {hub : Hub} {input : Input} {session : SessionId} {α : Type}

-- ================================================================ answers

/-- What whoever is behind an input gets to know. -/
inductive Answer where
  | registered (result : Except Refusal (SessionId × Nat))
  | replied (result : Except Refusal Reply)
  | noted (result : Except Refusal Unit)
  | measured (result : Except Refusal Metrics)
  /-- What a peer takes out of its mailbox. -/
  | taken (pushes : List Push)
  | silence
deriving DecidableEq

/-- The answer to an input. -/
def answer (h : Hub) : Input → Answer
  | .register name role capacity now =>
    .registered (h.register name role capacity now).1
  | .call session op now => .replied (h.call session op now).1
  | .connectionClosed session now =>
    .noted (h.connectionClosed session now).1
  | .metrics => .measured h.metrics.1
  | .shutdown => .noted h.shutdown.1
  | .receive session count =>
    .taken ((h.mailboxes.waiting session).take count)
  | .sweep _ | .abandon _ => .silence

/-- The answers to some inputs in turn. -/
def answers (h : Hub) : List Input → List Answer
  | [] => []
  | input :: inputs => h.answer input :: (h.step input).answers inputs

/-- The number that a registration gives. -/
def Answer.given? : Answer → Option SessionId
  | .registered (.ok (id, _)) => some id
  | _ => none

/-- An answer without the count of messages. -/
def Answer.uncounted : Answer → Answer
  | .measured (.ok m) => .measured (.ok { m with messagesReceived := 0 })
  | a => a

/-- A hub without the count of messages. -/
def uncounted (h : Hub) : Hub := { h with messagesReceived := 0 }

-- =============================================================== late ones

/-- The number was given, or never will be, and no live session has
it. -/
def Ended (h : Hub) (session : SessionId) : Prop :=
  session ≤ h.state.roster.lastId ∧ h.state.isLive session = false

instance (h : Hub) (session : SessionId) : Decidable (h.Ended session) :=
  inferInstanceAs (Decidable (_ ∧ _))

/-- The input comes for a session that has ended. -/
def Late (h : Hub) : Input → Prop
  | .call session _ _ => h.Ended session
  | .connectionClosed session _ => h.Ended session
  | _ => False

instance (h : Hub) : (input : Input) → Decidable (h.Late input)
  | .call session .. | .connectionClosed session _ =>
    inferInstanceAs (Decidable (h.Ended session))
  | .register .. | .metrics | .sweep _ | .shutdown | .receive ..
  | .abandon _ => isFalse not_false

/-- All inputs that are marked come for sessions that have ended by
then. -/
def LateMarked (h : Hub) : List (Input × Bool) → Prop
  | [] => True
  | (input, marked) :: run =>
    (marked = true → h.Late input) ∧ (h.step input).LateMarked run

instance decidableLateMarked (h : Hub) :
    (run : List (Input × Bool)) → Decidable (h.LateMarked run)
  | [] => isTrue trivial
  | (input, _) :: run =>
    have := decidableLateMarked (h.step input) run
    inferInstanceAs (Decidable (_ ∧ _))

/-- The items that are not marked. -/
def unmarked (items : List (α × Bool)) : List α :=
  (items.filter (!·.2)).map (·.1)

/-- The answer to a late input. -/
def lateAnswer : Input → Answer
  | .call session _ _ => .replied (.error (Roster.stale session))
  | _ => .noted (.ok ())

-- =============================================================== mailboxes

/-- Only live sessions have mailboxes, and what there is of the others is
still read. -/
structure Tenanted (h : Hub) : Prop where
  live : ∀ id, h.mailboxes.hasBox id = true → h.state.isLive id = true
  kept : ∀ id, h.mailboxes.Kept id

theorem Tenanted.new (settings : Settings) :
    Tenanted (.new settings) := by
  refine ⟨fun id hbox => ?_, fun id => ⟨fun hsub => ?_, nofun⟩⟩
  · obtain ⟨box, hget, -⟩ := hasBox_iff.1 hbox
    cases hget
  · cases hsub

theorem detachAll_hasBox {ids : List SessionId} (hmem : session ∈ ids)
    (m : Mailboxes) : (ids.foldl detach m).hasBox session = false := by
  induction ids generalizing m with
  | nil => cases hmem
  | cons id ids ih =>
    by_cases heq : id = session
    · have hrest : Jobs (fun _ => False) (fun _ => False)
          (m.detach id) [] _ := .detachAll (m.detach id) ids
      exact (hrest.closed not_false (heq ▸ detach_hasBox m id)).1
    · exact ih ((List.mem_cons.1 hmem).resolve_left (Ne.symm heq)) _

/-- The end of a turn leaves no mailbox to a session that is not live. -/
theorem deliver_live (h : Hub)
    (hbox : h.deliver.mailboxes.hasBox session = true) :
    h.state.isLive session = true := by
  by_contra hgone
  rw [Bool.not_eq_true] at hgone
  let sent := (h.state.notices.foldl sayGoodbye h.mailboxes).broadcast
    h.state.pending
  have hends : h.deliver.mailboxes
      = (sent.holders.filter (!h.state.isLive ·)).foldl detach sent := rfl
  rw [hends] at hbox
  cases hsent : sent.hasBox session with
  | true =>
    obtain ⟨box, hget, -⟩ := hasBox_iff.1 hsent
    have hmem : session ∈ sent.holders.filter (!h.state.isLive ·) := by
      refine List.mem_filter.2 ⟨List.mem_filter.2 ⟨?_, hsent⟩, ?_⟩
      · exact Table.mem_keys.2 ⟨box, hget⟩
      · rw [hgone]
        rfl
    rw [detachAll_hasBox hmem] at hbox
    cases hbox
  | false =>
    have hrest : Jobs (fun _ => False) (fun _ => False) sent [] _ :=
      .detachAll sent (sent.holders.filter (!h.state.isLive ·))
    rw [(hrest.closed not_false hsent).1] at hbox
    cases hbox

/-- A shutdown leaves no mailboxes at all. -/
theorem shutdown_hasBox (hrun : hub.running = true) (id : SessionId) :
    (hub.step .shutdown).mailboxes.hasBox id = false := by
  rw [(step_shutdown hrun).2.1]
  cases hbox : hub.mailboxes.hasBox id with
  | true => exact (farewells_of_mem (mem_lastNotices hbox)).1
  | false =>
    have hjobs : Jobs (fun _ => False) (fun _ => False) _ _ _ :=
      farewells_jobs hub.mailboxes hub.lastNotices
    exact (hjobs.closed not_false hbox).1

theorem Sound.step_tenanted (h : Sound hub) (ht : Tenanted hub)
    (input : Input) : Tenanted (hub.step input) := by
  have hkept : ∀ id, (hub.step input).mailboxes.Kept id := by
    intro id
    rcases h.step_jobs input with hjobs | ⟨-, hm, -⟩
    · exact hjobs.kept (ht.kept id)
    · exact hm.kept id (ht.kept id)
  refine ⟨fun id hbox => ?_, hkept⟩
  cases hub.kinds input with
  | turn _ hstep =>
    rw [hstep] at hbox ⊢
    exact deliver_live (hub.act input) hbox
  | shutdown hrun =>
    rw [shutdown_hasBox hrun] at hbox
    cases hbox
  | ignored hstep =>
    rw [hstep] at hbox ⊢
    exact ht.live id hbox
  | peer _ hstep hm =>
    rw [hstep] at hbox ⊢
    exact ht.live id ((hm.hasBox id).symm.trans hbox)

-- ============================================================ one late input

/-- When nothing has happened there is nothing to do at the end of a
turn. -/
theorem Sound.counted_deliver (h : Sound hub) (ht : Tenanted hub) :
    hub.counted.deliver = hub.counted := by
  have hquiet : (hub.state.notices.foldl sayGoodbye
      hub.mailboxes).broadcast hub.state.pending = hub.mailboxes := by
    rw [h.notices, h.pending]
    rfl
  have hnone : hub.mailboxes.holders.filter (!hub.state.isLive ·) = [] := by
    refine List.filter_eq_nil_iff.2 fun id hid => ?_
    rw [ht.live id (List.mem_filter.1 hid).2]
    exact Bool.false_ne_true
  have hstate : { hub.state with notices := [], pending := [] }
      = hub.state := by
    rw [← h.notices, ← h.pending]
  unfold deliver counted
  dsimp only
  rw [hquiet, hnone, hstate]
  rfl

theorem Ended.heartbeat (h : hub.Ended session) (now : Moment) :
    hub.state.roster.heartbeat session now
      = .error (Roster.stale session) := by
  have hnone : hub.state.roster.sessions.get? session = none :=
    Option.isNone_iff_eq_none.1 (Option.isSome_eq_false_iff.1 h.2)
  unfold Roster.heartbeat Roster.get
  rw [hnone]
  rfl

/-- What a late input amounts to in a hub that is running: the answer, and
nothing done before the end of the turn. -/
structure Idle (h : Hub) (input : Input) : Prop where
  answer : h.running = true → h.answer input = lateAnswer input
  act : h.act input = h.counted
  opening : h.counted.opening input = []

/-- A call of a session that has ended is refused. -/
theorem Ended.call_idle (h : hub.Ended session) (op : Operation)
    (now : Moment) : hub.Idle (.call session op now) := by
  let refused : Except Refusal Reply × Hub :=
    (.error (Roster.stale session), hub.counted)
  have hbeat := h.heartbeat now
  have hheard : hub.counted.run (Action.heartbeat session now)
      = (.error (Roster.stale session), hub.counted) := by
    rw [run_heartbeat, show hub.counted.state = hub.state from rfl, hbeat]
  have hexec : hub.counted.run (Action.execute session op now)
      = refused := by
    rcases Action.execute_outcome hub.state session op now with
      ⟨e, he, hout⟩ | ⟨roster, hr, -⟩
    · rw [hbeat] at he
      cases he
      unfold run
      rw [show hub.counted.state = hub.state from rfl, hout]
      rfl
    · rw [hbeat] at hr
      cases hr
  have hfirst : ∀ {f : Hub → Except Refusal Reply × Hub},
      f hub.counted = refused → hub.running = true →
      Answer.replied (hub.turn f).1
        = .replied (.error (Roster.stale session)) := fun hf hrun =>
    congrArg Answer.replied ((turn_fst hrun _).trans (congrArg Prod.fst hf))
  cases op with
  | subscribe lastEvent =>
    have hsub : hub.counted.subscribe session lastEvent now = refused := by
      unfold subscribe
      rw [hheard]
    refine ⟨hfirst (f := _) ?_, congrArg Prod.snd hsub, ?_⟩
    · exact hsub
    · simp only [opening, hheard]
  | unsubscribe =>
    have hsub : hub.counted.unsubscribe session now = refused := by
      unfold unsubscribe
      rw [hheard]
    refine ⟨hfirst (f := _) ?_, congrArg Prod.snd hsub, rfl⟩
    exact hsub
  | _ =>
    refine ⟨hfirst (f := _) ?_, congrArg Prod.snd hexec, rfl⟩
    exact hexec

/-- The report that its connection is gone is taken note of. -/
theorem Ended.connectionClosed_idle (h : hub.Ended session)
    (ht : Tenanted hub) (now : Moment) :
    hub.Idle (.connectionClosed session now) := by
  have hget : hub.counted.state.roster.get session
      = .error (Roster.stale session) := by
    show hub.state.roster.get session = _
    unfold Roster.get
    rw [Option.isNone_iff_eq_none.1 (Option.isSome_eq_false_iff.1 h.2)]
  have hno : hub.mailboxes.hasBox session = false := by
    rw [← Bool.not_eq_true]
    intro hbox
    have hlive := ht.live session hbox
    rw [h.2] at hlive
    cases hlive
  refine ⟨fun hrun => congrArg Answer.noted (turn_fst hrun _), ?_, rfl⟩
  have hdone : (hub.counted.run (Action.disconnect session now)).2
      = hub.counted := by
    unfold run
    rw [Action.disconnect_apply, hget]
  unfold act
  dsimp only
  rw [hdone]
  show { hub.counted with mailboxes := hub.mailboxes.detach session } = _
  rw [(ht.kept session).detach_eq hno]
  rfl

theorem Late.turns (h : hub.Late input) : Turns input := by
  cases input with
  | call | connectionClosed => constructor
  | _ => exact h.elim

/-- A late input is answered and counted, and that is all. -/
theorem Sound.step_late (h : Sound hub) (ht : Tenanted hub)
    (hlate : hub.Late input) (hrun : hub.running = true) :
    hub.answer input = lateAnswer input ∧ hub.step input = hub.counted
      ∧ hub.posts input = [] := by
  have hturns := hlate.turns
  have hidle : hub.Idle input := by
    cases input with
    | call session op now => exact Ended.call_idle hlate op now
    | connectionClosed session now =>
      exact Ended.connectionClosed_idle hlate ht now
    | _ => exact hlate.elim
  refine ⟨hidle.answer hrun, ?_, ?_⟩
  · rw [step_of_turns hturns hrun, hidle.act, h.counted_deliver ht]
  · rw [posts_of_turns hturns hrun, hidle.opening, hidle.act]
    exact delivery_of_quiet h.notices h.pending

-- ======================================================== ended for good

/-- A session that has ended stays ended. -/
theorem Ended.step (h : Sound hub) (hend : hub.Ended session)
    (input : Input) : (hub.step input).Ended session := by
  refine ⟨Nat.le_trans hend.1 (h.step_lastId input), ?_⟩
  rcases hub.step_state input with hsame | hacted
  · rw [hsame]
    exact hend.2
  · rw [← Bool.not_eq_true]
    intro hlive
    rw [hacted] at hlive
    obtain ⟨o, ho⟩ := Option.isSome_iff_exists.1 hlive
    have hl : (hub.act input).state.roster.Live session o.name o.role :=
      ⟨o, ho, rfl, rfl⟩
    obtain ⟨o', ho', -⟩ :=
      (act_moves h.state input).live_was (fun _ => hend.1) hl
    have hwas : hub.state.isLive session = true :=
      congrArg Option.isSome ho'
    rw [hend.2] at hwas
    cases hwas

theorem Ended.after (h : Sound hub) (hend : hub.Ended session)
    (inputs : List Input) : (hub.after inputs).Ended session := by
  induction inputs generalizing hub with
  | nil => exact hend
  | cons input inputs ih => exact ih (h.step input) (hend.step h input)

theorem turn_closed (hrun : hub.running = false)
    (f : Hub → Except Refusal α × Hub) :
    hub.turn f = (.error .closed, hub) :=
  if_neg (by rw [hrun]; exact Bool.false_ne_true)

theorem register_fst (hrun : hub.running = true) (name : String)
    (role : Role) (capacity : Nat) (now : Moment) :
    (hub.register name role capacity now).1
      = match (hub.state.cleared name now).roster.register name role now with
        | .ok (id, _) =>
          .ok (id, (hub.state.cleared name now).eventNumber)
        | .error e => .error e := by
  have happly := Action.register_apply hub.state name role now
  refine (turn_fst hrun _).trans ?_
  unfold run
  dsimp only [counted]
  rw [happly]
  cases (hub.state.cleared name now).roster.register name role now <;> rfl

/-- A registration gives a number that is ahead of all that were given. -/
theorem Sound.given_next (h : Sound hub)
    (hgiven : (hub.answer input).given? = some session) :
    hub.state.roster.lastId < session
      ∧ session ≤ (hub.step input).state.roster.lastId := by
  cases input with
  | register name role capacity now =>
    change (Answer.registered (hub.register name role capacity now).1).given?
      = some session at hgiven
    cases hrun : hub.running with
    | false =>
      unfold register at hgiven
      rw [turn_closed hrun] at hgiven
      cases hgiven
    | true =>
      rw [step_of_turns (.register ..) hrun, act_register]
      rw [register_fst hrun] at hgiven
      have hlast := (h.state.cleared_moves name now).lastId
      cases hr : (hub.state.cleared name now).roster.register name role
          now with
      | error e =>
        rw [hr] at hgiven
        cases hgiven
      | ok out =>
        rw [hr] at hgiven
        cases hgiven
        obtain ⟨-, -, hid, hroster⟩ := Roster.register_ok hr
        refine ⟨?_, Nat.le_of_eq (congrArg Roster.lastId hroster).symm⟩
        rw [hid]
        exact Nat.lt_succ_of_le hlast
  | _ => cases hgiven

/-- No number is given twice. -/
theorem Sound.given_ascending (h : Sound hub) (inputs : List Input) :
    (∀ id ∈ (hub.answers inputs).filterMap Answer.given?,
        hub.state.roster.lastId < id)
      ∧ ((hub.answers inputs).filterMap Answer.given?).Pairwise (· < ·) := by
  induction inputs generalizing hub with
  | nil => exact ⟨nofun, .nil⟩
  | cons input inputs ih =>
    obtain ⟨hlater, hrest⟩ := ih (h.step input)
    have hmono := h.step_lastId input
    unfold answers
    cases hgiven : (hub.answer input).given? with
    | none =>
      rw [List.filterMap_cons_none hgiven]
      exact ⟨fun id hid => Nat.lt_of_le_of_lt hmono (hlater id hid), hrest⟩
    | some session =>
      obtain ⟨hahead, hle⟩ := h.given_next hgiven
      rw [List.filterMap_cons_some hgiven]
      refine ⟨fun id hid => ?_, .cons (fun id hid => ?_) hrest⟩
      · rcases List.mem_cons.1 hid with rfl | hid
        · exact hahead
        · exact Nat.lt_of_le_of_lt hmono (hlater id hid)
      · exact Nat.lt_of_le_of_lt hle (hlater id hid)

-- ====================================================== the count apart

/-- A hub with another count of messages. -/
def recounted (h : Hub) (n : Nat) : Hub := { h with messagesReceived := n }

theorem exists_recounted {h k : Hub} (heq : h.uncounted = k.uncounted) :
    ∃ n, h = k.recounted n := by
  obtain ⟨state, mailboxes, count, running⟩ := h
  obtain ⟨state', mailboxes', count', running'⟩ := k
  cases heq
  exact ⟨count, rfl⟩

/-- Something is done to a hub without a look at the count. -/
def Blind (f : Hub → α × Hub) : Prop :=
  ∀ h n, f (h.recounted n) = ((f h).1, (f h).2.recounted n)

theorem run_blind (a : Action α) : Blind (·.run a) := fun _ _ => rfl

theorem subscribe_blind (session : SessionId) (lastEvent : Option Nat)
    (now : Moment) : Blind (·.subscribe session lastEvent now) := by
  intro h n
  dsimp only
  unfold subscribe
  rw [run_heartbeat, run_heartbeat]
  dsimp only [recounted]
  cases h.state.roster.heartbeat session now with
  | error e => rfl
  | ok roster =>
    dsimp only
    cases hbox : h.mailboxes.hasBox session with
    | false => rfl
    | true =>
      cases hp : (State.subscribe { h.state with roster } lastEvent).push?
        with
      | none => rfl
      | some p =>
        dsimp only [Bool.not_true, Bool.false_eq_true, if_false]
        cases (h.mailboxes.push session p).1 <;> rfl

theorem unsubscribe_blind (session : SessionId) (now : Moment) :
    Blind (·.unsubscribe session now) := by
  intro h n
  dsimp only
  rw [unsubscribe_eq, unsubscribe_eq]
  dsimp only [recounted]
  cases h.state.roster.heartbeat session now <;> rfl

theorem act_recounted (h : Hub) (n : Nat) (input : Input) :
    ∃ m, (h.recounted n).act input = (h.act input).recounted m := by
  cases input with
  | register name role capacity now =>
    refine ⟨n + 1, ?_⟩
    rw [act_register, act_register]
    dsimp only [recounted]
    cases (h.state.cleared name now).roster.register name role now <;> rfl
  | call session op now =>
    refine ⟨n + 1, ?_⟩
    cases op with
    | subscribe lastEvent =>
      exact congrArg Prod.snd
        (subscribe_blind session lastEvent now h.counted (n + 1))
    | unsubscribe =>
      exact congrArg Prod.snd
        (unsubscribe_blind session now h.counted (n + 1))
    | _ => rfl
  | connectionClosed | metrics => exact ⟨n + 1, rfl⟩
  | sweep | shutdown | receive | abandon => exact ⟨n, rfl⟩

theorem opening_recounted (h : Hub) (n : Nat) (input : Input) :
    (h.recounted n).opening input = h.opening input := by
  cases input with
  | call session op now =>
    cases op with
    | subscribe lastEvent =>
      unfold opening
      dsimp only
      rw [run_heartbeat, run_heartbeat]
      dsimp only [recounted]
      cases h.state.roster.heartbeat session now <;> rfl
    | _ => rfl
  | _ => rfl

theorem answer_recounted (h : Hub) (n : Nat) (input : Input) :
    ((h.recounted n).answer input).uncounted
      = (h.answer input).uncounted := by
  have hturn : ∀ {α : Type} {f : Hub → Except Refusal α × Hub}, Blind f →
      ((h.recounted n).turn f).1 = (h.turn f).1 := by
    intro α f hf
    cases hrun : h.running with
    | false =>
      have hrun' : (h.recounted n).running = false := hrun
      rw [turn_closed hrun, turn_closed hrun']
    | true =>
      have hrun' : (h.recounted n).running = true := hrun
      rw [turn_fst hrun, turn_fst hrun']
      show (f (h.counted.recounted (n + 1))).1 = _
      rw [hf h.counted (n + 1)]
  cases input with
  | register name role capacity now =>
    refine congrArg (fun r => (Answer.registered r).uncounted)
      (hturn (f := _) fun h n => ?_)
    dsimp only [run, recounted]
    rcases (Action.register name role now).apply h.state with ⟨_ | _, _⟩
    · rfl
    · rfl
  | call session op now =>
    refine congrArg (fun r => (Answer.replied r).uncounted)
      (hturn (f := _) fun h n => ?_)
    cases op with
    | subscribe lastEvent => exact subscribe_blind session lastEvent now h n
    | unsubscribe => exact unsubscribe_blind session now h n
    | _ => exact run_blind _ h n
  | connectionClosed session now =>
    exact congrArg (fun r => (Answer.noted r).uncounted)
      (hturn (f := _) fun h n => rfl)
  | metrics =>
    show (Answer.measured (h.recounted n).metrics.1).uncounted
      = (Answer.measured h.metrics.1).uncounted
    unfold Hub.metrics
    cases hrun : h.running with
    | false =>
      have hrun' : (h.recounted n).running = false := hrun
      rw [turn_closed hrun, turn_closed hrun']
    | true =>
      have hrun' : (h.recounted n).running = true := hrun
      rw [turn_fst hrun, turn_fst hrun']
      rfl
  | shutdown =>
    show (Answer.noted (h.recounted n).shutdown.1).uncounted
      = (Answer.noted h.shutdown.1).uncounted
    obtain ⟨_, _, _, running⟩ := h
    cases running <;> rfl
  | sweep | receive | abandon => rfl

/-- The count does not matter to what happens. -/
theorem step_recounted (h : Hub) (n : Nat) (input : Input) :
    ((h.recounted n).step input).uncounted = (h.step input).uncounted
      ∧ ((h.recounted n).answer input).uncounted
        = (h.answer input).uncounted
      ∧ (h.recounted n).posts input = h.posts input := by
  have hturns : Turns input →
      ((h.recounted n).step input).uncounted = (h.step input).uncounted
        ∧ (h.recounted n).posts input = h.posts input := by
    intro ht
    cases hrun : h.running with
    | false =>
      have hrun' : (h.recounted n).running = false := hrun
      obtain ⟨hstep, hposts⟩ := turns_of_closed ht hrun
      obtain ⟨hstep', hposts'⟩ := turns_of_closed ht hrun'
      rw [hstep, hstep', hposts, hposts']
      exact ⟨rfl, rfl⟩
    | true =>
      have hrun' : (h.recounted n).running = true := hrun
      obtain ⟨m, hact⟩ := act_recounted h n input
      rw [step_of_turns ht hrun, posts_of_turns ht hrun,
        step_of_turns ht hrun', posts_of_turns ht hrun', hact,
        show (h.recounted n).counted = h.counted.recounted (n + 1) from rfl,
        opening_recounted]
      exact ⟨rfl, rfl⟩
  have hboth : ((h.recounted n).step input).uncounted
        = (h.step input).uncounted
      ∧ (h.recounted n).posts input = h.posts input := by
    cases input with
    | register name role capacity now => exact hturns (.register ..)
    | call session op now => exact hturns (.call ..)
    | connectionClosed session now => exact hturns (.connectionClosed ..)
    | metrics => exact hturns .metrics
    | sweep now => exact hturns (.sweep now)
    | shutdown =>
      obtain ⟨_, _, _, running⟩ := h
      cases running <;> exact ⟨rfl, rfl⟩
    | receive | abandon => exact ⟨rfl, rfl⟩
  exact ⟨hboth.1, answer_recounted h n input, hboth.2⟩

-- ================================================================ two runs

/-- A run with late inputs and the run without them, from hubs that differ
in the count of messages. -/
theorem Sound.after_unmarked {bare : Hub} (h : Sound hub)
    (ht : Tenanted hub) (hsame : hub.uncounted = bare.uncounted)
    (run : List (Input × Bool)) (hlate : hub.LateMarked run) :
    (unmarked ((hub.answers (run.map (·.1))).zip (run.map (·.2)))).map
        Answer.uncounted
      = (bare.answers (unmarked run)).map Answer.uncounted
    ∧ hub.record (run.map (·.1)) = bare.record (unmarked run)
    ∧ (hub.after (run.map (·.1))).uncounted
      = (bare.after (unmarked run)).uncounted := by
  induction run generalizing hub bare with
  | nil => exact ⟨rfl, rfl, hsame⟩
  | cons item run ih =>
    obtain ⟨input, marked⟩ := item
    obtain ⟨hhead, hrest⟩ := hlate
    have hs' := h.step input
    have ht' := h.step_tenanted ht input
    cases marked with
    | true =>
      -- the other run stays where it is
      have hquiet : hub.posts input = []
          ∧ (hub.step input).uncounted = bare.uncounted := by
        cases hrun : hub.running with
        | true =>
          obtain ⟨-, hstep, hposts⟩ := h.step_late ht (hhead rfl) hrun
          exact ⟨hposts, (congrArg uncounted hstep).trans hsame⟩
        | false =>
          obtain ⟨hstep, hposts⟩ := turns_of_closed (hhead rfl).turns hrun
          exact ⟨hposts, (congrArg uncounted hstep).trans hsame⟩
      obtain ⟨hanswers, hrecord, hend⟩ := ih hs' ht' hquiet.2 hrest
      refine ⟨hanswers, ?_, hend⟩
      show hub.posts input ++ _ = _
      rw [hquiet.1, List.nil_append]
      exact hrecord
    | false =>
      obtain ⟨n, rfl⟩ := exists_recounted hsame
      obtain ⟨hstep, hanswer, hposts⟩ := step_recounted bare n input
      obtain ⟨hanswers, hrecord, hend⟩ := ih hs' ht' hstep hrest
      refine ⟨?_, ?_, hend⟩
      · show Answer.uncounted _ :: _ = Answer.uncounted _ :: _
        exact congr (congrArg _ hanswer) hanswers
      · show _ ++ _ = _ ++ _
        exact congr (congrArg _ hposts) hrecord

theorem Tenanted.reached (settings : Settings) (inputs : List Input) :
    Tenanted ((Hub.new settings).after inputs) := by
  have hafter : ∀ {h : Hub}, Sound h → Tenanted h →
      Tenanted (h.after inputs) := by
    induction inputs with
    | nil => exact fun _ ht => ht
    | cons input inputs ih =>
      exact fun hs ht => ih (hs.step input) (hs.step_tenanted ht input)
  exact hafter (.new settings) (.new settings)

/-- Sessions that have ended cannot interfere. No number is given twice. A
session that has ended stays ended; as long as messages are taken each of
its calls is refused as stale and each report that its connection is gone
is taken note of, and but for the count of messages nothing changes. Any
number of such inputs can be put into a run anywhere: every other answer,
all pushes that are made and the hub at the end are the same, but for the
count of messages. -/
theorem latecomers_unheard (settings : Settings) :
    let start := Hub.new settings
    (∀ inputs,
      ((start.answers inputs).filterMap Answer.given?).Pairwise (· < ·))
    ∧ (∀ before after session, (start.after before).Ended session →
      let hub := start.after (before ++ after)
      hub.Ended session
        ∧ (hub.running = true → ∀ now,
          (∀ op, hub.call session op now
            = (.error (Roster.stale session), hub.counted))
          ∧ hub.connectionClosed session now = (.ok (), hub.counted)))
    ∧ ∀ run : List (Input × Bool), start.LateMarked run →
      let inputs := run.map (·.1)
      let others := unmarked run
      (unmarked ((start.answers inputs).zip (run.map (·.2)))).map
          Answer.uncounted
        = (start.answers others).map Answer.uncounted
      ∧ start.record inputs = start.record others
      ∧ (start.after inputs).uncounted
        = (start.after others).uncounted := by
  intro start
  have hsound : Sound start := .new settings
  have hten : Tenanted start := .new settings
  refine ⟨fun inputs => (hsound.given_ascending inputs).2, ?_,
    hsound.after_unmarked hten rfl⟩
  intro before after session hend hub
  have hs : Sound hub := .reached settings (before ++ after)
  have ht : Tenanted hub := .reached settings (before ++ after)
  have hstays : hub.Ended session := by
    show (List.foldl step start (before ++ after)).Ended session
    rw [List.foldl_append]
    exact hend.after (hsound.after before) after
  refine ⟨hstays, fun hrun now => ⟨fun op => ?_, ?_⟩⟩
  · have hlate : hub.Late (.call session op now) := hstays
    obtain ⟨hanswer, hstep, -⟩ := hs.step_late ht hlate hrun
    exact Prod.ext (Answer.replied.inj hanswer) hstep
  · have hlate : hub.Late (.connectionClosed session now) := hstays
    obtain ⟨hanswer, hstep, -⟩ := hs.step_late ht hlate hrun
    exact Prod.ext (Answer.noted.inj hanswer) hstep

/-- A rack whose connection was replaced asks for its resource to be taken
away, and its old connection is gone only then. The new one keeps the
resource, and a subscriber hears nothing of all this. -/
theorem latecomers_unheard_rack :
    let noon : Moment := ⟨0, ⟨2024, 1, 1, 12, 0, 0, 0⟩⟩
    let rack := Input.register "rack" .exporter 4 noon
    let led : ResourceId := ⟨"rack", "io", "SysfsGPIO", "led"⟩
    let publish := Operation.setResources [⟨"io", "led", .sysfsGpio 7⟩]
    let run : List (Input × Bool) :=
      [(rack, false), (.register "alice" .client 4 noon, false),
        (.call 2 (.subscribe none) noon, false), (rack, false),
        (.call 3 publish noon, false), (.call 1 (.withdraw [led]) noon, true),
        (.connectionClosed 1 noon, true), (.receive 2 5, false),
        (.metrics, false)]
    let before := run.map (·.1)
    let hub := (Hub.new {}).after before
    (Hub.new {}).LateMarked run
      ∧ hub.uncounted = ((Hub.new {}).after (unmarked run)).uncounted
      ∧ hub.state.inventory.all.length = 1
      ∧ hub.call 1 .heartbeat noon
        = (.error (Roster.stale 1), hub.counted) := by
  intro noon rack led publish run before hub
  obtain ⟨-, hended, hruns⟩ := latecomers_unheard {}
  have hlate : (Hub.new {}).LateMarked run := by decide +kernel
  obtain ⟨hone, hrun, hend⟩ : hub.state.inventory.all.length = 1
      ∧ hub.running = true ∧ hub.Ended 1 := by decide +kernel
  obtain ⟨-, -, hsame⟩ := hruns run hlate
  obtain ⟨-, hstale⟩ := hended before [] 1 hend
  rw [List.append_nil] at hstale
  exact ⟨hlate, hsame, hone, (hstale hrun noon).1 .heartbeat⟩

end LabLease.Coordinator.Hub
