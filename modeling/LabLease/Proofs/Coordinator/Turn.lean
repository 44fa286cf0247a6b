/-
Turns of the hub: what a turn does before it hands anything out, and
which pushes it makes.

A run of the hub is any messages and sweeps, and whatever peers do with
their mailboxes, in any order. Its record (`Hub.record`) lists every push
that was made, in the order in which they were made, with what became of
it. All that a turn does is a run of moves of the state (`act_moves`) and
a run of jobs of the mailboxes with these posts (`act_jobs`,
`deliver_jobs`), and what follows needs to know no more of the calls.
-/
import LabLease.Proofs.Coordinator.Delivery
import LabLease.Proofs.Coordinator.Presence

namespace LabLease.Coordinator

namespace Hub

open Mailboxes

/-- Whatever can happen to the hub: messages, sweeps, and what peers do
at their ends of the mailboxes. -/
inductive Input where
  | register (name : String) (role : Role) (capacity : Nat)
      (now : Moment)
  | call (session : SessionId) (op : Operation) (now : Moment)
  | connectionClosed (session : SessionId) (now : Moment)
  | metrics
  | sweep (now : Moment)
  | shutdown
  | receive (session : SessionId) (count : Nat)
  | abandon (session : SessionId)

/-- The hub after an input. -/
def step (h : Hub) : Input → Hub
  | .register name role capacity now =>
    (h.register name role capacity now).2
  | .call session op now => (h.call session op now).2
  | .connectionClosed session now => (h.connectionClosed session now).2
  | .metrics => h.metrics.2
  | .sweep now => h.sweep now
  | .shutdown => h.shutdown.2
  | .receive session count =>
    { h with mailboxes := h.mailboxes.receive session count }
  | .abandon session => h.abandon session

/-- The hub after some inputs in turn. -/
def after (h : Hub) (inputs : List Input) : Hub := inputs.foldl step h

-- ============================================================== one turn

/-- The hub once a message is counted. -/
def counted (h : Hub) : Hub :=
  { h with messagesReceived := h.messagesReceived + 1 }

/-- What a turn does before it hands anything out. -/
def act (h : Hub) : Input → Hub
  | .register name role capacity now =>
    match h.counted.run (Action.register name role now) with
    | (.ok id, h) => { h with mailboxes := h.mailboxes.add id capacity }
    | (.error _, h) => h
  | .call session (.subscribe lastEvent) now =>
    (h.counted.subscribe session lastEvent now).2
  | .call session .unsubscribe now =>
    (h.counted.unsubscribe session now).2
  | .call session op now =>
    (h.counted.run (Action.execute session op now)).2
  | .connectionClosed session now =>
    let h := (h.counted.run (Action.disconnect session now)).2
    { h with mailboxes := h.mailboxes.detach session }
  | .metrics => h.counted
  | .sweep now => { h with state := h.state.sweep now }
  | .shutdown | .receive .. | .abandon _ => h

/-- The pushes that are made on the way: the start of a subscription. -/
def opening (h : Hub) : Input → List Post
  | .call session (.subscribe lastEvent) now =>
    match h.run (Action.heartbeat session now) with
    | (.ok (), h) =>
      if h.mailboxes.hasBox session then
        (h.state.subscribe lastEvent).push?.toList.map fun p =>
          ⟨session, p, h.mailboxes.fate session⟩
      else []
    | (.error _, _) => []
  | _ => []

/-- The notices for everybody at the very end. -/
def lastNotices (h : Hub) : List (SessionId × String) :=
  h.mailboxes.holders.map fun id => (id, "coordinator shutting down")

/-- The posts of one input. -/
def posts (h : Hub) : Input → List Post
  | .receive .. | .abandon _ => []
  | .shutdown =>
    if h.running then h.mailboxes.farewells h.lastNotices else []
  | input =>
    if h.running then h.counted.opening input ++ (h.act input).delivery
    else []

/-- The posts of some inputs in turn. -/
def record (h : Hub) : List Input → List Post
  | [] => []
  | input :: inputs => h.posts input ++ (h.step input).record inputs

/-- A call by which a session starts or ends its subscription. -/
inductive Restarts (h : Hub) (session : SessionId) : Input → Prop
  | subscribe {lastEvent : Option Nat} {now : Moment} {reply : Reply}
      (hok : (h.call session (.subscribe lastEvent) now).1 = .ok reply) :
    Restarts h session (.call session (.subscribe lastEvent) now)
  | unsubscribe {now : Moment} {reply : Reply}
      (hok : (h.call session .unsubscribe now).1 = .ok reply) :
    Restarts h session (.call session .unsubscribe now)

/-- Inputs that make a turn, with messages taken and everything handed
out at the end. -/
inductive Turns : Input → Prop
  | register (name : String) (role : Role) (capacity : Nat)
      (now : Moment) : Turns (.register name role capacity now)
  | call (session : SessionId) (op : Operation) (now : Moment) :
    Turns (.call session op now)
  | connectionClosed (session : SessionId) (now : Moment) :
    Turns (.connectionClosed session now)
  | metrics : Turns .metrics
  | sweep (now : Moment) : Turns (.sweep now)

/-- Inputs of peers, who handle their own mailboxes. -/
inductive Peers : Input → Prop
  | receive (session : SessionId) (count : Nat) :
    Peers (.receive session count)
  | abandon (session : SessionId) : Peers (.abandon session)

variable {h hub : Hub} {input : Input}

theorem turn_snd {α : Type} (hrun : h.running = true)
    (f : Hub → Except Refusal α × Hub) :
    (h.turn f).2 = (f h.counted).2.deliver := by
  unfold turn
  rw [if_pos hrun]
  rfl

theorem turn_fst {α : Type} (hrun : h.running = true)
    (f : Hub → Except Refusal α × Hub) :
    (h.turn f).1 = (f h.counted).1 := by
  unfold turn
  rw [if_pos hrun]
  rfl

theorem step_of_turns (ht : Turns input) (hrun : h.running = true) :
    h.step input = (h.act input).deliver := by
  cases ht with
  | register name role capacity now =>
    refine (turn_snd hrun _).trans (congrArg deliver ?_)
    unfold act
    dsimp only
    rcases h.counted.run (Action.register name role now) with ⟨_ | id, h'⟩
    · rfl
    · rfl
  | call session op now =>
    refine (turn_snd hrun _).trans (congrArg deliver ?_)
    cases op <;> rfl
  | connectionClosed session now => exact turn_snd hrun _
  | metrics => exact turn_snd hrun _
  | sweep now => exact if_pos hrun

-- ========================================================== subscriptions

variable {session : SessionId} {lastEvent : Option Nat} {now : Moment}

theorem run_heartbeat (h : Hub) (session : SessionId) (now : Moment) :
    h.run (Action.heartbeat session now)
      = match h.state.roster.heartbeat session now with
        | .ok roster => (.ok (), { h with state := { h.state with roster } })
        | .error e => (.error e, h) := by
  unfold run
  rw [Action.heartbeat_apply]
  cases h.state.roster.heartbeat session now <;> rfl

/-- The outcomes of a subscription: the answer, the hub after it and the
posts of it. -/
inductive Subscription (h : Hub) (session : SessionId)
    (lastEvent : Option Nat) (now : Moment) :
    Except Refusal Reply → Hub → List Post → Prop
  | stale (e : Refusal) :
    Subscription h session lastEvent now (.error e) h []
  | absent (e : Refusal) {roster : Roster}
      (hr : h.state.roster.heartbeat session now = .ok roster)
      (hno : h.mailboxes.hasBox session = false) :
    Subscription h session lastEvent now (.error e)
      { h with state := { h.state with roster } } []
  /-- The start cannot be sent. -/
  | failed {p : Push} {roster : Roster}
      (hr : h.state.roster.heartbeat session now = .ok roster)
      (hf : h.mailboxes.fate session ≠ .queued) :
    Subscription h session lastEvent now (.error .closed)
      { h with
        state := { h.state with roster }
        mailboxes := (h.mailboxes.push session p).2 }
      [⟨session, p, h.mailboxes.fate session⟩]
  /-- Nothing was missed, so nothing is sent. -/
  | current {roster : Roster}
      (hr : h.state.roster.heartbeat session now = .ok roster)
      (hbox : h.mailboxes.hasBox session = true)
      (hp : (h.state.subscribe lastEvent).push? = none) :
    Subscription h session lastEvent now
      (.ok (.subscribed (h.state.subscribe lastEvent).isResync
        h.state.eventNumber))
      { h with
        state := { h.state with roster }
        mailboxes := h.mailboxes.subscribe session } []
  | begun {p : Push} {roster : Roster}
      (hr : h.state.roster.heartbeat session now = .ok roster)
      (hf : h.mailboxes.fate session = .queued)
      (hp : (h.state.subscribe lastEvent).push? = some p) :
    Subscription h session lastEvent now
      (.ok (.subscribed (h.state.subscribe lastEvent).isResync
        h.state.eventNumber))
      { h with
        state := { h.state with roster }
        mailboxes := (h.mailboxes.push session p).2.subscribe session }
      [⟨session, p, h.mailboxes.fate session⟩]

theorem subscribe_spec (h : Hub) (session : SessionId)
    (lastEvent : Option Nat) (now : Moment) :
    Subscription h session lastEvent now
      (h.subscribe session lastEvent now).1
      (h.subscribe session lastEvent now).2
      (h.opening (.call session (.subscribe lastEvent) now)) := by
  have hrun := run_heartbeat h session now
  unfold subscribe opening
  cases hr : h.state.roster.heartbeat session now with
  | error e =>
    rw [hr] at hrun
    simp only [hrun]
    exact .stale e
  | ok roster =>
    rw [hr] at hrun
    have hstart : State.subscribe { h.state with roster } lastEvent
      = h.state.subscribe lastEvent := rfl
    simp only [hrun, hstart]
    cases hbox : h.mailboxes.hasBox session with
    | false => exact .absent _ hr hbox
    | true =>
      simp only [Bool.not_true, Bool.false_eq_true, if_false, if_true]
      cases hp : (h.state.subscribe lastEvent).push? with
      | none => exact .current hr hbox hp
      | some p =>
        dsimp only
        by_cases hf : h.mailboxes.fate session = .queued
        · rw [if_pos ((push_fst _ _ p).2 hf)]
          exact .begun hr hf hp
        · rw [if_neg (mt (push_fst _ _ p).1 hf)]
          exact .failed hr hf

/-- A subscription that succeeds. -/
theorem Subscription.of_ok {h' : Hub} {reply : Reply} {log : List Post}
    (hs : Subscription h session lastEvent now (.ok reply) h' log) :
    reply = .subscribed (h.state.subscribe lastEvent).isResync
        h.state.eventNumber
      ∧ queuedFor session log
        = (h.state.subscribe lastEvent).push?.toList
      ∧ h'.mailboxes.hasBox session = true
      ∧ h'.mailboxes.isSubscribed session = true
      ∧ ∃ roster, h.state.roster.heartbeat session now = .ok roster
        ∧ h'.state = { h.state with roster } := by
  cases hs with
  | current hr hbox hp =>
    rw [hp]
    exact ⟨rfl, rfl, hbox, subscribe_isSubscribed _ _, _, hr, rfl⟩
  | begun hr hf hp =>
    rw [hp, queuedFor_cons, if_pos ⟨rfl, hf⟩]
    exact ⟨rfl, rfl, push_hasBox_of_queued hf _,
      subscribe_isSubscribed _ _, _, hr, rfl⟩

theorem unsubscribe_eq (h : Hub) (session : SessionId) (now : Moment) :
    h.unsubscribe session now
      = match h.state.roster.heartbeat session now with
        | .ok roster => (.ok .ack, { h with
            state := { h.state with roster }
            mailboxes := h.mailboxes.unsubscribe session })
        | .error e => (.error e, h) := by
  unfold unsubscribe
  rw [run_heartbeat]
  cases h.state.roster.heartbeat session now <;> rfl

/-- What a call amounts to before anything is handed out: the hub after it
and the posts of it. -/
inductive Calls (h : Hub) (session : SessionId) (now : Moment) :
    Operation → Hub → List Post → Prop
  | subscribed {lastEvent : Option Nat} {r : Except Refusal Reply}
      {h' : Hub} {log : List Post}
      (hanswer : h.running = true →
        (h.call session (.subscribe lastEvent) now).1 = r)
      (hs : Subscription h.counted session lastEvent now r h' log) :
    Calls h session now (.subscribe lastEvent) h' log
  | unsubscribed {roster : Roster}
      (hanswer : h.running = true →
        (h.call session .unsubscribe now).1 = .ok .ack)
      (hr : h.state.roster.heartbeat session now = .ok roster) :
    Calls h session now .unsubscribe { h.counted with
      state := { h.state with roster }
      mailboxes := h.mailboxes.unsubscribe session } []
  | stale : Calls h session now .unsubscribe h.counted []
  /-- Every other operation is for the state. -/
  | executed (op : Operation) :
    Calls h session now op
      (h.counted.run (Action.execute session op now)).2 []

theorem calls (h : Hub) (session : SessionId) (op : Operation)
    (now : Moment) :
    Calls h session now op (h.act (.call session op now))
      (h.counted.opening (.call session op now)) := by
  cases op with
  | subscribe lastEvent =>
    exact .subscribed (fun hrun => turn_fst hrun _)
      (h.counted.subscribe_spec session lastEvent now)
  | unsubscribe =>
    have hanswer : h.running = true → (h.call session .unsubscribe now).1
        = (h.counted.unsubscribe session now).1 := fun hrun =>
      turn_fst hrun _
    show Calls h session now .unsubscribe
      (h.counted.unsubscribe session now).2 []
    rw [unsubscribe_eq] at hanswer ⊢
    cases hr : h.counted.state.roster.heartbeat session now with
    | error e => exact .stale
    | ok roster =>
      rw [hr] at hanswer
      exact .unsubscribed hanswer hr
  | _ => exact .executed _

/-- Only a session that begins its subscription is sent anything before
the end of a turn, and then nothing else happens. -/
theorem opening_cases (hrun : h.running = true) (input : Input) :
    h.counted.opening input = []
      ∨ ∃ session p, h.counted.opening input
          = [⟨session, p, h.mailboxes.fate session⟩]
        ∧ (h.mailboxes.fate session = .queued → h.Restarts session input)
        ∧ ∃ roster, (h.act input).state = { h.state with roster } := by
  cases input with
  | call session op now =>
    have hcalls := h.calls session op now
    generalize h.counted.opening _ = log at hcalls ⊢
    generalize h.act _ = h' at hcalls ⊢
    cases hcalls with
    | subscribed hanswer hs =>
      cases hs with
      | stale | absent | current => exact Or.inl rfl
      | failed _ hf =>
        exact Or.inr ⟨_, _, rfl, fun hq => absurd hq hf, _, rfl⟩
      | begun =>
        exact Or.inr ⟨_, _, rfl, fun _ => .subscribe (hanswer hrun), _,
          rfl⟩
    | unsubscribed | stale | executed => exact Or.inl rfl
  | _ => exact Or.inl rfl

theorem fate_of_mem_opening (hrun : h.running = true) {x : Post}
    (hx : x ∈ h.counted.opening input) :
    x.fate = h.mailboxes.fate x.session := by
  rcases opening_cases hrun input with hnone | ⟨_, _, hone, -⟩
  · rw [hnone] at hx
    cases hx
  · rw [hone] at hx
    rw [List.mem_singleton.1 hx]

/-- Nothing is queued on the way for a session that does not begin its
subscription. -/
theorem queuedFor_opening (hrun : h.running = true)
    (hr : ¬ h.Restarts session input) :
    queuedFor session (h.counted.opening input) = [] := by
  rcases opening_cases hrun input with hnone | ⟨_, _, hone, hok, -⟩
  · rw [hnone]
    rfl
  · refine queuedFor_eq_nil fun x hx hs hq => hr ?_
    rw [hone] at hx
    rw [List.mem_singleton.1 hx] at hs hq
    exact hs ▸ hok hq

theorem act_register (h : Hub) (name : String) (role : Role)
    (capacity : Nat) (now : Moment) :
    h.act (.register name role capacity now)
      = match (h.state.cleared name now).roster.register name role now with
        | .ok (id, roster) => { h.counted with
            state := { h.state.cleared name now with roster }
            mailboxes := h.mailboxes.add id capacity }
        | .error _ => { h.counted with
            state := h.state.cleared name now } := by
  unfold act run counted
  dsimp only
  rw [Action.register_apply]
  cases (h.state.cleared name now).roster.register name role now <;> rfl

-- ============================================================== invariants

/-- What a turn does to the state is a run of moves. -/
theorem act_moves (hs : Coordinator.Sound none h.state) (input : Input) :
    Moves (fun _ => True) none h.state none (h.act input).state := by
  have hheard : ∀ {session now roster},
      h.state.roster.heartbeat session now = .ok roster →
      Moves (fun _ => True) none h.state none { h.state with roster } :=
    fun hr => .single trivial (.heard hr)
  cases input with
  | register name role capacity now =>
    have hclear : Moves (fun _ => True) none h.state none
        (h.state.cleared name now) :=
      (hs.cleared_moves name now).mono fun _ _ => trivial
    rw [act_register]
    cases hr : (h.state.cleared name now).roster.register name role now with
    | error e => exact hclear
    | ok out => exact hclear.tail trivial (.join hr)
  | call session op now =>
    have hcalls := h.calls session op now
    generalize h.counted.opening _ = log at hcalls
    generalize h.act _ = h' at hcalls ⊢
    cases hcalls with
    | subscribed _ hspec =>
      cases hspec with
      | stale => exact .refl
      | absent _ hr => exact hheard hr
      | failed hr => exact hheard hr
      | current hr => exact hheard hr
      | begun hr => exact hheard hr
    | unsubscribed _ hr => exact hheard hr
    | stale => exact .refl
    | executed =>
      exact (hs.execute_moves session op now).mono fun _ _ => trivial
  | connectionClosed session now =>
    exact (hs.disconnect_moves session now).mono fun _ _ => trivial
  | sweep now => exact (Moves.sweep hs now).mono fun _ _ => trivial
  | metrics | shutdown | receive | abandon => exact .refl

/-- Unless it is a registration, a turn gives nobody a mailbox. -/
theorem act_jobs_of_not_register {new : SessionId → Prop}
    (hrun : h.running = true) (hnot : ∀ name role capacity now,
      input ≠ .register name role capacity now) :
    Jobs new (h.Restarts · input) h.mailboxes (h.counted.opening input)
      (h.act input).mailboxes := by
  cases input with
  | register name role capacity now =>
    exact absurd rfl (hnot name role capacity now)
  | call session op now =>
    have hcalls := h.calls session op now
    generalize h.counted.opening _ = log at hcalls ⊢
    generalize h.act _ = h' at hcalls ⊢
    cases hcalls with
    | subscribed hanswer hspec =>
      cases hspec with
      | stale | absent => exact .refl
      | failed => exact .single (.push session _)
      | current _ hbox =>
        exact .single (.subscribe (.subscribe (hanswer hrun)) hbox)
      | begun _ hf =>
        exact (Jobs.single (.push session _)).tail
          (.subscribe (.subscribe (hanswer hrun))
            (push_hasBox_of_queued hf _))
    | unsubscribed hanswer =>
      exact .single (.unsubscribe (.unsubscribe (hanswer hrun)))
    | stale | executed => exact .refl
  | connectionClosed session now => exact .single (.detach session)
  | sweep | metrics | shutdown | receive | abandon => exact .refl

/-- What a turn does to the mailboxes before it hands anything out is a
run of jobs, with the opening as its posts. -/
theorem act_jobs (hs : Coordinator.Sound none h.state)
    (hknown : ∀ id box, h.mailboxes.boxes.get? id = some box →
      id ≤ h.state.roster.lastId)
    (hrun : h.running = true) (input : Input) :
    Jobs (fun id => h.state.roster.lastId < id
        ∧ id ≤ (h.act input).state.roster.lastId)
      (h.Restarts · input) h.mailboxes (h.counted.opening input)
      (h.act input).mailboxes := by
  cases input with
  | register name role capacity now =>
    have hlast := (hs.cleared_moves name now).lastId
    rw [act_register]
    cases hr : (h.state.cleared name now).roster.register name role now with
    | error e => exact .refl
    | ok out =>
      obtain ⟨-, -, hid, hroster⟩ := Roster.register_ok hr
      have hlt : h.state.roster.lastId < out.1 := by
        rw [hid]
        exact Nat.lt_succ_of_le hlast
      have hle : out.1 ≤ out.2.lastId := Nat.le_of_eq (by rw [hroster])
      have hno : h.mailboxes.boxes.get? out.1 = none :=
        Option.eq_none_iff_forall_ne_some.2 fun box hbox =>
          Nat.not_le.2 hlt (hknown out.1 box hbox)
      exact .single (.add ⟨hlt, hle⟩ hno capacity)
  | _ => exact act_jobs_of_not_register hrun nofun

-- ================================================================ inputs

/-- What an input amounts to. -/
inductive Kinds (h : Hub) : Input → Prop
  /-- It makes a turn. -/
  | turn {input : Input} (hrun : h.running = true)
      (hstep : h.step input = (h.act input).deliver)
      (hposts : h.posts input
        = h.counted.opening input ++ (h.act input).delivery) :
    Kinds h input
  | shutdown (hrun : h.running = true) : Kinds h .shutdown
  /-- It is not taken any more. -/
  | ignored {input : Input} (hstep : h.step input = h)
      (hposts : h.posts input = []) : Kinds h input
  | peer {input : Input} {m : Mailboxes} (hpeer : Peers input)
      (hstep : h.step input = { h with mailboxes := m })
      (hm : h.mailboxes.Handles m) (hposts : h.posts input = []) :
    Kinds h input

theorem posts_of_turns (ht : Turns input) (hrun : h.running = true) :
    h.posts input
      = h.counted.opening input ++ (h.act input).delivery := by
  cases ht <;> exact if_pos hrun

/-- Once no messages are taken there are no turns. -/
theorem turns_of_closed (ht : Turns input) (hrun : h.running = false) :
    h.step input = h ∧ h.posts input = [] := by
  have hnot : ¬ h.running = true := by rw [hrun]; exact nofun
  refine ⟨?_, by cases ht <;> exact if_neg hnot⟩
  cases ht with
  | sweep now => exact if_neg hnot
  | _ => exact congrArg Prod.snd (if_neg hnot)

theorem kinds (h : Hub) (input : Input) : Kinds h input := by
  have hturn : Turns input → Kinds h input := by
    intro ht
    cases hrun : h.running with
    | true =>
      exact .turn hrun (step_of_turns ht hrun) (posts_of_turns ht hrun)
    | false =>
      obtain ⟨hstep, hposts⟩ := turns_of_closed ht hrun
      exact .ignored hstep hposts
  cases input with
  | register name role capacity now => exact hturn (.register ..)
  | call session op now => exact hturn (.call ..)
  | connectionClosed session now => exact hturn (.connectionClosed ..)
  | metrics => exact hturn .metrics
  | sweep now => exact hturn (.sweep now)
  | shutdown =>
    cases hrun : h.running with
    | true => exact .shutdown hrun
    | false =>
      have hnot : ¬ h.running = true := by rw [hrun]; exact nofun
      exact .ignored (congrArg Prod.snd (if_neg hnot)) (if_neg hnot)
  | receive session count =>
    exact .peer (.receive ..) rfl (receive_handles _ session count) rfl
  | abandon session =>
    exact .peer (.abandon _) rfl (abandon_handles _ session) rfl

theorem step_shutdown (hrun : h.running = true) :
    (h.step .shutdown).state = h.state
      ∧ (h.step .shutdown).mailboxes
        = h.lastNotices.foldl sayGoodbye h.mailboxes
      ∧ h.posts .shutdown = h.mailboxes.farewells h.lastNotices := by
  unfold step shutdown posts
  simp only [hrun, if_true]
  exact ⟨trivial, rfl, trivial⟩

/-- The state is as it was, or as it is when everything that was to be
handed out is. -/
theorem step_state (h : Hub) (input : Input) :
    (h.step input).state = h.state
      ∨ (h.step input).state
        = { (h.act input).state with notices := [], pending := [] } := by
  cases h.kinds input with
  | turn _ hstep => exact Or.inr (congrArg Hub.state hstep)
  | shutdown hrun => exact Or.inl (step_shutdown hrun).1
  | ignored hstep | peer _ hstep => exact Or.inl (by rw [hstep])

end Hub

end LabLease.Coordinator
