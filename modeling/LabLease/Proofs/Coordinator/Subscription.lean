/-
Subscriptions: who subscribes gets every event from then on, once each
and in order, as long as it has a mailbox.

What holds between turns is `Hub.Sound`. One turn continues the stream
of a subscriber (`Sound.step_streams`), and so does a run.
-/
import LabLease.Proofs.Coordinator.Journal
import LabLease.Proofs.Coordinator.Stream
import LabLease.Proofs.Coordinator.Turn

namespace LabLease.Coordinator

-- ================================================================ batches

/-- The pushes bring the changes that follow on an event number, in
batches of events. -/
def Brings (n : Nat) (cs : List Change) (pushes : List Push) : Prop :=
  ∃ batches : List (List Event), pushes = batches.map Push.events
    ∧ (∀ b ∈ batches, b ≠ []) ∧ batches.flatten = numbered n cs

namespace Brings

variable {n : Nat} {cs ds : List Change} {pushes pushes' : List Push}

theorem nil (n : Nat) : Brings n [] [] := ⟨[], rfl, nofun, rfl⟩

theorem batch (n : Nat) (cs : List Change) :
    Brings n cs ((batch (numbered n cs)).map Push.events) :=
  ⟨_, rfl, fun _ => ne_nil_of_mem_batch, flatten_batch _⟩

theorem append (h : Brings n cs pushes)
    (h' : Brings (n + cs.length) ds pushes') :
    Brings n (cs ++ ds) (pushes ++ pushes') := by
  obtain ⟨bs, rfl, hne, hflat⟩ := h
  obtain ⟨bs', rfl, hne', hflat'⟩ := h'
  refine ⟨bs ++ bs', List.map_append.symm, fun b hb => ?_, ?_⟩
  · exact (List.mem_append.1 hb).elim (hne b) (hne' b)
  · rw [List.flatten_append, hflat, hflat', numbered_append]

end Brings

/-- A subscription starts with the events that were missed, or with
everything. -/
theorem State.subscribe_cases (s : State) (lastEvent : Option Nat) :
    s.subscribe lastEvent = .resync s.snapshot
      ∨ ∃ n events, lastEvent = some n ∧ s.journal.since n = .ok events
        ∧ s.subscribe lastEvent = .replay events := by
  unfold State.subscribe
  cases lastEvent with
  | none => exact Or.inl rfl
  | some n =>
    dsimp only
    cases hsince : s.journal.since n with
    | error e => exact Or.inl rfl
    | ok events => exact Or.inr ⟨n, events, rfl, hsince, rfl⟩

namespace Hub

open Mailboxes

variable {hub : Hub} {input : Input}

/-- What holds between turns. -/
structure Sound (h : Hub) : Prop where
  state : Coordinator.Sound none h.state
  /-- Everything is handed out. -/
  pending : h.state.pending = []
  notices : h.state.notices = []
  recorded : ∃ cs, h.state.journal
    = (Journal.new h.state.settings.eventRetention).extend cs
  known : ∀ id box, h.mailboxes.boxes.get? id = some box →
    id ≤ h.state.roster.lastId
  tidy : h.mailboxes.Tidy

namespace Sound

theorem new (settings : Settings) : Sound (.new settings) := by
  refine ⟨.new settings, rfl, rfl, ⟨[], rfl⟩, ?_, ?_⟩
  · intro id box hbox
    cases hbox
  · intro id box hbox
    cases hbox

/-- Between turns nothing waits to be handed out, so all that a turn
hands out is what it has appended to the journal. -/
theorem act_told (h : Sound hub) (input : Input) :
    ∃ cs, (hub.act input).state.journal = hub.state.journal.extend cs
      ∧ (hub.act input).state.pending
        = numbered hub.state.journal.last cs := by
  obtain ⟨cs, hj, hp, -⟩ := Follows.moves h.state (act_moves h.state input)
  rw [h.pending] at hp
  exact ⟨cs, hj, hp⟩

/-- All that is done to the mailboxes is a run of jobs, unless a peer does
something, and the record has the posts. -/
theorem step_jobs (h : Sound hub) (input : Input) :
    Jobs (fun id => hub.state.roster.lastId < id
          ∧ id ≤ (hub.step input).state.roster.lastId)
        (hub.Restarts · input) hub.mailboxes (hub.posts input)
        (hub.step input).mailboxes
      ∨ Peers input ∧ hub.mailboxes.Handles (hub.step input).mailboxes
        ∧ (hub.step input).state = hub.state ∧ hub.posts input = [] := by
  cases hub.kinds input with
  | turn hrun hstep hposts =>
    rw [hstep, hposts]
    exact Or.inl ((act_jobs h.state h.known hrun input).trans
      (deliver_jobs (hub.act input)))
  | shutdown hrun =>
    obtain ⟨-, hm, hposts⟩ := step_shutdown hrun
    rw [hm, hposts]
    exact Or.inl (farewells_jobs _ _)
  | ignored hstep hposts =>
    rw [hstep, hposts]
    exact Or.inl .refl
  | peer hpeer hstep hm hposts =>
    refine Or.inr ⟨hpeer, ?_, ?_, hposts⟩
    · rw [hstep]
      exact hm
    · rw [hstep]

theorem step_lastId (h : Sound hub) (input : Input) :
    hub.state.roster.lastId ≤ (hub.step input).state.roster.lastId := by
  rcases hub.step_state input with hsame | hacted
  · exact Nat.le_of_eq (by rw [hsame])
  · rw [hacted]
    exact (act_moves h.state input).lastId

/-- One turn keeps what holds of the state. -/
theorem step_quiet (h : Sound hub) (input : Input) :
    Coordinator.Sound none (hub.step input).state
      ∧ (hub.step input).state.pending = []
      ∧ (hub.step input).state.notices = []
      ∧ ∃ cs, (hub.step input).state.journal
        = (Journal.new (hub.step input).state.settings.eventRetention).extend
          cs := by
  rcases hub.step_state input with hsame | hacted
  · rw [hsame]
    exact ⟨h.state, h.pending, h.notices, h.recorded⟩
  · have hm := act_moves h.state input
    have hs := h.state.moves hm
    obtain ⟨cs, hj, -⟩ := h.act_told input
    obtain ⟨ds, hd⟩ := h.recorded
    rw [hacted]
    -- the invariant of the state does not speak of what is to be handed out
    refine ⟨⟨hs.inventory, hs.places, hs.queue, hs.leased, hs.allotted,
      hs.attended⟩, rfl, rfl, ds ++ cs, ?_⟩
    show (hub.act input).state.journal
      = (Journal.new (hub.act input).state.settings.eventRetention).extend _
    rw [hj, hd, hm.settings, Journal.extend_append]

theorem step (h : Sound hub) (input : Input) :
    Sound (hub.step input) := by
  obtain ⟨hs, hp, hn, hr⟩ := h.step_quiet input
  rcases h.step_jobs input with hjobs | ⟨-, hm, hstate, -⟩
  · refine ⟨hs, hp, hn, hr, fun id box hbox => ?_, hjobs.tidy h.tidy⟩
    rcases hjobs.known hbox with hnew | ⟨b, hb⟩
    · exact hnew.2
    · exact Nat.le_trans (h.known id b hb) (h.step_lastId input)
  · refine ⟨hs, hp, hn, hr, fun id box hbox => ?_, hm.tidy h.tidy⟩
    obtain ⟨b, hb⟩ := hm.known id box hbox
    rw [hstate]
    exact h.known id b hb

theorem after (h : Sound hub) (inputs : List Input) :
    Sound (hub.after inputs) := by
  induction inputs generalizing hub with
  | nil => exact h
  | cons input inputs ih => exact ih (h.step input)

/-- The invariant holds whatever happens. -/
theorem reached (settings : Settings) (inputs : List Input) :
    Sound ((Hub.new settings).after inputs) :=
  (Sound.new settings).after inputs

/-- What is queued for a session is put behind what waits for it, and
only peers take anything out. -/
theorem step_waiting (h : Sound hub) (hown : ¬ Peers input)
    (session : SessionId) :
    (hub.step input).mailboxes.waiting session
      = hub.mailboxes.waiting session
        ++ queuedFor session (hub.posts input) := by
  rcases h.step_jobs input with hjobs | ⟨hpeer, -⟩
  · exact hjobs.waiting h.tidy session
  · exact absurd hpeer hown

-- ======================================================= lost mailboxes

variable {session : SessionId}

theorem not_new {last : SessionId}
    (hk : session ≤ hub.state.roster.lastId) :
    ¬ (hub.state.roster.lastId < session ∧ session ≤ last) :=
  fun hnew => Nat.not_lt.2 hk hnew.1

/-- Whoever has a mailbox has registered. -/
theorem known_of_hasBox (h : Sound hub)
    (hbox : hub.mailboxes.hasBox session = true) :
    session ≤ hub.state.roster.lastId := by
  obtain ⟨box, hget, -⟩ := hasBox_iff.1 hbox
  exact h.known session box hget

/-- A session that has lost its mailbox never gets another, and no push
to it is queued. -/
theorem step_closed (h : Sound hub)
    (hk : session ≤ hub.state.roster.lastId)
    (hno : hub.mailboxes.hasBox session = false) (input : Input) :
    (hub.step input).mailboxes.hasBox session = false
      ∧ ∀ x ∈ hub.posts input, x.session = session → x.fate = .lost := by
  rcases h.step_jobs input with hjobs | ⟨-, hm, -, hposts⟩
  · exact hjobs.closed (not_new hk) hno
  · rw [hposts]
    exact ⟨(hm.hasBox session).trans hno, nofun⟩

theorem after_closed (h : Sound hub)
    (hk : session ≤ hub.state.roster.lastId)
    (hno : hub.mailboxes.hasBox session = false) (inputs : List Input) :
    (hub.after inputs).mailboxes.hasBox session = false
      ∧ ∀ x ∈ hub.record inputs, x.session = session →
        x.fate = .lost := by
  induction inputs generalizing hub with
  | nil => exact ⟨hno, nofun⟩
  | cons input inputs ih =>
    obtain ⟨hno', hlost⟩ := h.step_closed hk hno input
    obtain ⟨hend, hrest⟩ := ih (h.step input)
      (Nat.le_trans hk (h.step_lastId input)) hno'
    refine ⟨hend, fun x hx => ?_⟩
    exact (List.mem_append.1 hx).elim (hlost x) (hrest x)

theorem step_known (h : Sound hub) {x : Post}
    (hx : x ∈ hub.posts input) (hf : x.fate ≠ .lost) :
    x.session ≤ (hub.step input).state.roster.lastId := by
  rcases h.step_jobs input with hjobs | ⟨-, -, -, hposts⟩
  · by_cases hk : x.session ≤ hub.state.roster.lastId
    · exact Nat.le_trans hk (h.step_lastId input)
    · by_contra hlate
      have hnew : ¬ (hub.state.roster.lastId < x.session
          ∧ x.session ≤ (hub.step input).state.roster.lastId) :=
        fun hnew => hlate hnew.2
      have hno : hub.mailboxes.hasBox x.session = false := by
        rw [← Bool.not_eq_true]
        exact fun hbox => hk (h.known_of_hasBox hbox)
      exact hf ((hjobs.closed hnew hno).2 x hx rfl)
  · rw [hposts] at hx
    cases hx

/-- In one turn a session is sent one push at most. -/
theorem step_once (h : Sound hub) (input : Input) :
    (hub.posts input).Pairwise Post.Once := by
  cases hub.kinds input with
  | turn hrun hstep hposts =>
    rw [hposts]
    rcases opening_cases hrun input with hnone | ⟨_, _, hone, -, _, hact⟩
    · rw [hnone]
      exact delivery_once _
    · have hquiet : (hub.act input).delivery = [] := by
        refine delivery_of_quiet ?_ ?_
        · exact (congrArg State.notices hact).trans h.notices
        · exact (congrArg State.pending hact).trans h.pending
      rw [hone, hquiet]
      exact List.pairwise_singleton _ _
  | shutdown hrun =>
    rw [(step_shutdown hrun).2.2]
    exact farewells_once _ _
  | ignored _ hnone | peer _ _ _ hnone =>
    rw [hnone]
    exact .nil

/-- After a push to a session has failed the session has no mailbox. -/
theorem step_failed (h : Sound hub) {x : Post} (hx : x ∈ hub.posts input)
    (hq : x.fate ≠ .queued) (hl : x.fate ≠ .lost) :
    (hub.step input).mailboxes.hasBox x.session = false := by
  cases hub.kinds input with
  | turn hrun hstep hposts =>
    rw [hstep]
    rw [hposts] at hx
    by_cases hk : x.session ≤ hub.state.roster.lastId
    · have hjobs := act_jobs h.state h.known hrun input
      exact (hjobs.trans (deliver_jobs _)).failed (not_new hk) hx rfl hq
    · -- A session without a mailbox is sent nothing on the way.
      have hend : Jobs (fun _ => False) (fun _ => False) _ _ _ :=
        deliver_jobs (hub.act input)
      rcases List.mem_append.1 hx with hx | hx
      · rw [fate_of_mem_opening hrun hx, Ne, fate_eq_lost_iff,
          Bool.not_eq_false] at hl
        exact absurd (h.known_of_hasBox hl) hk
      · exact hend.failed not_false hx rfl hq
  | shutdown hrun =>
    obtain ⟨-, hm, hposts⟩ := step_shutdown hrun
    rw [hm]
    rw [hposts] at hx
    have hjobs : Jobs (fun _ => False) (fun _ => False) _ _ _ :=
      farewells_jobs hub.mailboxes hub.lastNotices
    exact hjobs.failed not_false hx rfl hq
  | ignored _ hnone | peer _ _ _ hnone =>
    rw [hnone] at hx
    cases hx

/-- After a push to a session has failed every further push to it is
lost. -/
theorem record_failed (h : Sound hub) (inputs : List Input) :
    (hub.record inputs).Pairwise fun x y => x.session = y.session →
      x.fate = .full ∨ x.fate = .unread → y.fate = .lost := by
  induction inputs generalizing hub with
  | nil => exact .nil
  | cons input inputs ih =>
    have hkept : ∀ {x : Post}, x.fate = .full ∨ x.fate = .unread →
        x.fate ≠ .queued ∧ x.fate ≠ .lost := by
      intro x hf
      rcases hf with hf | hf <;> rw [hf] <;> exact ⟨nofun, nofun⟩
    refine List.pairwise_append.2
      ⟨?_, ih (h.step input), fun x hx y hy hs hf => ?_⟩
    · exact (h.step_once input).imp fun honce hs hf =>
        honce hs (hkept hf).2
    · obtain ⟨hq, hl⟩ := hkept hf
      exact ((h.step input).after_closed (h.step_known hx hl)
        (h.step_failed hx hq hl) inputs).2 y hy hs.symm

end Sound

-- ================================================================ streams

/-- From one hub to another a session is sent the changes that the journal
takes in, all of them if it still has a mailbox, and a farewell only if
it has none. -/
def Streams (session : SessionId) (hub hub' : Hub) (posts : List Post) :
    Prop :=
  ∃ cs pushes farewell, queuedFor session posts = pushes ++ farewell
    ∧ Brings hub.state.journal.last cs pushes ∧ Farewell farewell
    ∧ (hub'.mailboxes.hasBox session = true →
      farewell = [] ∧ hub'.state.journal = hub.state.journal.extend cs)

variable {session : SessionId} {hub₁ hub₂ : Hub} {posts posts' : List Post}

namespace Streams

theorem quiet (session : SessionId)
    (hj : hub₁.state.journal = hub.state.journal) :
    Streams session hub hub₁ [] :=
  ⟨[], [], [], rfl, .nil _, Or.inl rfl, fun _ => ⟨rfl, hj⟩⟩

/-- The mailbox is lost before anything else is sent. -/
theorem ended (hno : hub₁.mailboxes.hasBox session = false)
    (hf : Farewell (queuedFor session posts)) :
    Streams session hub hub₁ posts := by
  refine ⟨[], [], _, rfl, .nil _, hf, fun hbox => ?_⟩
  rw [hno] at hbox
  cases hbox

theorem trans (h : Streams session hub hub₁ posts)
    (hbox : hub₁.mailboxes.hasBox session = true)
    (h' : Streams session hub₁ hub₂ posts') :
    Streams session hub hub₂ (posts ++ posts') := by
  obtain ⟨cs, pushes, farewell, hq, hb, -, hend⟩ := h
  obtain ⟨ds, pushes', farewell', hq', hb', hf', hend'⟩ := h'
  obtain ⟨rfl, hj⟩ := hend hbox
  refine ⟨cs ++ ds, pushes ++ pushes', farewell', ?_, ?_, hf',
    fun hbox' => ⟨(hend' hbox').1, ?_⟩⟩
  · rw [queuedFor_append, hq, hq', List.append_nil, List.append_assoc]
  · rw [hj, Journal.extend_last] at hb'
    exact hb.append hb'
  · rw [(hend' hbox').2, hj, Journal.extend_append]

/-- Nothing follows on the loss of the mailbox. -/
theorem close (h : Streams session hub hub₁ posts)
    (hno : hub₂.mailboxes.hasBox session = false)
    (hnone : queuedFor session posts' = []) :
    Streams session hub hub₂ (posts ++ posts') := by
  obtain ⟨cs, pushes, farewell, hq, hb, hf, -⟩ := h
  refine ⟨cs, pushes, farewell, ?_, hb, hf, fun hbox => ?_⟩
  · rw [queuedFor_append, hq, hnone, List.append_nil]
  · rw [hno] at hbox
    cases hbox

end Streams

theorem mem_lastNotices (hbox : hub.mailboxes.hasBox session = true) :
    session ∈ hub.lastNotices.map (·.1) := by
  obtain ⟨box, hget, -⟩ := hasBox_iff.1 hbox
  have hkey : session ∈ hub.mailboxes.boxes.keys :=
    Table.mem_keys_iff_contains.2 (by
      unfold Table.contains
      rw [hget]
      rfl)
  unfold lastNotices
  rw [List.map_map]
  exact List.mem_map.2 ⟨session, List.mem_filter.2 ⟨hkey, hbox⟩, rfl⟩

namespace Sound

/-- Who keeps the mailbox and does not ask for it keeps following the
events, or does not. -/
theorem step_isSubscribed (h : Sound hub)
    (hk : session ≤ hub.state.roster.lastId)
    (hr : ¬ hub.Restarts session input)
    (hbox : (hub.step input).mailboxes.hasBox session = true) :
    (hub.step input).mailboxes.isSubscribed session
      = hub.mailboxes.isSubscribed session := by
  rcases h.step_jobs input with hjobs | ⟨-, hm, -⟩
  · exact hjobs.isSubscribed (not_new hk) hr hbox
  · unfold isSubscribed
    rw [hm.subscribed]

/-- One turn continues the stream of a subscriber. -/
theorem step_streams (h : Sound hub)
    (hbox : hub.mailboxes.hasBox session = true)
    (hsub : hub.mailboxes.isSubscribed session = true)
    (hr : ¬ hub.Restarts session input) :
    Streams session hub (hub.step input) (hub.posts input) := by
  have hk := h.known_of_hasBox hbox
  cases hub.kinds input with
  | turn hrun hstep hposts =>
    have hjobs := act_jobs h.state h.known hrun input
    have hend : Jobs (fun _ => False) (fun _ => False) _ _ _ :=
      deliver_jobs (hub.act input)
    have hq : queuedFor session (hub.posts input)
        = queuedFor session (hub.act input).delivery := by
      rw [hposts, queuedFor_append, queuedFor_opening hrun hr,
        List.nil_append]
    rw [hstep]
    -- the mailbox may be lost on the way or when everything is handed out
    cases hact : (hub.act input).mailboxes.hasBox session with
    | false =>
      obtain ⟨hno, hlost⟩ := hend.closed not_false hact
      exact .ended hno (Or.inl (hq.trans (queuedFor_of_lost hlost)))
    | true =>
      obtain ⟨cs, hj, hp⟩ := h.act_told input
      obtain ⟨hall, hany⟩ := queuedFor_delivery
        ((hjobs.isSubscribed (not_new hk) hr hact).trans hsub)
      rw [hp, ← hq] at hall hany
      have hfull : queuedFor session (hub.posts input)
            = (batch (numbered hub.state.journal.last cs)).map
                Push.events →
          Streams session hub (hub.act input).deliver
            (hub.posts input) := by
        intro hfull
        exact ⟨cs, _, [], by rw [hfull, List.append_nil], .batch _ cs,
          Or.inl rfl, fun _ => ⟨rfl, hj⟩⟩
      cases hno : (hub.act input).deliver.mailboxes.hasBox session with
      | true => exact hfull (hall hno)
      | false => exact hany.elim hfull (.ended hno)
  | shutdown hrun =>
    obtain ⟨-, hm, hposts⟩ := step_shutdown hrun
    obtain ⟨hno, hbye⟩ := farewells_of_mem (m := hub.mailboxes)
      (mem_lastNotices hbox)
    rw [← hm] at hno
    rw [← hposts] at hbye
    exact .ended hno hbye
  | ignored hstep hnone =>
    rw [hstep, hnone]
    exact .quiet session rfl
  | peer _ hstep _ hnone =>
    rw [hstep, hnone]
    exact .quiet session rfl

/-- A run continues the stream of a subscriber, until the session starts
anew or ends its subscription. -/
theorem after_streams (h : Sound hub)
    (hbox : hub.mailboxes.hasBox session = true)
    (hsub : hub.mailboxes.isSubscribed session = true)
    {inputs : List Input}
    (hr : ∀ pre input post, inputs = pre ++ input :: post →
      ¬ (hub.after pre).Restarts session input) :
    Streams session hub (hub.after inputs) (hub.record inputs) := by
  induction inputs generalizing hub with
  | nil => exact .quiet session rfl
  | cons input inputs ih =>
    have hstart : ¬ hub.Restarts session input := hr [] input inputs rfl
    have hrest : ∀ pre x post, inputs = pre ++ x :: post →
        ¬ ((hub.step input).after pre).Restarts session x :=
      fun pre x post heq => hr (input :: pre) x post (heq ▸ rfl)
    have hk := h.known_of_hasBox hbox
    have hfirst := h.step_streams hbox hsub hstart
    cases hbox' : (hub.step input).mailboxes.hasBox session with
    | true =>
      have hsub' := (h.step_isSubscribed hk hstart hbox').trans hsub
      exact hfirst.trans hbox' (ih (h.step input) hbox' hsub' hrest)
    | false =>
      obtain ⟨hno, hlost⟩ := (h.step input).after_closed
        (Nat.le_trans hk (h.step_lastId input)) hbox' inputs
      exact hfirst.close hno (queuedFor_of_lost hlost)

-- =============================================================== the start

variable {lastEvent : Option Nat} {now : Moment} {reply : Reply}

/-- At the end of a turn in which nothing has happened a live session
keeps what it has. -/
theorem deliver_same (hn : hub.state.notices = [])
    (hp : hub.state.pending = []) (hlive : hub.state.isLive session = true) :
    Same session hub.mailboxes hub.deliver.mailboxes := by
  have hquiet : (hub.state.notices.foldl sayGoodbye
      hub.mailboxes).broadcast hub.state.pending = hub.mailboxes := by
    rw [hn, hp]
    rfl
  unfold deliver
  dsimp only
  rw [hquiet]
  refine .foldl (fun id hid m => detach_same m fun heq => ?_) _
  have hgone := (List.mem_filter.1 hid).2
  rw [heq, hlive] at hgone
  cases hgone

/-- Who subscribes is subscribed from then on, and is sent the start of
the subscription. -/
theorem subscribed (h : Sound hub)
    (hok : (hub.call session (.subscribe lastEvent) now).1 = .ok reply) :
    let input := Input.call session (.subscribe lastEvent) now
    let start := hub.state.subscribe lastEvent
    reply = .subscribed start.isResync hub.state.eventNumber
      ∧ queuedFor session (hub.posts input) = start.push?.toList
      ∧ (hub.step input).mailboxes.hasBox session = true
      ∧ (hub.step input).mailboxes.isSubscribed session = true
      ∧ (hub.step input).state.journal = hub.state.journal := by
  intro input start
  cases hrun : hub.running with
  | false =>
    unfold call turn at hok
    rw [hrun, if_neg Bool.false_ne_true] at hok
    cases hok
  | true =>
    have hspec := hub.counted.subscribe_spec session lastEvent now
    have hanswer : (hub.counted.subscribe session lastEvent now).1
        = .ok reply := (turn_fst hrun _).symm.trans hok
    have hposts : hub.posts input
        = hub.counted.opening input ++ (hub.act input).delivery :=
      if_pos hrun
    have hstep : hub.step input = (hub.act input).deliver :=
      step_of_turns (.call ..) hrun
    have hact : hub.act input
        = (hub.counted.subscribe session lastEvent now).2 := rfl
    rw [hposts, hstep, hact]
    generalize hub.counted.opening _ = log at hspec ⊢
    generalize hub.counted.subscribe session lastEvent now = out
      at hspec hanswer ⊢
    obtain ⟨r, hub₁⟩ := out
    cases hanswer
    obtain ⟨hreply, hq, hbox, hsub, roster, hheard, hstate⟩ := hspec.of_ok
    have hn : hub₁.state.notices = [] :=
      (congrArg State.notices hstate).trans h.notices
    have hp : hub₁.state.pending = [] :=
      (congrArg State.pending hstate).trans h.pending
    have hlive : hub₁.state.isLive session = true := by
      obtain ⟨o, ho⟩ := Roster.get?_of_heartbeat hheard
      rw [hstate]
      exact congrArg Option.isSome ho
    have hsame := deliver_same hn hp hlive
    refine ⟨hreply, ?_, hsame.hasBox.trans hbox,
      hsame.subscribed.trans hsub, ?_⟩
    · rw [delivery_of_quiet hn hp, List.append_nil]
      exact hq
    · show hub₁.state.journal = hub.state.journal
      rw [hstate]
      rfl

/-- The start of a subscription brings whatever the subscriber lacks. -/
theorem start_brings (h : Sound hub) (lastEvent : Option Nat) :
    let start := hub.state.subscribe lastEvent
    ∃ n opening cs pushes, start.push?.toList = opening ++ pushes
      ∧ (start.isResync = true ∧ n = hub.state.eventNumber
          ∧ opening = [.resync hub.state.snapshot]
        ∨ start.isResync = false ∧ lastEvent = some n ∧ opening = [])
      ∧ Brings n cs pushes ∧ n + cs.length = hub.state.eventNumber := by
  intro start
  rcases hub.state.subscribe_cases lastEvent with
    heq | ⟨n, events, rfl, hsince, heq⟩
  · rw [show start = _ from heq]
    exact ⟨_, _, [], [], rfl, Or.inl ⟨rfl, rfl, rfl⟩, .nil _, rfl⟩
  · rw [show start = _ from heq]
    obtain ⟨cs, hj⟩ := h.recorded
    have hlast : hub.state.eventNumber = cs.length := by
      unfold State.eventNumber
      rw [hj, Journal.extend_last]
      exact Nat.zero_add _
    rw [hj] at hsince
    obtain ⟨hle, hevents⟩ := Journal.since_ok hsince
    refine ⟨n, [], cs.drop n, _, State.Start.push?_replay events,
      Or.inr ⟨rfl, rfl, rfl⟩, ?_, ?_⟩
    · rw [hevents]
      exact .batch n _
    · rw [hlast, List.length_drop, Nat.add_sub_cancel' hle]

end Sound

/-- Every subscription is a stream without gaps and duplicates that is up
to date. What is queued for a session from a successful subscription on,
until it starts anew or ends its subscription, is everything if it is to
start from nothing, and then in any case the events that follow on its
number, all of them as long as it has its mailbox; the loss of the mailbox
may be announced by a farewell. After a push has failed nothing is queued
any more.

Queued is what is put into the mailbox. A turn sends one push at most to
a session, so that it makes no difference whether its peer takes pushes
out in the middle of the turn or before or after it. -/
theorem subscriptions_stream (settings : Settings) (before : List Input) :
    let hub := (Hub.new settings).after before
    (∀ session lastEvent now reply after,
      let asks := Input.call session (.subscribe lastEvent) now
      let hub' := hub.after (asks :: after)
      (hub.call session (.subscribe lastEvent) now).1 = .ok reply →
      (∀ pre input post, after = pre ++ input :: post →
        ¬ (hub.after (asks :: pre)).Restarts session input) →
      ∃ (resync : Bool) (number n : Nat) (opening : List Push)
          (batches : List (List Event)) (farewell : List Push),
        reply = .subscribed resync number
          ∧ queuedFor session (hub.record (asks :: after))
            = opening ++ batches.map Push.events ++ farewell
          ∧ (resync = true ∧ n = number
              ∧ opening = [.resync hub.state.snapshot]
              ∧ hub.state.snapshot.eventNumber = n
            ∨ resync = false ∧ lastEvent = some n ∧ opening = [])
          ∧ (∀ b ∈ batches, b ≠ [])
          ∧ batches.flatten.map (·.seq)
            = List.range' (n + 1) batches.flatten.length
          ∧ Farewell farewell
          ∧ (hub'.mailboxes.hasBox session = true → farewell = []
            ∧ n + batches.flatten.length = hub'.state.eventNumber))
      ∧ ((Hub.new settings).record before).Pairwise
        (fun x y => x.session = y.session →
          x.fate = .full ∨ x.fate = .unread → y.fate ≠ .queued)
      ∧ (∀ input, (hub.posts input).Pairwise Post.Once)
      ∧ ∀ input session, ¬ Peers input →
        (hub.step input).mailboxes.waiting session
          = hub.mailboxes.waiting session
            ++ queuedFor session (hub.posts input) := by
  intro hub
  have h : Sound hub := .reached settings before
  refine ⟨?_, ?_, h.step_once, fun input session hown =>
    h.step_waiting hown session⟩
  · intro session lastEvent now reply after asks hub' hok hr
    obtain ⟨hreply, hstart, hbox, hsub, hj⟩ := h.subscribed hok
    obtain ⟨n, opening, ds, pushes, hpushes, hopening, hbrings, hn⟩ :=
      h.start_brings lastEvent
    obtain ⟨cs, pushes', farewell, hq, hbrings', hf, hend⟩ :=
      (h.step asks).after_streams hbox hsub hr
    rw [hj, show hub.state.journal.last = n + ds.length from hn.symm]
      at hbrings'
    obtain ⟨batches, hbatches, hne, hflat⟩ := hbrings.append hbrings'
    refine ⟨_, _, n, opening, batches, farewell, hreply, ?_, ?_, hne, ?_,
      hf, fun hbox' => ⟨(hend hbox').1, ?_⟩⟩
    · show queuedFor session (hub.posts asks ++ _) = _
      rw [queuedFor_append, hstart, hpushes, hq, ← hbatches]
      simp only [List.append_assoc]
    · rcases hopening with ⟨hre, hnum, heq⟩ | hreplay
      · exact Or.inl ⟨hre, hnum, heq, hnum.symm⟩
      · exact Or.inr hreplay
    · rw [hflat, map_seq_numbered, length_numbered]
    · have hj' : hub'.state.journal = _ := (hend hbox').2
      unfold State.eventNumber at hn ⊢
      rw [hj', hj, Journal.extend_last, ← hn, hflat, length_numbered,
        List.length_append, Nat.add_assoc]
  · refine ((Sound.new settings).record_failed before).imp ?_
    intro x y hlost hs hf
    rw [hlost hs hf]
    exact Fate.noConfusion

/-- A client whose mailbox has room for two pushes takes out the resync in
time, and gets the two events that follow. -/
theorem subscriptions_stream_rack :
    let noon : Moment := ⟨0, ⟨2024, 1, 1, 12, 0, 0, 0⟩⟩
    let led (pin : UInt32) : Input :=
      .call 1 (.setResources [⟨"rack", "led", .sysfsGpio pin⟩]) noon
    let hub := (Hub.new {}).after [.register "bench" .exporter 1 noon,
      led 7, .register "alice" .client 2 noon]
    let asks := Input.call 2 (.subscribe none) noon
    let inputs := [asks, led 8, .receive 2 1, led 9]
    (hub.after inputs).mailboxes.hasBox 2 = true
      ∧ ∃ batches : List (List Event),
        queuedFor 2 (hub.record inputs)
            = .resync hub.state.snapshot :: batches.map Push.events
          ∧ batches.flatten.map (·.seq) = [2, 3] := by
  intro noon led hub asks inputs
  obtain ⟨hok, hbox, hlast⟩ :
      (hub.call 2 (.subscribe none) noon).1 = .ok (.subscribed true 1)
        ∧ (hub.after inputs).mailboxes.hasBox 2 = true
        ∧ (hub.after inputs).state.eventNumber = 3 := by
    decide +kernel
  obtain ⟨hstream, -⟩ := subscriptions_stream {}
    [.register "bench" .exporter 1 noon, led 7,
      .register "alice" .client 2 noon]
  obtain ⟨resync, number, n, opening, batches, farewell, hreply, hq, hopen,
      -, hnumbers, -, hend⟩ :=
    hstream 2 none noon _ [led 8, .receive 2 1, led 9] hok (by
      intro pre input post hinputs hr
      have hmem : input ∈ [led 8, .receive 2 1, led 9] :=
        hinputs ▸ List.mem_append_right pre List.mem_cons_self
      simp only [List.mem_cons, List.not_mem_nil, or_false] at hmem
      obtain rfl | rfl | rfl := hmem <;> cases hr)
  cases hreply
  obtain ⟨rfl, hlen⟩ := hend hbox
  rcases hopen with ⟨-, rfl, rfl, -⟩ | ⟨hno, -⟩
  · rw [hlast] at hlen
    have htwo : batches.flatten.length = 2 := by omega
    rw [htwo] at hnumbers
    exact ⟨hbox, batches, hq.trans (List.append_nil _), hnumbers⟩
  · cases hno

end Hub

end LabLease.Coordinator
