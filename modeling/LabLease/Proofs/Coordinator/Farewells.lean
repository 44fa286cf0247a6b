/-
The life of a mailbox: that its session is live, that a registration makes
it, and what the last push is when its session is ended by a sweep or by
another registration under its name.

# Why the farewell is the last

At the end of a turn the notices come first, then the events, then the
mailboxes of all who are gone. A farewell takes the mailbox away at once,
and the subscription with it, so that the events of the same turn, those
of the session's own teardown among them, are not even tried
(`postsTo_delivery`). After that the session is not live, and its number
is never given again.

A turn gives at most one notice to a session (`Ends.nodup`), so that there
is one farewell and not two. Neither a sweep nor a registration touches
the mailbox of the session on the way, so that it depends on what was
there before the turn whether the farewell is queued.
-/
import LabLease.Proofs.Coordinator.Eviction
import LabLease.Proofs.Coordinator.Latecomers

namespace LabLease.Coordinator

variable {session : SessionId} {posts posts' : List Post}

/-- The posts for one session. -/
def postsTo (session : SessionId) (posts : List Post) : List Post :=
  posts.filter (·.session = session)

theorem postsTo_append :
    postsTo session (posts ++ posts')
      = postsTo session posts ++ postsTo session posts' :=
  List.filter_append ..

theorem postsTo_eq_nil (h : ∀ x ∈ posts, x.session ≠ session) :
    postsTo session posts = [] :=
  List.filter_eq_nil_iff.2 fun x hx hs => h x hx (of_decide_eq_true hs)

/-- What is queued for a session are posts for it. -/
theorem queuedFor_postsTo (session : SessionId) (posts : List Post) :
    queuedFor session (postsTo session posts)
      = queuedFor session posts := by
  unfold queuedFor postsTo
  rw [List.filter_filter]
  refine congrArg (List.map _) (List.filter_congr fun x _ => ?_)
  by_cases hs : x.session = session <;> simp [hs]

namespace Mailboxes

variable {m : Mailboxes}

/-- A push is queued if there is a mailbox that is read and has room. -/
theorem fate_eq_queued_iff :
    m.fate session = .queued ↔ ∃ box, m.attached? session = some box
      ∧ box.watched = true ∧ box.waiting.length < box.capacity := by
  unfold fate
  cases m.attached? session with
  | none => exact iff_of_false nofun nofun
  | some box =>
    dsimp only
    by_cases hw : box.watched = true
    · by_cases hroom : box.waiting.length < box.capacity
      · simp [hw, hroom]
      · simp [hw, hroom]
    · simp [hw]

-- ============================================================== farewells

/-- One notice for a session makes one post for it. -/
theorem postsTo_farewells {notices : List (SessionId × String)}
    {reason : String} (hnd : (notices.map (·.1)).Nodup)
    (hmem : (session, reason) ∈ notices) :
    postsTo session (m.farewells notices)
      = [⟨session, .shutdown reason, m.fate session⟩] := by
  obtain ⟨before, after, rfl⟩ := List.append_of_mem hmem
  rw [List.map_append, List.map_cons, List.nodup_append] at hnd
  obtain ⟨-, hafter, hapart⟩ := hnd
  have hbefore : ∀ n ∈ before, n.1 ≠ session := fun n hn =>
    hapart n.1 (List.mem_map_of_mem hn) session List.mem_cons_self
  have hrest : ∀ n ∈ after, n.1 ≠ session := by
    rintro n hn rfl
    have hagain : n.1 ∈ after.map (·.1) := List.mem_map_of_mem hn
    exact (List.nodup_cons.1 hafter).1 hagain
  have hothers : ∀ {m : Mailboxes} {notices : List (SessionId × String)},
      (∀ n ∈ notices, n.1 ≠ session) →
      postsTo session (m.farewells notices) = [] := by
    intro m notices hne
    refine postsTo_eq_nil fun x hx => ?_
    obtain ⟨n, hn, heq⟩ := session_of_mem_postsOf hx
    exact fun hs => hne n hn (heq.symm.trans hs)
  -- whoever is told before leaves the session's mailbox alone
  have hsame : Same session m (before.foldl Hub.sayGoodbye m) :=
    .foldl (fun n hn => sayGoodbye_same (hbefore n hn)) m
  have hsplit : m.farewells (before ++ (session, reason) :: after)
      = m.farewells before
        ++ (⟨session, .shutdown reason, m.fate session⟩
          :: (Hub.sayGoodbye (before.foldl Hub.sayGoodbye m)
            (session, reason)).farewells after) := by
    unfold farewells
    rw [postsOf_append, postsOf, hsame.fate]
  rw [hsplit, postsTo_append, hothers hbefore, List.nil_append]
  unfold postsTo
  rw [List.filter_cons, if_pos (decide_eq_true rfl)]
  exact congrArg _ (hothers hrest)

/-- Events are not tried for a session that does not follow them. -/
theorem postsTo_mailing (hsub : m.isSubscribed session = false)
    (events : List Event) : postsTo session (m.mailing events) = [] := by
  refine postsTo_eq_nil fun x hx hs => ?_
  unfold mailing at hx
  split at hx
  · cases hx
  · obtain ⟨id, hid, heq⟩ := session_of_mem_postsOf hx
    have hsubscribed : m.isSubscribed session = true :=
      Table.mem_keys_iff_contains.1 ((heq.symm.trans hs) ▸ hid)
    rw [hsub] at hsubscribed
    cases hsubscribed

theorem broadcast_same (hsub : m.isSubscribed session = false)
    (events : List Event) : Same session m (m.broadcast events) := by
  unfold broadcast
  split
  · exact .refl session m
  · refine .foldl (fun id hid => sendTo_same events fun heq => ?_) m
    have hsubscribed : m.isSubscribed session = true :=
      Table.mem_keys_iff_contains.1 (heq ▸ hid)
    rw [hsub] at hsubscribed
    cases hsubscribed

end Mailboxes

namespace Hub

open Mailboxes

variable {hub h : Hub} {input : Input} {reason : String}

-- ============================================================ end of a turn

/-- Whoever is given notice is sent the farewell and nothing else. -/
theorem postsTo_delivery (hk : h.mailboxes.Kept session)
    (hnd : (h.state.notices.map (·.1)).Nodup)
    (hmem : (session, reason) ∈ h.state.notices) :
    postsTo session h.delivery
        = [⟨session, .shutdown reason, h.mailboxes.fate session⟩]
      ∧ h.deliver.mailboxes.hasBox session = false := by
  let told := h.state.notices.foldl sayGoodbye h.mailboxes
  obtain ⟨hno, -⟩ :=
    farewells_of_mem (m := h.mailboxes) (List.mem_map_of_mem hmem)
  have hjobs : Jobs (fun _ => False) (fun _ => False) h.mailboxes _ told :=
    farewells_jobs h.mailboxes h.state.notices
  have hsub : told.isSubscribed session = false := by
    rw [← Bool.not_eq_true]
    intro hsub
    rw [(hjobs.kept hk).boxed hsub] at hno
    cases hno
  constructor
  · unfold delivery
    rw [postsTo_append, postsTo_farewells hnd hmem, postsTo_mailing hsub]
    rfl
  · have hrest : Jobs (fun _ => False) (fun _ => False) told _
        h.deliver.mailboxes :=
      (mailing_jobs told h.state.pending).trans (.detachAll _ _)
    exact (hrest.closed not_false hno).1

/-- The end of a turn leaves a live session alone that is given no notice
and does not follow the events. -/
theorem deliver_spares (hn : ∀ n ∈ h.state.notices, n.1 ≠ session)
    (hsub : h.mailboxes.isSubscribed session = false)
    (hlive : h.state.isLive session = true) :
    Same session h.mailboxes h.deliver.mailboxes := by
  let told := h.state.notices.foldl sayGoodbye h.mailboxes
  let sent := told.broadcast h.state.pending
  have htold : Same session h.mailboxes told :=
    .foldl (fun n hmem => sayGoodbye_same (hn n hmem)) _
  have hsent : Same session told sent :=
    broadcast_same (htold.subscribed.trans hsub) h.state.pending
  have hends : Same session sent h.deliver.mailboxes := by
    show Same session sent
      ((sent.holders.filter (!h.state.isLive ·)).foldl detach sent)
    refine .foldl (fun id hid m => detach_same m ?_) sent
    rintro rfl
    have hgone := (List.mem_filter.1 hid).2
    rw [hlive] at hgone
    cases hgone
  exact (htold.trans hsent).trans hends

-- ======================================================== how a mailbox comes

namespace Sound

/-- What the state notes down when a peer registers: that whoever had the
name has ended. -/
theorem cleared_notices (h : Sound hub) (name : String) (now : Moment) :
    (hub.state.cleared name now).notices
      = (hub.state.roster.named? name).toList.map fun old =>
          (old.id, "replaced by a new session") := by
  unfold State.cleared
  cases hub.state.roster.named? name with
  | none => exact h.notices
  | some old =>
    have hnote : Coordinator.Sound none
        (hub.state.notify old.id "replaced by a new session") :=
      h.state.move (.aside _ hub.state.incompleteSince hub.state.evictions)
    refine (congrArg Prod.fst (hnote.endSession_tally old.id now)).trans ?_
    show hub.state.notices ++ _ = _
    rw [h.notices]
    rfl

/-- Notice is given to a session that was there before. -/
theorem cleared_noted (h : Sound hub) (name : String) (now : Moment) :
    ∀ n ∈ (hub.state.cleared name now).notices,
      n.1 ≤ hub.state.roster.lastId := by
  intro n hn
  rw [h.cleared_notices] at hn
  obtain ⟨old, hold, rfl⟩ := List.mem_map.1 hn
  obtain ⟨hget, -⟩ := h.state.attended.roster.named?_eq_some.1
    (Option.mem_toList.1 hold)
  exact h.state.attended.roster.given old.id old hget

end Sound

variable {name : String} {role : Role} {capacity number : Nat}
  {now : Moment}

/-- A registration that is answered with a number. -/
theorem register_inv
    (hok : (hub.register name role capacity now).1
      = .ok (session, number)) :
    hub.running = true ∧ ∃ roster,
      (hub.state.cleared name now).roster.register name role now
        = .ok (session, roster) := by
  cases hrun : hub.running with
  | false =>
    unfold register at hok
    rw [turn_closed hrun] at hok
    cases hok
  | true =>
    rw [register_fst hrun] at hok
    cases hr : (hub.state.cleared name now).roster.register name role
        now with
    | error e =>
      rw [hr] at hok
      cases hok
    | ok out =>
      rw [hr] at hok
      cases hok
      exact ⟨rfl, out.2, rfl⟩

/-- A registration leaves the mailboxes alone of all whose number it does
not give. -/
theorem act_register_same (hrun : hub.running = true)
    (hne : ∀ number, (hub.register name role capacity now).1
      ≠ .ok (session, number)) :
    Same session hub.mailboxes
      (hub.act (.register name role capacity now)).mailboxes := by
  rw [register_fst hrun] at hne
  rw [act_register]
  cases hr : (hub.state.cleared name now).roster.register name role now with
  | error e => exact .refl session _
  | ok out =>
    rw [hr] at hne
    have hother : out.1 ≠ session := by
      rintro rfl
      exact hne _ rfl
    exact ⟨(Table.get?_insert ..).trans (if_neg hother), rfl⟩

/-- Numbers are given in order. -/
theorem Sound.lastId_lt_of_register (h : Sound hub)
    (hok : (hub.register name role capacity now).1
      = .ok (session, number)) :
    hub.state.roster.lastId < session := by
  have hgiven : (hub.answer (.register name role capacity now)).given?
      = some session := by
    show (Answer.registered (hub.register name role capacity now).1).given?
      = _
    rw [hok]
    rfl
  exact (h.given_next hgiven).1

/-- Whoever the roster takes is live and has a mailbox, before anything is
handed out. -/
theorem act_register_joins {roster : Roster}
    (hr : (hub.state.cleared name now).roster.register name role now
      = .ok (session, roster)) :
    (hub.act (.register name role capacity now)).state.isLive session = true
      ∧ (hub.act (.register name role capacity now)).mailboxes.hasBox
        session = true := by
  rw [act_register, hr]
  obtain ⟨-, -, -, hroster⟩ := Roster.register_ok hr
  have hjoined : (roster.sessions.get? session).isSome = true := by
    rw [hroster, Table.get?_insert, if_pos rfl]
    rfl
  exact ⟨hjoined,
    hasBox_iff.2 ⟨_, (Table.get?_insert ..).trans (if_pos rfl), rfl⟩⟩

/-- Who is given a number has a mailbox from then on. -/
theorem Sound.hasBox_of_register (h : Sound hub) (ht : Tenanted hub)
    (hok : (hub.register name role capacity now).1
      = .ok (session, number)) :
    hub.mailboxes.hasBox session = false
      ∧ (hub.step (.register name role capacity now)).mailboxes.hasBox
        session = true := by
  obtain ⟨hrun, roster, hr⟩ := register_inv hok
  have hahead := h.lastId_lt_of_register hok
  have hno : hub.mailboxes.hasBox session = false := by
    rw [← Bool.not_eq_true]
    exact fun hbox => Nat.not_lt.2 (h.known_of_hasBox hbox) hahead
  have hact := act_register hub name role capacity now
  rw [hr] at hact
  -- it does not follow the events yet, and notice is given to others
  have hsub : (hub.act (.register name role capacity
      now)).mailboxes.isSubscribed session = false := by
    rw [hact, ← Bool.not_eq_true]
    intro hsub
    rw [(ht.kept session).boxed hsub] at hno
    cases hno
  have hothers : ∀ n ∈ (hub.act (.register name role capacity
      now)).state.notices, n.1 ≠ session := by
    rw [hact]
    exact fun n hn => Nat.ne_of_lt
      (Nat.lt_of_le_of_lt (h.cleared_noted name now n hn) hahead)
  obtain ⟨hlive, hbox⟩ := act_register_joins hr
  refine ⟨hno, ?_⟩
  rw [step_of_turns (.register name role capacity now) hrun]
  exact (deliver_spares hothers hsub hlive).hasBox.trans hbox

/-- Nobody else has one that had none before. -/
theorem register_of_hasBox
    (hno : hub.mailboxes.hasBox session = false)
    (hbox : (hub.step input).mailboxes.hasBox session = true) :
    ∃ name role capacity now number,
      input = .register name role capacity now
      ∧ (hub.register name role capacity now).1 = .ok (session, number) := by
  -- the session had none before what was handed out either
  have hdelivered : (hub.act input).mailboxes.hasBox session = false →
      hub.step input ≠ (hub.act input).deliver := by
    intro hnone hstep
    have hjobs : Jobs (fun _ => False) (fun _ => False)
        (hub.act input).mailboxes _ _ := deliver_jobs (hub.act input)
    rw [hstep, (hjobs.closed not_false hnone).1] at hbox
    cases hbox
  cases hub.kinds input with
  | turn hrun hstep =>
    by_contra hnot
    refine hdelivered ?_ hstep
    by_cases hreg : ∃ name role capacity now,
        input = .register name role capacity now
    · obtain ⟨name, role, capacity, now, rfl⟩ := hreg
      exact (act_register_same hrun fun number hok => hnot
        ⟨name, role, capacity, now, number, rfl, hok⟩).hasBox.trans hno
    · have hacts : Jobs (fun _ => False) (hub.Restarts · input)
          hub.mailboxes _ (hub.act input).mailboxes :=
        act_jobs_of_not_register hrun fun name role capacity now heq =>
          hreg ⟨name, role, capacity, now, heq⟩
      exact (hacts.closed not_false hno).1
  | shutdown hrun =>
    have hjobs : Jobs (fun _ => False) (fun _ => False) hub.mailboxes _ _ :=
      farewells_jobs hub.mailboxes hub.lastNotices
    rw [(step_shutdown hrun).2.1, (hjobs.closed not_false hno).1] at hbox
    cases hbox
  | ignored hstep =>
    rw [hstep, hno] at hbox
    cases hbox
  | peer _ hstep hm =>
    rw [hstep, show Mailboxes.hasBox _ session = _ from hm.hasBox session,
      hno] at hbox
    cases hbox

-- ======================================================== how a mailbox goes

/-- What a session is told that an input ends without its doing. -/
def Input.reason? : Input → Option String
  | .sweep _ => some "heartbeat timeout"
  | .register .. => some "replaced by a new session"
  | _ => none

/-- A turn that ends a session without its doing, before anything is
handed out. -/
structure Ends (hub : Hub) (input : Input) (session : SessionId)
    (reason : String) : Prop where
  nodup : ((hub.act input).state.notices.map (·.1)).Nodup
  told : (session, reason) ∈ (hub.act input).state.notices
  same : Same session hub.mailboxes (hub.act input).mailboxes
  quiet : hub.counted.opening input = []

/-- There is nothing for it in that turn but the farewell. -/
theorem Ends.delivery (h : Ends hub input session reason)
    (hk : hub.mailboxes.Kept session) :
    postsTo session (hub.counted.opening input ++ (hub.act input).delivery)
        = [⟨session, .shutdown reason, hub.mailboxes.fate session⟩]
      ∧ (hub.act input).deliver.mailboxes.hasBox session = false := by
  obtain ⟨hdelivery, hno⟩ :=
    postsTo_delivery (h.same.kept hk) h.nodup h.told
  rw [h.same.fate] at hdelivery
  rw [h.quiet]
  exact ⟨hdelivery, hno⟩

theorem Sound.ends_sweep (h : Sound hub) (now : Moment)
    (hlive : hub.state.isLive session = true)
    (hgone : (hub.state.sweep now).isLive session = false) :
    Ends hub (.sweep now) session "heartbeat timeout" := by
  have hmem : session ∈ hub.state.roster.expired now := by
    by_contra hnot
    rw [(h.state.sweep_isLive now session).2 ⟨hlive, hnot⟩] at hgone
    cases hgone
  have hlisted : ∀ x ∈ hub.state.roster.expired now,
      hub.state.isLive x = true := by
    intro x hx
    obtain ⟨o, ho, -⟩ := h.state.attended.roster.mem_expired.1 hx
    exact State.isLive_iff.2 ⟨o, ho⟩
  have hnd := h.state.attended.roster.nodup_expired now
  have htally : (hub.state.sweep now).tally = _ :=
    (State.sweep_tally hub.state now).trans
      (h.state.foldl_evict_tally now hnd hlisted)
  have hnotices : (hub.act (.sweep now)).state.notices
      = (hub.state.roster.expired now).map fun x =>
          (x, "heartbeat timeout") := by
    refine (congrArg Prod.fst htally).trans ?_
    show hub.state.notices ++ _ = _
    rw [h.notices, List.nil_append]
  refine ⟨?_, ?_, .refl session _, rfl⟩
  · rw [hnotices, List.map_map]
    exact (List.map_id _).symm ▸ hnd
  · rw [hnotices]
    exact List.mem_map_of_mem hmem

theorem Sound.ends_register (h : Sound hub) (hrun : hub.running = true)
    (hlive : hub.state.isLive session = true)
    (hgone : (hub.act (.register name role capacity now)).state.isLive
      session = false) :
    Ends hub (.register name role capacity now) session
      "replaced by a new session" := by
  have hact := act_register hub name role capacity now
  have hstep : (hub.act (.register name role capacity now)).state
      = hub.state.step (.register name role now) := by
    unfold State.step
    dsimp only
    rw [hact, Action.register_apply]
    cases (hub.state.cleared name now).roster.register name role now <;> rfl
  rw [hstep, h.state.step_isLive hlive] at hgone
  obtain ⟨old, hn, hold⟩ : ∃ old, hub.state.roster.named? name = some old
      ∧ old.id = session := by
    cases hgone with
    | replaced _ _ hn hx => exact ⟨_, hn, hx⟩
  have hnotices : (hub.act (.register name role capacity now)).state.notices
      = [(session, "replaced by a new session")] := by
    have hcleared := h.cleared_notices name now
    rw [hn] at hcleared
    rw [hact, ← hold]
    cases (hub.state.cleared name now).roster.register name role now <;>
      exact hcleared
  refine ⟨?_, ?_, ?_, rfl⟩
  · rw [hnotices]
    exact List.pairwise_singleton _ _
  · rw [hnotices]
    exact List.mem_singleton_self _
  · refine act_register_same hrun fun number hok => ?_
    obtain ⟨o, ho⟩ := State.isLive_iff.1 hlive
    exact Nat.not_lt.2 (h.state.attended.roster.given session o ho)
      (h.lastId_lt_of_register hok)

/-- A session that has a mailbox and is ended without its doing. -/
theorem Sound.ends (h : Sound hub) (hr : input.reason? = some reason)
    (hlive : hub.state.isLive session = true)
    (hgone : (hub.step input).state.isLive session = false) :
    hub.step input = (hub.act input).deliver
      ∧ hub.posts input
        = hub.counted.opening input ++ (hub.act input).delivery
      ∧ Ends hub input session reason := by
  cases hub.kinds input with
  | turn hrun hstep hposts =>
    refine ⟨hstep, hposts, ?_⟩
    rw [hstep] at hgone
    cases input with
    | sweep now =>
      cases hr
      exact h.ends_sweep now hlive hgone
    | register name role capacity now =>
      cases hr
      exact h.ends_register hrun hlive hgone
    | _ => cases hr
  | shutdown => cases hr
  | ignored hstep =>
    rw [hstep, hlive] at hgone
    cases hgone
  | peer hpeer => cases hpeer <;> cases hr

/-- Mailboxes in every run. Who follows the events has a mailbox, and who
has a mailbox is live. A session that had none has one after an input just
if the input was a registration and was answered with its number. When a
session with a mailbox is evicted or replaced, the one thing that it is
sent in that turn is the farewell: if its mailbox is read and has room,
this comes behind what waits, and otherwise nothing does. After that it
has no mailbox, and whatever there may be for it is lost. -/
theorem mailbox_life (settings : Settings) (before : List Input) :
    let hub := (Hub.new settings).after before
    (∀ session,
      (hub.mailboxes.isSubscribed session = true →
        hub.mailboxes.hasBox session = true)
      ∧ (hub.mailboxes.hasBox session = true →
        hub.state.isLive session = true))
    ∧ (∀ input session,
      hub.mailboxes.hasBox session = false
        ∧ (hub.step input).mailboxes.hasBox session = true
      ↔ ∃ name role capacity now number,
        input = .register name role capacity now
        ∧ (hub.register name role capacity now).1 = .ok (session, number))
    ∧ ∀ input session reason, input.reason? = some reason →
      hub.mailboxes.hasBox session = true →
      (hub.step input).state.isLive session = false →
      let room := ∃ box, hub.mailboxes.attached? session = some box
        ∧ box.watched = true ∧ box.waiting.length < box.capacity
      let ended := hub.step input
      postsTo session (hub.posts input)
          = [⟨session, .shutdown reason, hub.mailboxes.fate session⟩]
        ∧ (room → ended.mailboxes.waiting session
          = hub.mailboxes.waiting session ++ [.shutdown reason])
        ∧ (¬ room → ended.mailboxes.waiting session
          = hub.mailboxes.waiting session)
        ∧ ∀ rest, (ended.after rest).mailboxes.hasBox session = false
          ∧ ∀ x ∈ ended.record rest, x.session = session →
            x.fate = .lost := by
  intro hub
  have h : Sound hub := .reached settings before
  have ht : Tenanted hub := .reached settings before
  refine ⟨fun session => ⟨(ht.kept session).boxed, ht.live session⟩,
    fun input session =>
      ⟨fun ⟨hno, hbox⟩ => register_of_hasBox hno hbox, ?_⟩, ?_⟩
  · rintro ⟨name, role, capacity, now, number, rfl, hok⟩
    exact h.hasBox_of_register ht hok
  · intro input session reason hr hbox hgone room ended
    obtain ⟨hstep, hposts, hends⟩ := h.ends hr (ht.live session hbox) hgone
    have hown : ¬ Peers input := by
      intro hpeer
      cases hpeer <;> cases hr
    obtain ⟨hdelivery, hno⟩ := hends.delivery (ht.kept session)
    have hone : postsTo session (hub.posts input)
        = [⟨session, .shutdown reason, hub.mailboxes.fate session⟩] :=
      (congrArg (postsTo session) hposts).trans hdelivery
    have hwaiting : ended.mailboxes.waiting session
        = hub.mailboxes.waiting session
          ++ if hub.mailboxes.fate session = .queued
            then [.shutdown reason] else [] := by
      rw [h.step_waiting hown, ← queuedFor_postsTo, hone, queuedFor_cons]
      simp only [true_and]
      exact congrArg _ (List.append_nil _)
    have hknown : session ≤ ended.state.roster.lastId :=
      Nat.le_trans (h.known_of_hasBox hbox) (h.step_lastId input)
    have hclosed : ended.mailboxes.hasBox session = false := by
      show (hub.step input).mailboxes.hasBox session = false
      rw [hstep]
      exact hno
    refine ⟨hone, fun hroom => ?_, fun hroom => ?_,
      (h.step input).after_closed hknown hclosed⟩
    · rw [hwaiting, if_pos (fate_eq_queued_iff.2 hroom)]
    · rw [hwaiting, if_neg (mt fate_eq_queued_iff.1 hroom),
        List.append_nil]

/-- A client that follows the events has a reservation, which its teardown
cancels when the name is registered again. If its mailbox has room for one
push more, the farewell is put into it, and the event of the cancellation
is not; if not, nothing is. -/
theorem mailbox_life_replaced :
    let noon : Moment := ⟨0, ⟨2024, 1, 1, 12, 0, 0, 0⟩⟩
    let any : ResourcePattern := ⟨everything, everything, everything, none⟩
    let hub (capacity : Nat) := (Hub.new {}).after
      [.register "alice" .client capacity noon,
        .call 1 (.subscribe none) noon,
        .call 1 (.createReservation [any] 0) noon]
    let again : Input := .register "alice" .client 4 noon
    (hub 3).mailboxes.hasBox 1 = true
      ∧ (hub 3).state.eventNumber = 1
      ∧ ((hub 3).step again).state.eventNumber = 2
      ∧ ((hub 3).step again).mailboxes.waiting 1
        = (hub 3).mailboxes.waiting 1
          ++ [.shutdown "replaced by a new session"]
      ∧ (hub 2).mailboxes.hasBox 1 = true
      ∧ ((hub 2).step again).mailboxes.waiting 1
        = (hub 2).mailboxes.waiting 1 := by
  intro noon any hub again
  obtain ⟨hbox, hgone, hroom, hbefore, hafter⟩ :
      (hub 3).mailboxes.hasBox 1 = true
        ∧ ((hub 3).step again).state.isLive 1 = false
        ∧ (hub 3).mailboxes.fate 1 = .queued
        ∧ (hub 3).state.eventNumber = 1
        ∧ ((hub 3).step again).state.eventNumber = 2 := by
    decide +kernel
  obtain ⟨hbox', hgone', hfull⟩ :
      (hub 2).mailboxes.hasBox 1 = true
        ∧ ((hub 2).step again).state.isLive 1 = false
        ∧ (hub 2).mailboxes.fate 1 = .full := by
    decide +kernel
  have hnone : ¬ (hub 2).mailboxes.fate 1 = .queued := by
    rw [hfull]
    exact nofun
  obtain ⟨-, -, hlife⟩ := mailbox_life {} _
  obtain ⟨-, hqueued, -⟩ := hlife again 1 _ rfl hbox hgone
  obtain ⟨-, -, hends⟩ := mailbox_life {} _
  obtain ⟨-, -, hdropped, -⟩ := hends again 1 _ rfl hbox' hgone'
  exact ⟨hbox, hbefore, hafter, hqueued (fate_eq_queued_iff.1 hroom),
    hbox', hdropped (mt fate_eq_queued_iff.2 hnone)⟩

end Hub

end LabLease.Coordinator
