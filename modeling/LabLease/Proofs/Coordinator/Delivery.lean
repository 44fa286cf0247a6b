/-
What the end of a turn hands out: to whoever is told that it has ended a
farewell and nothing after it, and to every other subscriber the events
of the turn in one batch.

Both loops push once in every turn and to one session only. So what one
session gets is seen by looking at its own turn of a loop; the turns
before and after it leave the session alone.
-/
import LabLease.Coordinator.Hub
import LabLease.Proofs.Coordinator.Mailbox

namespace LabLease.Coordinator

/-- Some events as they are sent, in one batch or in none. -/
def batch (events : List Event) : List (List Event) :=
  if events = [] then [] else [events]

/-- A batch loses no event. -/
@[simp] theorem flatten_batch (events : List Event) :
    (batch events).flatten = events := by
  unfold batch
  split
  · next h => rw [h]; rfl
  · exact List.append_nil events

/-- Nobody is sent an empty batch. -/
theorem ne_nil_of_mem_batch {events b : List Event}
    (h : b ∈ batch events) : b ≠ [] := by
  unfold batch at h
  split at h
  · cases h
  · next hne =>
    rw [List.mem_singleton.1 h]
    exact hne

/-- The pushes are nothing or a farewell. -/
def Farewell (pushes : List Push) : Prop :=
  pushes = [] ∨ ∃ reason, pushes = [.shutdown reason]

/-- A replay is sent like the events of a turn. -/
theorem State.Start.push?_replay (events : List Event) :
    (State.Start.replay events).push?.toList
      = (batch events).map Push.events := by
  cases events <;> rfl

namespace Mailboxes

variable {m m' : Mailboxes} {session : SessionId} {α : Type}
  {new asks : SessionId → Prop}

-- ================================================================== loops

/-- The posts of a loop that pushes once in every turn. -/
def postsOf (mail : α → SessionId × Push) (f : Mailboxes → α → Mailboxes) :
    Mailboxes → List α → List Post
  | _, [] => []
  | m, a :: as =>
    ⟨(mail a).1, (mail a).2, m.fate (mail a).1⟩
      :: postsOf mail f (f m a) as

variable {mail : α → SessionId × Push} {f : Mailboxes → α → Mailboxes}

/-- A loop goes on from the mailboxes that it has come to. -/
theorem postsOf_append (m : Mailboxes) (as bs : List α) :
    postsOf mail f m (as ++ bs)
      = postsOf mail f m as ++ postsOf mail f (as.foldl f m) bs := by
  induction as generalizing m with
  | nil => rfl
  | cons a as ih => exact congrArg (_ :: ·) (ih (f m a))

/-- Every post is for one of those in the list. -/
theorem session_of_mem_postsOf {as : List α} {x : Post}
    (h : x ∈ postsOf mail f m as) : ∃ a ∈ as, x.session = (mail a).1 := by
  induction as generalizing m with
  | nil => cases h
  | cons a as ih =>
    rcases List.mem_cons.1 h with rfl | h
    · exact ⟨a, List.mem_cons_self, rfl⟩
    · obtain ⟨b, hb, heq⟩ := ih h
      exact ⟨b, List.mem_cons_of_mem a hb, heq⟩

/-- What a loop over others queues for a session. -/
theorem queuedFor_postsOf_of_notMem {as : List α}
    (h : ∀ a ∈ as, (mail a).1 ≠ session) :
    queuedFor session (postsOf mail f m as) = [] := by
  refine queuedFor_eq_nil fun x hx hs => ?_
  obtain ⟨a, ha, heq⟩ := session_of_mem_postsOf hx
  exact absurd (heq.symm.trans hs) (h a ha)

/-- A loop over different sessions sends each of them one push. -/
theorem postsOf_once {as : List α} (h : (as.map fun a => (mail a).1).Nodup)
    (m : Mailboxes) : (postsOf mail f m as).Pairwise Post.Once := by
  induction as generalizing m with
  | nil => exact .nil
  | cons a as ih =>
    obtain ⟨hnot, hrest⟩ := List.nodup_cons.1 h
    refine .cons (fun y hy hs => ?_) (ih hrest _)
    obtain ⟨b, hb, heq⟩ := session_of_mem_postsOf hy
    exact absurd (List.mem_map.2 ⟨b, hb, (hs.trans heq).symm⟩) hnot

/-- A loop over others leaves a session alone. -/
theorem Same.foldl {as : List α}
    (hf : ∀ a ∈ as, ∀ m, Same session m (f m a)) (m : Mailboxes) :
    Same session m (as.foldl f m) := by
  induction as generalizing m with
  | nil => exact .refl session m
  | cons a as ih =>
    exact (hf a List.mem_cons_self m).trans
      (ih (fun b hb => hf b (List.mem_cons_of_mem a hb)) _)

/-- A loop of jobs is a run of jobs with the posts of all of them. -/
theorem Jobs.loop
    (hf : ∀ m a, Jobs new asks m
      [⟨(mail a).1, (mail a).2, m.fate (mail a).1⟩] (f m a))
    (m : Mailboxes) (as : List α) :
    Jobs new asks m (postsOf mail f m as) (as.foldl f m) := by
  induction as generalizing m with
  | nil => exact .refl
  | cons a as ih => exact (hf m a).trans (ih (f m a))

/-- Detaching sends nothing. -/
theorem Jobs.detachAll (m : Mailboxes) (ids : List SessionId) :
    Jobs new asks m [] (ids.foldl detach m) := by
  induction ids generalizing m with
  | nil => exact .refl
  | cons id ids ih => exact (Jobs.single (.detach id)).trans (ih _)

-- ============================================================== farewells

/-- The posts that tell sessions that they have ended. -/
def farewells (m : Mailboxes) (notices : List (SessionId × String)) :
    List Post :=
  postsOf (fun n => (n.1, .shutdown n.2)) Hub.sayGoodbye m notices

/-- A farewell is a push and a detaching. -/
theorem sayGoodbye_jobs (m : Mailboxes) (n : SessionId × String) :
    Jobs new asks m [⟨n.1, .shutdown n.2, m.fate n.1⟩]
      (Hub.sayGoodbye m n) :=
  (Jobs.single (.push n.1 (.shutdown n.2))).tail (.detach n.1)

/-- All farewells together are a run of jobs. -/
theorem farewells_jobs (m : Mailboxes)
    (notices : List (SessionId × String)) :
    Jobs new asks m (m.farewells notices)
      (notices.foldl Hub.sayGoodbye m) :=
  .loop sayGoodbye_jobs m notices

/-- A farewell is for one session only. -/
theorem sayGoodbye_same {n : SessionId × String} (hne : n.1 ≠ session)
    (m : Mailboxes) : Same session m (Hub.sayGoodbye m n) :=
  (push_same m hne _).trans (detach_same _ hne)

/-- Whoever is told that it has ended gets nothing else, and has no
mailbox any more. -/
theorem farewells_of_mem {notices : List (SessionId × String)}
    (h : session ∈ notices.map (·.1)) :
    (notices.foldl Hub.sayGoodbye m).hasBox session = false
      ∧ Farewell (queuedFor session (m.farewells notices)) := by
  induction notices generalizing m with
  | nil => cases h
  | cons n notices ih =>
    unfold farewells postsOf
    rw [queuedFor_cons]
    by_cases hn : n.1 = session
    · subst hn
      have hrest : Jobs (fun _ => False) (fun _ => False) _ _ _ :=
        farewells_jobs (Hub.sayGoodbye m n) notices
      obtain ⟨hno, hlost⟩ := hrest.closed not_false
        (detach_hasBox _ n.1)
      have hnone : queuedFor n.1 ((Hub.sayGoodbye m n).farewells notices)
          = [] := queuedFor_of_lost hlost
      refine ⟨hno, ?_⟩
      rw [show postsOf _ Hub.sayGoodbye _ notices
        = (Hub.sayGoodbye m n).farewells notices from rfl, hnone]
      split
      · exact Or.inr ⟨n.2, rfl⟩
      · exact Or.inl rfl
    · rw [if_neg fun hand => hn hand.1]
      exact ih ((List.mem_cons.1 h).resolve_left (Ne.symm hn))

/-- Even if a session is told twice that it has ended, the second push is
lost. -/
theorem farewells_once (m : Mailboxes)
    (notices : List (SessionId × String)) :
    (m.farewells notices).Pairwise Post.Once := by
  induction notices generalizing m with
  | nil => exact .nil
  | cons n notices ih =>
    refine .cons (fun y hy hs _ => ?_) (ih (Hub.sayGoodbye m n))
    have hrest : Jobs (fun _ => False) (fun _ => False) _ _ _ :=
      farewells_jobs (Hub.sayGoodbye m n) notices
    exact (hrest.closed not_false (detach_hasBox _ n.1)).2 y hy hs.symm

-- ================================================================= events

/-- The posts that send events to all subscribers. -/
def mailing (m : Mailboxes) (events : List Event) : List Post :=
  if events.isEmpty then []
  else postsOf (fun id => (id, .events events)) (sendTo events) m
    m.subscribed.keys

/-- Whether a push has succeeded changes nothing but the count of what
was sent. -/
theorem sendTo_eq (events : List Event) (m : Mailboxes) (id : SessionId) :
    ∃ sent, sendTo events m id
      = { (m.push id (.events events)).2 with eventsSent := sent } := by
  unfold sendTo
  rcases h : m.push id (.events events) with ⟨ok, m'⟩
  cases ok with
  | true => exact ⟨_, rfl⟩
  | false => exact ⟨m'.eventsSent, rfl⟩

/-- Sending events to one session is a push. -/
theorem sendTo_jobs (events : List Event) (m : Mailboxes)
    (id : SessionId) :
    Jobs new asks m [⟨id, .events events, m.fate id⟩]
      (sendTo events m id) := by
  obtain ⟨sent, heq⟩ := sendTo_eq events m id
  rw [heq]
  exact (Jobs.single (.push id (.events events))).tail (.count sent _)

/-- And leaves all others alone. -/
theorem sendTo_same (events : List Event) {id : SessionId}
    (hne : id ≠ session) (m : Mailboxes) :
    Same session m (sendTo events m id) := by
  obtain ⟨sent, heq⟩ := sendTo_eq events m id
  rw [heq]
  have hsame := push_same m hne (.events events)
  exact ⟨hsame.box, hsame.subscribed⟩

/-- Sending them to everybody is a run of jobs. -/
theorem mailing_jobs (m : Mailboxes) (events : List Event) :
    Jobs new asks m (m.mailing events) (m.broadcast events) := by
  unfold mailing broadcast
  split
  · exact .refl
  · exact .loop (sendTo_jobs events) m _

/-- A session is in the list of those that follow once. -/
theorem mailing_once (m : Mailboxes) (events : List Event) :
    (m.mailing events).Pairwise Post.Once := by
  unfold mailing
  split
  · exact .nil
  · refine postsOf_once ?_ m
    rw [List.map_id']
    exact m.subscribed.nodup_keys

/-- One of the posts is for a subscriber, if there are any events. -/
theorem mailing_of_subscribed {events : List Event}
    (hsub : m.isSubscribed session = true) (hne : events ≠ []) :
    ∃ pre post, m.mailing events
        = pre ++ ⟨session, .events events, m.fate session⟩ :: post
      ∧ queuedFor session pre = [] ∧ queuedFor session post = [] := by
  obtain ⟨before, after, hkeys⟩ :=
    List.append_of_mem (Table.mem_keys_iff_contains.2 hsub)
  -- each key is served once, so the others leave the session alone
  have hnd := m.subscribed.nodup_keys
  rw [hkeys, List.nodup_append] at hnd
  obtain ⟨-, hafter, hapart⟩ := hnd
  have hbefore : ∀ id ∈ before, id ≠ session := fun id hid =>
    hapart id hid session List.mem_cons_self
  have hrest : ∀ id ∈ after, id ≠ session := fun id hid heq =>
    (List.nodup_cons.1 hafter).1 (heq ▸ hid)
  have hsame : Same session m (before.foldl (sendTo events) m) :=
    .foldl (fun id hid => sendTo_same _ (hbefore id hid)) m
  let mail (id : SessionId) : SessionId × Push := (id, .events events)
  have hsplit : m.mailing events
      = postsOf mail (sendTo events) m before
        ++ ⟨session, .events events, m.fate session⟩
          :: postsOf mail (sendTo events)
            (sendTo events (before.foldl (sendTo events) m) session)
            after := by
    unfold mailing
    rw [if_neg (mt List.isEmpty_iff.1 hne), hkeys, postsOf_append,
      postsOf, hsame.fate]
  exact ⟨_, _, hsplit, queuedFor_postsOf_of_notMem hbefore,
    queuedFor_postsOf_of_notMem hrest⟩

/-- A subscriber gets the events in one batch, if its mailbox has room,
and has no mailbox any more if not. -/
theorem queuedFor_mailing {events : List Event}
    (hsub : m.isSubscribed session = true) :
    (queuedFor session (m.mailing events)
        = (batch events).map Push.events)
      ∨ (m.broadcast events).hasBox session = false
        ∧ queuedFor session (m.mailing events) = [] := by
  by_cases hne : events = []
  · subst hne
    exact Or.inl rfl
  · obtain ⟨pre, post, hposts, hpre, hpost⟩ :=
      mailing_of_subscribed hsub hne
    rw [hposts, queuedFor_append, queuedFor_cons, hpre, hpost]
    by_cases hroom : m.fate session = .queued
    · refine Or.inl ?_
      unfold batch
      rw [if_pos ⟨rfl, hroom⟩, if_neg hne]
      rfl
    · have hjobs : Jobs (fun _ => False) (fun _ => False) m _ _ :=
        mailing_jobs m events
      have hx : ⟨session, .events events, m.fate session⟩
          ∈ m.mailing events :=
        hposts ▸ List.mem_append_right pre List.mem_cons_self
      refine Or.inr ⟨hjobs.failed not_false hx rfl hroom, ?_⟩
      rw [if_neg fun hand => hroom hand.2]
      rfl

end Mailboxes

namespace Hub

open Mailboxes

/-- The posts at the end of a turn. -/
def delivery (h : Hub) : List Post :=
  h.mailboxes.farewells h.state.notices
    ++ (h.state.notices.foldl sayGoodbye h.mailboxes).mailing
      h.state.pending

variable {h : Hub} {session : SessionId} {new asks : SessionId → Prop}

/-- The end of a turn is farewells, events and detaching, in this order. -/
theorem deliver_jobs (h : Hub) :
    Jobs new asks h.mailboxes h.delivery h.deliver.mailboxes := by
  have hrun : Jobs new asks h.mailboxes h.delivery _ :=
    (farewells_jobs _ _).trans (mailing_jobs _ _)
  have hgone : Jobs new asks h.mailboxes (h.delivery ++ [])
      h.deliver.mailboxes := hrun.trans (.detachAll _ _)
  rw [List.append_nil] at hgone
  exact hgone

/-- A turn in which nothing has happened sends nothing. -/
theorem delivery_of_quiet (hn : h.state.notices = [])
    (hp : h.state.pending = []) : h.delivery = [] := by
  unfold delivery
  rw [hn, hp]
  rfl

/-- At the end of a turn a session is sent one push at most. -/
theorem delivery_once (h : Hub) : h.delivery.Pairwise Post.Once := by
  refine List.pairwise_append.2
    ⟨farewells_once _ _, mailing_once _ _, fun x hx y hy hs _ => ?_⟩
  obtain ⟨n, hn, heq⟩ := session_of_mem_postsOf hx
  have hmem : x.session ∈ h.state.notices.map (·.1) :=
    List.mem_map.2 ⟨n, hn, heq.symm⟩
  have hjobs : Jobs (fun _ => False) (fun _ => False) _ _ _ :=
    mailing_jobs (h.state.notices.foldl sayGoodbye h.mailboxes)
      h.state.pending
  exact (hjobs.closed not_false (farewells_of_mem hmem).1).2 y hy hs.symm

/-- What a subscriber gets at the end of a turn: all events of the turn
if it keeps its mailbox, and otherwise these, a farewell or nothing. -/
theorem queuedFor_delivery
    (hsub : h.mailboxes.isSubscribed session = true) :
    (h.deliver.mailboxes.hasBox session = true →
        queuedFor session h.delivery
          = (batch h.state.pending).map Push.events)
      ∧ (queuedFor session h.delivery
          = (batch h.state.pending).map Push.events
        ∨ Farewell (queuedFor session h.delivery)) := by
  let told := h.state.notices.foldl sayGoodbye h.mailboxes
  let sent := told.broadcast h.state.pending
  have hjobs : Jobs (fun _ => False) (fun _ => False) told
      (told.mailing h.state.pending) sent := mailing_jobs _ _
  have hgone : Jobs (fun _ => False) (fun _ => False) sent []
      h.deliver.mailboxes := .detachAll _ _
  unfold delivery
  rw [queuedFor_append]
  by_cases hmem : session ∈ h.state.notices.map (·.1)
  · obtain ⟨hno, hbye⟩ := farewells_of_mem (m := h.mailboxes) hmem
    obtain ⟨hno', hlost⟩ := hjobs.closed not_false hno
    rw [queuedFor_of_lost hlost, List.append_nil]
    refine ⟨fun hend => ?_, Or.inr hbye⟩
    rw [(hgone.closed not_false hno').1] at hend
    cases hend
  · have hother : ∀ n ∈ h.state.notices, n.1 ≠ session :=
      fun n hn heq => hmem (List.mem_map.2 ⟨n, hn, heq⟩)
    have hsame : Same session h.mailboxes told :=
      .foldl (fun n hn => sayGoodbye_same (hother n hn)) _
    rw [show queuedFor session (h.mailboxes.farewells h.state.notices) = []
      from queuedFor_postsOf_of_notMem hother, List.nil_append]
    rcases queuedFor_mailing (hsame.subscribed.trans hsub) with
      hall | ⟨hno, hnone⟩
    · exact ⟨fun _ => hall, Or.inl hall⟩
    · refine ⟨fun hend => ?_, Or.inr (Or.inl hnone)⟩
      rw [(hgone.closed not_false hno).1] at hend
      cases hend

end Hub

end LabLease.Coordinator
