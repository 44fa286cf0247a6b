/-
The coordinator as its peers meet it: the state, a mailbox per session,
and turns. Every turn takes one message, or sweeps, and then hands out
what it has produced: who was ended is told so and gets nothing more, all
subscribers get the events, and sessions that are over lose their
mailboxes.
-/
import LabLease.Coordinator.Action
import LabLease.Coordinator.Mailbox
import LabLease.Coordinator.Sweep

namespace LabLease.Coordinator

/-- What is sent to begin a subscription, unless nothing was missed. -/
def State.Start.push? : State.Start → Option Push
  | .replay [] => none
  | .replay events => some (.events events)
  | .resync snapshot => some (.resync snapshot)

def State.Start.isResync : State.Start → Bool
  | .replay _ => false
  | .resync _ => true

structure Hub where
  state : State
  mailboxes : Mailboxes
  messagesReceived : Nat
  /-- Whether it still takes messages. -/
  running : Bool

namespace Hub

def new (settings : Settings) : Hub := ⟨.new settings, .empty, 0, true⟩

/-- How many pushes may wait for a session. -/
def mailboxCapacity (h : Hub) : Nat := max h.state.settings.sessionQueue 1

-- =========================================================== handing out

/-- Tells a session that it has ended. -/
def sayGoodbye (m : Mailboxes) (notice : SessionId × String) :
    Mailboxes :=
  (m.push notice.1 (.shutdown notice.2)).2.detach notice.1

/-- Hands out what a turn has produced. -/
def deliver (h : Hub) : Hub :=
  let m := h.state.notices.foldl sayGoodbye h.mailboxes
  let m := m.broadcast h.state.pending
  let gone := m.holders.filter fun id => !h.state.isLive id
  { h with
    state := { h.state with notices := [], pending := [] }
    mailboxes := gone.foldl Mailboxes.detach m }

-- ================================================================ turns

/-- A turn for one message, as long as messages are taken. -/
def turn {α : Type} (h : Hub) (act : Hub → Except Refusal α × Hub) :
    Except Refusal α × Hub :=
  if h.running then
    let (result, h) := act { h with messagesReceived := h.messagesReceived + 1 }
    (result, h.deliver)
  else (.error .closed, h)

/-- Does something to the state. -/
def run {α : Type} (h : Hub) (a : Action α) : Except Refusal α × Hub :=
  let (result, state) := a.apply h.state
  (result, { h with state })

/-- Registers a peer, whose mailbox has room for so many pushes. The
answer says which event was the last when the session began. -/
def register (h : Hub) (name : String) (role : Role) (capacity : Nat)
    (now : Moment) : Except Refusal (SessionId × Nat) × Hub :=
  h.turn fun h =>
    match h.run (Action.register name role now) with
    | (.ok id, h) =>
      (.ok (id, h.state.eventNumber),
        { h with mailboxes := h.mailboxes.add id capacity })
    | (.error e, h) => (.error e, h)

/-- Starts the events of a session, or starts them anew. What the session
has missed goes first, so that the events of later turns follow on it. -/
def subscribe (h : Hub) (session : SessionId) (lastEvent : Option Nat)
    (now : Moment) : Except Refusal Reply × Hub :=
  match h.run (Action.heartbeat session now) with
  | (.error e, h) => (.error e, h)
  | (.ok (), h) =>
    if !h.mailboxes.hasBox session then
      let text := s!"session {SessionId.label session} has no mailbox"
      (.error (.invalidRequest text), h)
    else
      let start := h.state.subscribe lastEvent
      let (sent, mailboxes) := match start.push? with
        | some p => h.mailboxes.push session p
        | none => (true, h.mailboxes)
      if sent then
        (.ok (.subscribed start.isResync h.state.eventNumber),
          { h with mailboxes := mailboxes.subscribe session })
      else (.error .closed, { h with mailboxes })

def unsubscribe (h : Hub) (session : SessionId) (now : Moment) :
    Except Refusal Reply × Hub :=
  match h.run (Action.heartbeat session now) with
  | (.error e, h) => (.error e, h)
  | (.ok (), h) =>
    (.ok .ack, { h with mailboxes := h.mailboxes.unsubscribe session })

/-- Does what a session asks for. -/
def call (h : Hub) (session : SessionId) (op : Operation)
    (now : Moment) : Except Refusal Reply × Hub :=
  h.turn fun h =>
    match op with
    | .subscribe lastEvent => h.subscribe session lastEvent now
    | .unsubscribe => h.unsubscribe session now
    | op => h.run (Action.execute session op now)

/-- Takes note that the connection of a session is gone. -/
def connectionClosed (h : Hub) (session : SessionId) (now : Moment) :
    Except Refusal Unit × Hub :=
  h.turn fun h =>
    let h := (h.run (Action.disconnect session now)).2
    (.ok (), { h with mailboxes := h.mailboxes.detach session })

def metrics (h : Hub) : Except Refusal Metrics × Hub :=
  h.turn fun h =>
    (.ok { h.state.metrics with
      subscribers := h.mailboxes.subscribed.size
      messagesReceived := h.messagesReceived
      eventsSent := h.mailboxes.eventsSent
      droppedSubscribers := h.mailboxes.dropped }, h)

/-- A turn for the sweep. -/
def sweep (h : Hub) (now : Moment) : Hub :=
  if h.running then { h with state := h.state.sweep now }.deliver else h

/-- Tells everybody that this is the end and takes no more messages. -/
def shutdown (h : Hub) : Except Refusal Unit × Hub :=
  if h.running then
    let notices := h.mailboxes.holders.map fun id =>
      (id, "coordinator shutting down")
    (.ok (), { h with
      mailboxes := notices.foldl sayGoodbye h.mailboxes
      messagesReceived := h.messagesReceived + 1
      running := false })
  else (.error .closed, h)

-- ============================================================ the peers

def take (h : Hub) (session : SessionId) : Mailboxes.Delivery × Hub :=
  let (delivery, mailboxes) := h.mailboxes.take session
  (delivery, { h with mailboxes })

def abandon (h : Hub) (session : SessionId) : Hub :=
  { h with mailboxes := h.mailboxes.abandon session }

end Hub

end LabLease.Coordinator
