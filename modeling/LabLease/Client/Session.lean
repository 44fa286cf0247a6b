/-
A client's session and its upkeep. A connection is opened, the client
registers on it and subscribes; from then on its replica follows the
events. When the connection is lost, everything is done anew, from the
last event that was applied, as often as the settings allow.
-/
import LabLease.Client.Agent
import LabLease.Client.Exchange

namespace LabLease.Client

open Program (Effect Occurrence)

/-- How far a session has come. -/
inductive Stage where
  /-- A connection is being opened; it is given up at some instant. -/
  | connecting (deadline : Nat)
  | registering (request : Nat)
  /-- It subscribes from the event that was applied last. -/
  | subscribing (request : Nat) (lastEvent : Option Nat)
  /-- It is kept alive; the next heartbeat has its time. -/
  | established (heartbeat : Nat)
  /-- It waits until it connects anew. -/
  | pausing (resume : Nat)
  | ended
deriving DecidableEq

/-- What comes of a session. -/
inductive Notice where
  | effect (e : Effect)
  /-- Requests can be sent from now on. -/
  | established
  /-- It could not be established in the first place. -/
  | failed (f : Failure)
  | answer (request : Nat) (result : Except Refusal Reply)
  | update (u : Update)

structure Session where
  settings : Settings
  stage : Stage
  exchange : Exchange
  replica : Replica := .empty
  /-- Whether it has been established before. -/
  entered : Bool := false
  /-- The waits before the attempts that are left. -/
  backoffs : List Nat := []

namespace Session

abbrev Step := List Notice × Session

-- ================================================================ steps

/-- Goes on with what follows a step. -/
def andThen (r : Step) (next : Session → Step) : Step :=
  let (more, s) := next r.2
  (r.1 ++ more, s)

/-- Opens a connection with a number of its own. -/
def connect (s : Session) (peer : Nat) (now : Moment) : Step :=
  let timeout := s.settings.requestTimeout
  ([.effect (.connect peer s.settings.coordinator)],
    { s with
      stage := .connecting (now.ticks + timeout)
      exchange := { peer, timeout } })

def start (settings : Settings) (now : Moment) : Step :=
  connect
    { settings, stage := .ended, exchange := { peer := 0, timeout := 0 } }
    1 now

/-- Waits before the next attempt, if there is one left. -/
def pause (s : Session) (now : Moment) : Step :=
  match s.backoffs with
  | wait :: rest =>
    ([], { s with stage := .pausing (now.ticks + wait), backoffs := rest })
  | [] => ([], { s with stage := .ended })

/-- An attempt has failed. The first one is the last too. -/
def fail (s : Session) (now : Moment) (f : Failure) : Step :=
  andThen ([.effect (.hangUp s.exchange.peer)], s) fun s =>
    if s.entered then s.pause now
    else ([.failed f], { s with stage := .ended })

/-- The connection is gone, and with it the requests under way. -/
def lose (s : Session) (now : Moment) : Step :=
  match s.stage with
  | .established _ =>
    let lost := s.exchange.link.lost.map fun id =>
      Notice.answer id (.error .closed)
    andThen (.effect (.hangUp s.exchange.peer) :: lost,
      { s with backoffs := s.settings.backoffs }) (pause · now)
  | .registering _ =>
    s.fail now ((Failure.ofRefusal .closed).during "Failed to register client")
  | .subscribing .. =>
    s.fail now ((Failure.ofRefusal .closed).during "Failed to subscribe")
  | _ => ([], s)

/-- Sends a request, if the session is established. -/
def ask (s : Session) (op : Operation) (now : Moment) :
    Option (Nat × Effect × Session) :=
  match s.stage with
  | .established _ =>
    let (id, effect, exchange) := s.exchange.ask op now
    some (id, effect, { s with exchange })
  | _ => none

-- ============================================================== arrivals

/-- Sends a request on the way to being established. -/
def proceed (s : Session) (op : Operation) (now : Moment)
    (stage : Nat → Stage) : Step :=
  let (id, effect, exchange) := s.exchange.ask op now
  ([.effect effect], { s with exchange, stage := stage id })

/-- Takes the answer to a request. -/
def takeAnswer (s : Session) (now : Moment) (id : Nat)
    (result : Except Refusal Reply) : Step :=
  match s.stage with
  | .registering request =>
    if id ≠ request then ([], s)
    else match result with
      | .ok (.registered ..) =>
        let last := s.replica.lastEvent
        s.proceed (.subscribe last) now (.subscribing · last)
      | .ok _ => s.fail now (unexpected.during "Failed to register client")
      | .error e =>
        s.fail now
          ((Failure.ofRefusal e).during "Failed to register client")
  | .subscribing request last =>
    if id ≠ request then ([], s)
    else match result with
      | .ok (.subscribed ..) =>
        let notice := if s.entered then .update (.reconnected last)
          else .established
        let heartbeat := now.ticks + s.settings.heartbeatInterval
        ([notice],
          { s with stage := .established heartbeat, entered := true })
      | .ok _ => s.fail now (unexpected.during "Failed to subscribe")
      | .error e =>
        s.fail now ((Failure.ofRefusal e).during "Failed to subscribe")
  | _ => ([.answer id result], s)

/-- Takes a push. What a gap has swallowed is asked for again. -/
def takePush (s : Session) (now : Moment) (p : Push) : Step :=
  let (reaction, replica) := s.replica.takePush (some p)
  let s := { s with replica }
  match reaction with
  | .nothing => ([], s)
  | .tell update => ([.update update], s)
  | .resubscribe last =>
    let (_, effect, exchange) := s.exchange.ask (.subscribe (some last)) now
    ([.effect effect], { s with exchange })
  | .reconnect _ => s.lose now

/-- Whether lines are taken. -/
def isListening (s : Session) : Bool :=
  match s.stage with
  | .registering _ | .subscribing .. | .established _ => true
  | _ => false

def takeArrival (now : Moment) (r : Step) (a : Arrival) : Step :=
  andThen r fun s =>
    if !s.isListening then ([], s)
    else match a with
      | .answer id _ result => s.takeAnswer now id result
      | .push p => s.takePush now p
      | .ignored => ([], s)

-- ================================================================= time

/-- Gives up the answers that are overdue. -/
def expire (s : Session) (now : Moment) : Step :=
  let (overdue, exchange) := s.exchange.expire now
  overdue.foldl (fun r id =>
    andThen r fun s => s.takeAnswer now id (.error .closed))
    ([], { s with exchange })

/-- Does what has come due. -/
def wake (s : Session) (now : Moment) : Step :=
  match s.stage with
  | .connecting deadline =>
    if now.ticks < deadline then ([], s)
    else
      let late := Failure.of "deadline has elapsed"
      s.fail now (late.during "Connection timeout")
  | .pausing resume =>
    if now.ticks < resume then ([], s)
    else s.connect (s.exchange.peer + 1) now
  | .established heartbeat =>
    if now.ticks < heartbeat then ([], s)
    else
      let (_, effect, exchange) := s.exchange.ask .heartbeat now
      let heartbeat := now.ticks + s.settings.heartbeatInterval
      ([.effect effect],
        { s with exchange, stage := .established heartbeat })
  | _ => ([], s)

/-- Whether the connection of a number is being opened. -/
def isOpening (s : Session) (peer : Nat) : Bool :=
  match s.stage with
  | .connecting _ => peer = s.exchange.peer
  | _ => false

/-- What a session makes of what happens. Only the connection in use
counts. -/
def step (s : Session) (now : Moment) (o : Occurrence) : Step :=
  match o with
  | .connected peer =>
    if !s.isOpening peer then ([], s)
    else
      let op := Operation.register s.settings.name .client
      s.proceed op now .registering
  | .notConnected peer cause =>
    if !s.isOpening peer then ([], s)
    else
      let address := s.settings.coordinator
      let text := s!"Failed to connect to coordinator at {address}"
      s.fail now ((Failure.of cause).during text)
  | .received peer octets =>
    if peer ≠ s.exchange.peer then ([], s)
    else
      let (arrivals, exchange) := s.exchange.receive octets
      arrivals.foldl (takeArrival now) ([], { s with exchange })
  | .ended peer =>
    if peer ≠ s.exchange.peer then ([], s) else s.lose now
  | .timePassed => andThen (s.expire now) (wake · now)
  | _ => ([], s)

end Session

end LabLease.Client
