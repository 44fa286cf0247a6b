/-
The program that runs an exporter, until it is interrupted. It publishes
what its settings list, and does so anew whenever its session has ended.
-/
import LabLease.Client.Exchange
import LabLease.Exporter.Session

namespace LabLease.Program

open Client (Arrival Exchange)

/-- How far an exporter has come. -/
inductive ExporterStage where
  /-- A connection is being opened; it is given up at some instant. -/
  | connecting (deadline : Nat)
  | registering (request : Nat)
  | publishing (request : Nat)
  /-- All is published; the next heartbeat has its time, and its answer
  may still be on its way. -/
  | serving (heartbeat : Nat) (sent : Option Nat)
  /-- It waits until it connects anew. -/
  | pausing (resume : Nat)
  /-- It waits for the answer to its good-bye. -/
  | leaving (request : Nat)
deriving DecidableEq

structure ExporterRun where
  settings : Exporter.Settings
  stage : ExporterStage
  exchange : Exchange
  /-- How long the next pause is. -/
  backoff : Nat
  /-- Whether it has been interrupted. -/
  stopping : Bool := false

namespace ExporterRun

abbrev Step := List Effect × ExporterRun

/-- Opens a connection with a number of its own. -/
def connect (r : ExporterRun) (peer : Nat) (now : Moment) : Step :=
  let timeout := r.settings.requestTimeout
  ([.connect peer r.settings.coordinator],
    { r with
      stage := .connecting (now.ticks + timeout)
      exchange := { peer, timeout } })

/-- What is said when an exporter starts. -/
def greeting (s : Exporter.Settings) : List Effect :=
  let count := s.resources.length
  let warning :=
    s!"warning: no resources configured for exporter '{s.name}'"
  let work := s!"publishing {count} resource(s) to {s.coordinator}"
  (if count = 0 then [.remark warning] else [])
    ++ [.print s!"Exporter {s.name} {work}"]

def start (settings : Exporter.Settings) (now : Moment) : Step :=
  let r : ExporterRun :=
    { settings, stage := .pausing now.ticks
      exchange := { peer := 0, timeout := 0 }
      backoff := settings.reconnectBackoff }
  let (effects, r) := r.connect 1 now
  (greeting settings ++ effects, r)

-- =============================================================== sessions

/-- A session has ended, or has not come about. -/
def pause (r : ExporterRun) (now : Moment) : Step :=
  let bye : List Effect := [.hangUp r.exchange.peer]
  if r.stopping then (bye ++ [.finish .success], r)
  else
    (bye,
      { r with
        stage := .pausing (now.ticks + r.backoff)
        backoff := r.settings.nextBackoff r.backoff })

/-- A session that was under way has been ended. -/
def lose (r : ExporterRun) (now : Moment) : Step :=
  { r with backoff := r.settings.reconnectBackoff }.pause now

/-- Sends a request and waits for its answer. -/
def ask (r : ExporterRun) (op : Operation) (now : Moment)
    (stage : Nat → ExporterStage) : Step :=
  let (id, effect, exchange) := r.exchange.ask op now
  ([effect], { r with exchange, stage := stage id })

/-- Goes on once all is published. -/
def serve (r : ExporterRun) (now : Moment) : Step :=
  if r.stopping then r.ask .disconnect now .leaving
  else
    let heartbeat := now.ticks + r.settings.heartbeatInterval
    ([], { r with stage := .serving heartbeat none })

/-- Takes the answer to a request. -/
def takeAnswer (r : ExporterRun) (now : Moment) (id : Nat)
    (result : Except Refusal Reply) : Step :=
  match r.stage, result with
  | .registering request, .ok (.registered ..) =>
    if id ≠ request then ([], r)
    else r.ask (.setResources r.settings.resources) now .publishing
  | .publishing request, .ok (.published _) =>
    if id ≠ request then ([], r) else r.serve now
  | .serving heartbeat (some request), .ok .ack =>
    if id ≠ request then ([], r)
    else ([], { r with stage := .serving heartbeat none })
  | .registering request, _ | .publishing request, _
  | .serving _ (some request), _ =>
    if id ≠ request then ([], r) else r.pause now
  | .leaving request, _ =>
    if id ≠ request then ([], r) else ([.finish .success], r)
  | _, _ => ([], r)

/-- Takes a push. All but the end of the session are nothing to an
exporter, and before its session is under way it finds out otherwise. -/
def takePush (r : ExporterRun) (now : Moment) : Push → Step
  | .shutdown _ =>
    match r.stage with
    | .serving .. => r.lose now
    | _ => ([], r)
  | _ => ([], r)

def takeArrival (now : Moment) (s : Step) (a : Arrival) : Step :=
  let (effects, r) := s
  let (more, r) := match a with
    | .answer id _ result => r.takeAnswer now id result
    | .push p => r.takePush now p
    | .ignored => ([], r)
  (effects ++ more, r)

-- ================================================================== time

/-- Gives up the answers that are overdue. -/
def expire (r : ExporterRun) (now : Moment) : Step :=
  let (overdue, exchange) := r.exchange.expire now
  overdue.foldl (fun (out, r) id =>
    let (effects, r) := r.takeAnswer now id (.error .closed)
    (out ++ effects, r)) ([], { r with exchange })

/-- Does what has come due. -/
def wake (r : ExporterRun) (now : Moment) : Step :=
  match r.stage with
  | .connecting deadline =>
    if now.ticks < deadline then ([], r) else r.pause now
  | .pausing resume =>
    if now.ticks < resume then ([], r)
    else r.connect (r.exchange.peer + 1) now
  | .serving heartbeat none =>
    if now.ticks < heartbeat then ([], r)
    else
      let next := now.ticks + r.settings.heartbeatInterval
      r.ask .heartbeat now fun id => .serving next (some id)
  | _ => ([], r)

/-- What an interrupt does: a session is left in due form, and one that
is about to begin as soon as it has begun. -/
def interrupt (r : ExporterRun) (now : Moment) : Step :=
  let r := { r with stopping := true }
  match r.stage with
  | .serving .. => r.ask .disconnect now .leaving
  | .pausing _ => ([.finish .success], r)
  | _ => ([], r)

/-- Whether the connection of a number is being opened. -/
def isOpening (r : ExporterRun) (peer : Nat) : Bool :=
  match r.stage with
  | .connecting _ => peer = r.exchange.peer
  | _ => false

/-- What an exporter makes of what happens. Only the connection in use
counts. -/
def step (r : ExporterRun) (now : Moment) (o : Occurrence) : Step :=
  match o with
  | .connected peer =>
    if !r.isOpening peer then ([], r)
    else
      let op := Operation.register r.settings.name .exporter
      r.ask op now .registering
  | .notConnected peer _ =>
    if r.isOpening peer then r.pause now else ([], r)
  | .received peer octets =>
    if peer ≠ r.exchange.peer then ([], r)
    else
      let (arrivals, exchange) := r.exchange.receive octets
      arrivals.foldl (takeArrival now) ([], { r with exchange })
  | .ended peer =>
    if peer ≠ r.exchange.peer then ([], r)
    else match r.stage with
      | .serving _ none => r.lose now
      | .serving _ (some _) | .registering _ | .publishing _ => r.pause now
      | .leaving _ => ([.finish .success], r)
      | _ => ([], r)
  | .timePassed =>
    let (effects, r) := r.expire now
    let (more, r) := r.wake now
    (effects ++ more, r)
  | .interrupted => r.interrupt now
  | _ => ([], r)

end ExporterRun

end LabLease.Program
