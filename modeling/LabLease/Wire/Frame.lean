/-
Requests and answers as JSON, and the frames that carry them: every frame
is one line of text.
-/
import LabLease.Wire.Lease
import LabLease.Lease.Request
import LabLease.Coordinator.Settings

namespace LabLease

open Json (Part Value)

/-- An object with a tag under `type`. -/
def typed (tag : String) (members : List (String × Value)) : Value :=
  .object (("type", .string tag) :: members)

-- =========================================================== operations

namespace Operation

/-- The names of all operations, in order. -/
def names : List String :=
  ["register", "heartbeat", "disconnect", "set-resources", "withdraw",
   "list-places", "list-resources", "list-reservations",
   "list-sessions", "create-place", "delete-place", "add-match",
   "delete-match", "set-tags", "set-comment", "acquire", "release",
   "create-reservation", "cancel-reservation", "poll-reservation",
   "subscribe", "unsubscribe", "snapshot"]

def members : Operation → List (String × Value)
  | .register name role => [("name", .string name), ("role", role.json)]
  | .setResources specs => [("resources", .list ResourceSpec.json specs)]
  | .withdraw ids => [("ids", .list ResourceId.json ids)]
  | .listPlaces filter => [("filter", filter.json)]
  | .listResources pattern =>
    [("pattern", .option ResourcePattern.json pattern)]
  | .createPlace name patterns tags =>
    [("name", .string name),
     ("matches", .list ResourcePattern.json patterns),
     ("tags", .table .string tags)]
  | .deletePlace name => [("name", .string name)]
  | .addMatch name pattern | .deleteMatch name pattern =>
    [("name", .string name), ("pattern", pattern.json)]
  | .setTags name tags =>
    [("name", .string name), ("tags", .table .string tags)]
  | .setComment name comment =>
    [("name", .string name), ("comment", .string comment)]
  | .acquire place => [("place", .string place)]
  | .release place force =>
    [("place", .string place), ("force", .bool force)]
  | .createReservation filters priority =>
    [("filters", .list ResourcePattern.json filters),
     ("priority", .int priority)]
  | .cancelReservation id | .pollReservation id => [("id", .string id)]
  | .subscribe lastEvent => [("last-event", .option .nat lastEvent)]
  | .heartbeat | .disconnect | .listReservations | .listSessions
  | .unsubscribe | .snapshot => []

def json (op : Operation) : Value := typed op.name op.members

def ofJson? (p : Part) : Option Operation := do
  match ← p.variant? "type" names with
  | ("register", p) =>
    let f ← p.fields? ["name", "role"]
    return .register (← f.required "name" Part.text?)
      (← f.required "role" Role.ofJson?)
  | ("heartbeat", p) => p.noFields?.map fun _ => .heartbeat
  | ("disconnect", p) => p.noFields?.map fun _ => .disconnect
  | ("set-resources", p) =>
    let f ← p.fields? ["resources"]
    return .setResources
      (← f.required "resources" (Part.list? ResourceSpec.ofJson?))
  | ("withdraw", p) =>
    let f ← p.fields? ["ids"]
    return .withdraw (← f.required "ids" (Part.list? ResourceId.ofJson?))
  | ("list-places", p) =>
    let f ← p.fields? ["filter"]
    return .listPlaces
      (← f.withDefault "filter" .everything PlaceFilter.ofJson?)
  | ("list-resources", p) =>
    let f ← p.fields? ["pattern"]
    return .listResources (← f.withDefault "pattern" none
      (Part.optional? ResourcePattern.ofJson?))
  | ("list-reservations", p) =>
    p.noFields?.map fun _ => .listReservations
  | ("list-sessions", p) => p.noFields?.map fun _ => .listSessions
  | ("create-place", p) =>
    let f ← p.fields? ["name", "matches", "tags"]
    return .createPlace (← f.required "name" Part.text?)
      (← f.withDefault "matches" [] (Part.list? ResourcePattern.ofJson?))
      (← f.withDefault "tags" .empty textTable?)
  | ("delete-place", p) =>
    let f ← p.fields? ["name"]
    return .deletePlace (← f.required "name" Part.text?)
  | ("add-match", p) =>
    let f ← p.fields? ["name", "pattern"]
    return .addMatch (← f.required "name" Part.text?)
      (← f.required "pattern" ResourcePattern.ofJson?)
  | ("delete-match", p) =>
    let f ← p.fields? ["name", "pattern"]
    return .deleteMatch (← f.required "name" Part.text?)
      (← f.required "pattern" ResourcePattern.ofJson?)
  | ("set-tags", p) =>
    let f ← p.fields? ["name", "tags"]
    return .setTags (← f.required "name" Part.text?)
      (← f.required "tags" textTable?)
  | ("set-comment", p) =>
    let f ← p.fields? ["name", "comment"]
    return .setComment (← f.required "name" Part.text?)
      (← f.required "comment" Part.text?)
  | ("acquire", p) =>
    let f ← p.fields? ["place"]
    return .acquire (← f.required "place" Part.text?)
  | ("release", p) =>
    let f ← p.fields? ["place", "force"]
    return .release (← f.required "place" Part.text?)
      (← f.withDefault "force" false Part.bool?)
  | ("create-reservation", p) =>
    let f ← p.fields? ["filters", "priority"]
    return .createReservation
      (← f.required "filters" (Part.list? ResourcePattern.ofJson?))
      (← f.withDefault "priority" 0 priority?)
  | ("cancel-reservation", p) =>
    let f ← p.fields? ["id"]
    return .cancelReservation (← f.required "id" Part.text?)
  | ("poll-reservation", p) =>
    let f ← p.fields? ["id"]
    return .pollReservation (← f.required "id" Part.text?)
  | ("subscribe", p) =>
    let f ← p.fields? ["last-event"]
    return .subscribe
      (← f.withDefault "last-event" none (Part.optional? Part.word?))
  | ("unsubscribe", p) => p.noFields?.map fun _ => .unsubscribe
  | ("snapshot", p) => p.noFields?.map fun _ => .snapshot
  | _ => none

end Operation

-- ============================================================== replies

namespace Reply

def json : Reply → Value
  | .ack => typed "ack" []
  | .registered session eventNumber =>
    typed "registered"
      [("session", .nat session), ("event-number", .nat eventNumber)]
  | .published changes => typed "published" [("changes", .nat changes)]
  | .places vs => typed "places" [("places", .list PlaceView.json vs)]
  | .place v => typed "place" [("view", v.json)]
  | .resources rs =>
    typed "resources" [("resources", .list Resource.json rs)]
  | .reservations rs =>
    typed "reservations" [("reservations", .list Reservation.json rs)]
  | .reservation r => typed "reservation" [("reservation", r.json)]
  | .sessions ss =>
    typed "sessions" [("sessions", .list SessionInfo.json ss)]
  | .subscribed resync eventNumber =>
    typed "subscribed"
      [("resync", .bool resync), ("event-number", .nat eventNumber)]
  | .snapshot s => typed "snapshot" [("snapshot", s.json)]

def names : List String :=
  ["ack", "registered", "published", "places", "place", "resources",
   "reservations", "reservation", "sessions", "subscribed", "snapshot"]

def ofJson? (p : Part) : Option Reply := do
  match ← p.variant? "type" names with
  | ("ack", p) => p.noFields?.map fun _ => .ack
  | ("registered", p) =>
    let f ← p.fields? ["session", "event-number"]
    return .registered (← f.required "session" Part.word?)
      (← f.required "event-number" Part.word?)
  | ("published", p) =>
    let f ← p.fields? ["changes"]
    return .published (← f.required "changes" Part.word?)
  | ("places", p) =>
    let f ← p.fields? ["places"]
    return .places
      (← f.required "places" (Part.list? PlaceView.ofJson?))
  | ("place", p) =>
    let f ← p.fields? ["view"]
    return .place (← f.required "view" PlaceView.ofJson?)
  | ("resources", p) =>
    let f ← p.fields? ["resources"]
    return .resources
      (← f.required "resources" (Part.list? Resource.ofJson?))
  | ("reservations", p) =>
    let f ← p.fields? ["reservations"]
    return .reservations
      (← f.required "reservations" (Part.list? Reservation.ofJson?))
  | ("reservation", p) =>
    let f ← p.fields? ["reservation"]
    return .reservation (← f.required "reservation" Reservation.ofJson?)
  | ("sessions", p) =>
    let f ← p.fields? ["sessions"]
    return .sessions
      (← f.required "sessions" (Part.list? SessionInfo.ofJson?))
  | ("subscribed", p) =>
    let f ← p.fields? ["resync", "event-number"]
    return .subscribed (← f.required "resync" Part.bool?)
      (← f.required "event-number" Part.word?)
  | ("snapshot", p) =>
    let f ← p.fields? ["snapshot"]
    return .snapshot (← f.required "snapshot" Snapshot.ofJson?)
  | _ => none

end Reply

-- =============================================================== frames

/-- A request on its way to the coordinator. -/
structure RequestFrame where
  id : Nat
  request : Operation
deriving DecidableEq

def RequestFrame.json (f : RequestFrame) : Value :=
  .object [("id", .nat f.id), ("request", f.request.json)]

def RequestFrame.ofJson? (p : Part) : Option RequestFrame := do
  let f ← p.fields? ["id", "request"]
  return {
    id := ← f.required "id" Part.word?
    request := ← f.required "request" Operation.ofJson? }

def RefusalKind.json (k : RefusalKind) : Value := .string k.word

def RefusalKind.ofJson? (p : Part) : Option RefusalKind :=
  p.choice? choices

/-- What the coordinator sends to a peer. -/
inductive ServerFrame where
  | response (id : Nat) (reply : Reply)
  | error (id : Nat) (kind : RefusalKind) (message : String)
  | eventBatch (events : List Event)
  | resync (snapshot : Snapshot)
  | shutdownRequest (reason : String)
deriving DecidableEq

namespace ServerFrame

/-- The frame that answers a request. -/
def ofResult (id : Nat) : Except Refusal Reply → ServerFrame
  | .ok reply => .response id reply
  | .error e => .error id e.kind e.detail

/-- The frame that carries a push. -/
def ofPush : Push → ServerFrame
  | .events events => .eventBatch events
  | .resync snapshot => .resync snapshot
  | .shutdown reason => .shutdownRequest reason

def json : ServerFrame → Value
  | .response id answer =>
    typed "response" [("id", .nat id), ("reply", answer.json)]
  | .error id kind message =>
    typed "error"
      [("id", .nat id), ("kind", kind.json), ("message", .string message)]
  | .eventBatch events =>
    typed "event-batch" [("events", .list Event.json events)]
  | .resync s => typed "resync" [("snapshot", s.json)]
  | .shutdownRequest reason =>
    typed "shutdown-request" [("reason", .string reason)]

def names : List String :=
  ["response", "error", "event-batch", "resync", "shutdown-request"]

def ofJson? (p : Part) : Option ServerFrame := do
  match ← p.variant? "type" names with
  | ("response", p) =>
    let f ← p.fields? ["id", "reply"]
    return .response (← f.required "id" Part.word?)
      (← f.required "reply" Reply.ofJson?)
  | ("error", p) =>
    let f ← p.fields? ["id", "kind", "message"]
    return .error (← f.required "id" Part.word?)
      (← f.required "kind" RefusalKind.ofJson?)
      (← f.required "message" Part.text?)
  | ("event-batch", p) =>
    let f ← p.fields? ["events"]
    return .eventBatch
      (← f.required "events" (Part.list? Event.ofJson?))
  | ("resync", p) =>
    let f ← p.fields? ["snapshot"]
    return .resync (← f.required "snapshot" Snapshot.ofJson?)
  | ("shutdown-request", p) =>
    let f ← p.fields? ["reason"]
    return .shutdownRequest (← f.required "reason" Part.text?)
  | _ => none

end ServerFrame

/-- What a frame means to the peer that receives it. -/
inductive Inbound where
  | reply (id : Nat) (result : Except Refusal Reply)
  | push (push : Push)

def Inbound.ofFrame : ServerFrame → Inbound
  | .response id answer => .reply id (.ok answer)
  | .error id kind message => .reply id (.error (.ofWire kind message))
  | .eventBatch events => .push (.events events)
  | .resync s => .push (.resync s)
  | .shutdownRequest reason => .push (.shutdown reason)

-- ================================================================ lines

/-- The longest line that is taken for a frame, in bytes. -/
def maxFrameSize : UInt64 := 4 * 1024 * 1024

/-- The line that a frame is sent as. -/
def frameLine (frame : Value) : String := frame.render ++ "\n"

/-- Why a line is no frame. -/
inductive FrameFault where
  | tooLarge (bytes : Nat)
  /-- The text of the line is not what was asked for. -/
  | malformed (text : String)
deriving DecidableEq, Repr

/-- The text of a fault. What is wrong with a malformed text is told in
the words of whoever reads JSON, and they may repeat any of it. -/
def FrameFault.message (cause : String → String) : FrameFault → String
  | .tooLarge bytes => s!"Frame too large: {bytes} bytes"
  | .malformed text => s!"Failed to parse frame: {cause text}"

/-- Reads a line as a frame. -/
def parseFrame {α : Type} (read : Part → Option α) (line : String) :
    Except FrameFault α :=
  if maxFrameSize.toNat < line.utf8ByteSize then
    .error (.tooLarge line.utf8ByteSize)
  else match Json.parseAs read (Text.trim line.toList) with
    | some frame => .ok frame
    | none => .error (.malformed (.ofList (Text.trim line.toList)))

/-- The request id in a line that is no frame, as far as it can be found;
zero otherwise. -/
def salvageId (line : String) : Nat :=
  match Value.parse (Text.trim line.toList) with
  | some v =>
    match v.member? "id" with
    | some (.number (.integer (.ofNat n))) => n
    | _ => 0
  | none => 0

-- ============================================================= counters

def Metrics.json (m : Metrics) : Value :=
  .object [("exporters", .nat m.exporters), ("clients", .nat m.clients),
    ("resources", .nat m.resources), ("places", .nat m.places),
    ("acquired-places", .nat m.acquiredPlaces),
    ("reservations", .nat m.reservations),
    ("event-number", .nat m.eventNumber),
    ("subscribers", .nat m.subscribers),
    ("messages-received", .nat m.messagesReceived),
    ("events-sent", .nat m.eventsSent),
    ("dropped-subscribers", .nat m.droppedSubscribers),
    ("evictions", .nat m.evictions)]

def Metrics.ofJson? (p : Part) : Option Metrics := do
  let f ← p.fields? ["exporters", "clients", "resources", "places",
    "acquired-places", "reservations", "event-number", "subscribers",
    "messages-received", "events-sent", "dropped-subscribers",
    "evictions"]
  let count := fun name => f.required name Part.word?
  return {
    exporters := ← count "exporters"
    clients := ← count "clients"
    resources := ← count "resources"
    places := ← count "places"
    acquiredPlaces := ← count "acquired-places"
    reservations := ← count "reservations"
    eventNumber := ← count "event-number"
    subscribers := ← count "subscribers"
    messagesReceived := ← count "messages-received"
    eventsSent := ← count "events-sent"
    droppedSubscribers := ← count "dropped-subscribers"
    evictions := ← count "evictions" }

namespace Coordinator.Settings

def json (s : Settings) : Value :=
  .object [("listen", .string s.listen),
    ("heartbeat-interval-ms", .nat s.heartbeatIntervalMs),
    ("grace-factor", .nat s.graceFactor),
    ("sweep-interval-ms", .nat s.sweepIntervalMs),
    ("event-retention", .nat s.eventRetention),
    ("session-queue", .nat s.sessionQueue),
    ("reservation-grace-secs", .nat s.reservationGraceSecs),
    ("reservation-poll-timeout-secs",
      .nat s.reservationPollTimeoutSecs),
    ("orphaned-place-release-secs",
      .option .nat s.orphanedPlaceReleaseSecs),
    ("allow-force-release", .bool s.allowForceRelease),
    ("channel-buffer", .nat s.channelBuffer)]

/-- Reads settings; whatever is not given has its default. -/
def ofJson? (p : Part) : Option Settings := do
  let f ← p.fields? ["listen", "heartbeat-interval-ms", "grace-factor",
    "sweep-interval-ms", "event-retention", "session-queue",
    "reservation-grace-secs", "reservation-poll-timeout-secs",
    "orphaned-place-release-secs", "allow-force-release",
    "channel-buffer"]
  let d : Settings := {}
  let word := fun name default => f.withDefault name default Part.word?
  return {
    listen := ← f.withDefault "listen" d.listen Part.text?
    heartbeatIntervalMs := ←
      word "heartbeat-interval-ms" d.heartbeatIntervalMs
    graceFactor := ← f.withDefault "grace-factor" d.graceFactor
      (Part.unsigned? 32)
    sweepIntervalMs := ← word "sweep-interval-ms" d.sweepIntervalMs
    eventRetention := ← word "event-retention" d.eventRetention
    sessionQueue := ← word "session-queue" d.sessionQueue
    reservationGraceSecs := ←
      word "reservation-grace-secs" d.reservationGraceSecs
    reservationPollTimeoutSecs := ←
      word "reservation-poll-timeout-secs" d.reservationPollTimeoutSecs
    orphanedPlaceReleaseSecs := ←
      f.withDefault "orphaned-place-release-secs" none
        (Part.optional? Part.word?)
    allowForceRelease := ←
      f.withDefault "allow-force-release" d.allowForceRelease Part.bool?
    channelBuffer := ← word "channel-buffer" d.channelBuffer }

end Coordinator.Settings

end LabLease
