/-
The configuration file: a YAML record with a part for every role. Each
field has a default, so that an empty file is one too.
-/
import LabLease.Client.Settings
import LabLease.Exporter.Settings
import LabLease.Wire.Frame
import LabLease.Yaml.Typed

namespace LabLease

open Json (Value)
open Yaml (Node)

structure Config where
  coordinator : Coordinator.Settings := {}
  exporter : Exporter.Settings
  client : Client.Settings
  logLevel : Option String := none

/-- The defaults. Names end with the user's, so that two users of one
coordinator do not get in each other's way. -/
def Config.default (user : String) : Config :=
  { exporter := { name := s!"exporter-{user}" }
    client := { name := s!"client-{user}" } }

-- ============================================================== reading

/-- The fields that a record gives. -/
abbrev GivenFields := List (String × Node)

namespace GivenFields

variable {α : Type}

def required (f : GivenFields) (name : String)
    (read : Node → Option α) : Option α := do
  read (← f.lookup name)

def withDefault (f : GivenFields) (name : String) (default : α)
    (read : Node → Option α) : Option α :=
  match f.lookup name with
  | some n => read n
  | none => some default

end GivenFields

def Coordinator.Settings.ofYaml? (n : Node) : Option Settings := do
  let f : GivenFields ← n.fields? ["listen", "heartbeat-interval-ms",
    "grace-factor", "sweep-interval-ms", "event-retention",
    "session-queue", "reservation-grace-secs",
    "reservation-poll-timeout-secs", "orphaned-place-release-secs",
    "allow-force-release", "channel-buffer"]
  let d : Settings := {}
  let word := fun name default => f.withDefault name default Node.word?
  return {
    listen := ← f.withDefault "listen" d.listen Node.text?
    heartbeatIntervalMs := ←
      word "heartbeat-interval-ms" d.heartbeatIntervalMs
    graceFactor := ← f.withDefault "grace-factor" d.graceFactor
      (Node.unsigned? 32)
    sweepIntervalMs := ← word "sweep-interval-ms" d.sweepIntervalMs
    eventRetention := ← word "event-retention" d.eventRetention
    sessionQueue := ← word "session-queue" d.sessionQueue
    reservationGraceSecs := ←
      word "reservation-grace-secs" d.reservationGraceSecs
    reservationPollTimeoutSecs := ←
      word "reservation-poll-timeout-secs" d.reservationPollTimeoutSecs
    orphanedPlaceReleaseSecs := ←
      f.withDefault "orphaned-place-release-secs" none
        (Node.optional? Node.word?)
    allowForceRelease := ←
      f.withDefault "allow-force-release" d.allowForceRelease Node.bool?
    channelBuffer := ← word "channel-buffer" d.channelBuffer }

/-- Reads what an exporter has. The parameters are the same as on the
wire. -/
def ResourceSpec.ofYaml? (n : Node) : Option ResourceSpec := do
  let f : GivenFields ← n.fields? ["group", "name", "params"]
  return {
    group := ← f.required "group" Node.text?
    name := ← f.required "name" Node.text?
    params := ← f.required "params" fun n => do
      ResourceParams.ofJson? ⟨← n.json?, .direct Json.nestingLimit⟩ }

def Exporter.Settings.ofYaml? (d : Settings) (n : Node) :
    Option Settings := do
  let f : GivenFields ← n.fields? ["name", "coordinator",
    "heartbeat-interval-ms", "reconcile-interval-ms",
    "request-timeout-ms", "reconnect-backoff-ms", "max-backoff-ms",
    "resources"]
  let word := fun name default => f.withDefault name default Node.word?
  return {
    name := ← f.withDefault "name" d.name Node.text?
    coordinator := ← f.withDefault "coordinator" d.coordinator Node.text?
    heartbeatIntervalMs := ←
      word "heartbeat-interval-ms" d.heartbeatIntervalMs
    reconcileIntervalMs := ←
      word "reconcile-interval-ms" d.reconcileIntervalMs
    requestTimeoutMs := ← word "request-timeout-ms" d.requestTimeoutMs
    reconnectBackoffMs := ←
      word "reconnect-backoff-ms" d.reconnectBackoffMs
    maxBackoffMs := ← word "max-backoff-ms" d.maxBackoffMs
    resources := ← f.withDefault "resources" d.resources
      (Node.list? ResourceSpec.ofYaml?) }

def Client.Settings.ofYaml? (d : Settings) (n : Node) :
    Option Settings := do
  let f : GivenFields ← n.fields? ["name", "coordinator",
    "heartbeat-interval-ms", "request-timeout-ms", "poll-interval-ms",
    "reconnect-attempts", "reconnect-backoff-ms"]
  let word := fun name default => f.withDefault name default Node.word?
  return {
    name := ← f.withDefault "name" d.name Node.text?
    coordinator := ← f.withDefault "coordinator" d.coordinator Node.text?
    heartbeatIntervalMs := ←
      word "heartbeat-interval-ms" d.heartbeatIntervalMs
    requestTimeoutMs := ← word "request-timeout-ms" d.requestTimeoutMs
    pollIntervalMs := ← word "poll-interval-ms" d.pollIntervalMs
    reconnectAttempts := ← f.withDefault "reconnect-attempts"
      d.reconnectAttempts (Node.unsigned? 32)
    reconnectBackoffMs := ←
      word "reconnect-backoff-ms" d.reconnectBackoffMs }

namespace Config

/-- Reads a configuration; whatever is not given has its default. -/
def ofYaml? (d : Config) (n : Node) : Option Config := do
  let f : GivenFields ←
    n.fields? ["coordinator", "exporter", "client", "log-level"]
  return {
    coordinator := ← f.withDefault "coordinator" d.coordinator
      Coordinator.Settings.ofYaml?
    exporter := ← f.withDefault "exporter" d.exporter d.exporter.ofYaml?
    client := ← f.withDefault "client" d.client d.client.ofYaml?
    logLevel := ← f.withDefault "log-level" d.logLevel
      (Node.optional? Node.text?) }

/-- The configuration that a file holds. -/
def parse (user : String) (text : String) : Option Config := do
  ofYaml? (default user) (← Node.parse text.toList)

/-- Uses another address of the coordinator, if one is given. -/
def withAddress (c : Config) : Option String → Config
  | some address =>
    { c with exporter.coordinator := address
             client.coordinator := address }
  | none => c

end Config

-- ============================================================== writing

def Exporter.Settings.json (s : Settings) : Value :=
  .object [("name", .string s.name), ("coordinator", .string s.coordinator),
    ("heartbeat-interval-ms", .nat s.heartbeatIntervalMs),
    ("reconcile-interval-ms", .nat s.reconcileIntervalMs),
    ("request-timeout-ms", .nat s.requestTimeoutMs),
    ("reconnect-backoff-ms", .nat s.reconnectBackoffMs),
    ("max-backoff-ms", .nat s.maxBackoffMs),
    ("resources", .list ResourceSpec.json s.resources)]

def Client.Settings.json (s : Settings) : Value :=
  .object [("name", .string s.name), ("coordinator", .string s.coordinator),
    ("heartbeat-interval-ms", .nat s.heartbeatIntervalMs),
    ("request-timeout-ms", .nat s.requestTimeoutMs),
    ("poll-interval-ms", .nat s.pollIntervalMs),
    ("reconnect-attempts", .nat s.reconnectAttempts),
    ("reconnect-backoff-ms", .nat s.reconnectBackoffMs)]

def Config.json (c : Config) : Value :=
  .object [("coordinator", c.coordinator.json),
    ("exporter", c.exporter.json), ("client", c.client.json),
    ("log-level", .option .string c.logLevel)]

end LabLease
