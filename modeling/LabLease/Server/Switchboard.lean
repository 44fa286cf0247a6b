/-
All connections of a coordinator. What comes in on one is taken at once;
what waits in the mailbox of a session is sent on its connection when
what was sent there before is through, so that a peer that does not read
keeps its mailbox filling up and nobody else's.
-/
import LabLease.Server.Connection

namespace LabLease.Server

open Coordinator (Hub)

/-- A connection with what has come in on it so far. -/
structure Port where
  connection : Connection := .greeting
  reader : LineReader := { limit := maxFrameSize }
  /-- Whether what was sent is still on its way. -/
  busy : Bool := false

structure Switchboard where
  hub : Hub
  /-- The connections by number. -/
  ports : Table Nat Port
  /-- What whoever reads JSON says to be wrong with a text. -/
  cause : String → String

/-- What is to be done for one peer. -/
structure Dispatch where
  peer : Nat
  frames : List ServerFrame
  /-- Whether its connection ends behind them. -/
  hangUp : Bool

namespace Switchboard

def new (settings : Coordinator.Settings) (cause : String → String) :
    Switchboard :=
  ⟨.new settings, .empty, cause⟩

/-- Somebody has opened a connection. -/
def accept (b : Switchboard) (peer : Nat) : Switchboard :=
  { b with ports := b.ports.insert peer {} }

/-- What was sent to a peer is through. -/
def sent (b : Switchboard) (peer : Nat) : Switchboard :=
  { b with ports := b.ports.adjust peer fun p => { p with busy := false } }

/-- Keeps a connection that has moved on, and tells what is to be done
for its peer. A closed one is forgotten. -/
def settle (b : Switchboard) (peer : Nat) (port : Port)
    (frames : List ServerFrame) : List Dispatch × Switchboard :=
  if port.connection = .closed then
    ([⟨peer, frames, true⟩], { b with ports := b.ports.erase peer })
  else if frames.isEmpty then
    ([], { b with ports := b.ports.insert peer port })
  else
    ([⟨peer, frames, false⟩],
      { b with ports := b.ports.insert peer { port with busy := true } })

/-- Lets a connection take things as they come in. -/
def feed (b : Switchboard) (peer : Nat) (port : Port) (now : Moment)
    (incoming : List Incoming) : List Dispatch × Switchboard :=
  let (frames, connection, hub) :=
    port.connection.run b.cause b.hub now incoming
  { b with hub }.settle peer { port with connection } frames

/-- Octets have come from a peer. -/
def receive (b : Switchboard) (peer : Nat) (now : Moment)
    (octets : List UInt8) : List Dispatch × Switchboard :=
  match b.ports.get? peer with
  | some port =>
    let (reader, lines) := port.reader.feedAll octets
    b.feed peer { port with reader } now (lines.map .line)
  | none => ([], b)

/-- Nothing more will come from a peer. A last line counts without its
end. -/
def ended (b : Switchboard) (peer : Nat) (now : Moment) :
    List Dispatch × Switchboard :=
  match b.ports.get? peer with
  | some port =>
    b.feed peer port now (port.reader.finish.map .line ++ [.ended])
  | none => ([], b)

/-- Sends what waits for one peer, unless it still has to take what was
sent before. -/
def flushPort (now : Moment) (r : List Dispatch × Switchboard)
    (peer : Nat) : List Dispatch × Switchboard :=
  let (dispatches, b) := r
  match b.ports.get? peer with
  | some port =>
    if port.busy then r
    else
      let (frames, connection, hub) :=
        port.connection.flush b.cause b.hub now
      let (more, b) :=
        { b with hub }.settle peer { port with connection } frames
      (dispatches ++ more, b)
  | none => r

/-- Sends what waits for anybody. -/
def flush (b : Switchboard) (now : Moment) : List Dispatch × Switchboard :=
  b.ports.keys.foldl (flushPort now) ([], b)

def sweep (b : Switchboard) (now : Moment) : Switchboard :=
  { b with hub := b.hub.sweep now }

def shutdown (b : Switchboard) : Switchboard :=
  { b with hub := b.hub.shutdown.2 }

end Switchboard

end LabLease.Server
