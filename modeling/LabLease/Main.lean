/-
The program `lc` itself. What it does is decided elsewhere; here effects
are carried out and occurrences collected, one after the other, until the
program has ended.
-/
import LabLease.Program.Run
import LabLease.Wire.Address
import Std.Async.DNS
import Std.Async.Signal
import Std.Async.TCP
import Std.Async.Timer
import Std.Sync.Channel

namespace LabLease.Main

open Std.Async
open Program (Effect Ending Occurrence Run)

-- ========================================================== surroundings

/-- What a running program has to do with. -/
structure Surroundings where
  /-- What has happened and was not taken yet. -/
  inbox : Std.Channel Occurrence
  /-- The open connections by number. -/
  sockets : IO.Ref (Table Nat TCP.Socket.Client)

def Surroundings.note (w : Surroundings) (o : Occurrence) : BaseIO Unit := do
  let _ ← w.inbox.send o

/-- The instant at which it is asked for. -/
def instant : IO Moment := do
  let ticks ← IO.monoMsNow
  let wall := (← Std.Time.Timestamp.now).toNanosecondsSinceUnixEpoch
  let nanoseconds := wall.val.toNat
  let second := 1000000000
  return ⟨ticks, .ofSeconds (nanoseconds / second) (nanoseconds % second)⟩

/-- The number by which the system knows a fault. -/
def faultNumber? : IO.Error → Option UInt32
  | .alreadyExists _ n _ | .otherError n _ | .resourceBusy n _
  | .resourceVanished n _ | .unsupportedOperation n _
  | .hardwareFault n _ | .unsatisfiedConstraints n _
  | .illegalOperation n _ | .protocolError n _ | .timeExpired n _
  | .interrupted _ n _ | .noFileOrDirectory _ n _
  | .invalidArgument _ n _ | .permissionDenied _ n _
  | .resourceExhausted _ n _ | .inappropriateType _ n _
  | .noSuchThing _ n _ => some n
  | _ => none

/-- What was wrong. Some numbers come negated. -/
def causeOf (e : IO.Error) : String :=
  match faultNumber? e with
  | some n =>
    let n := n.toNat
    Program.systemFault (if n < twoTo 31 then n else twoTo 32 - n)
  | none => toString e

-- ============================================================ addresses

def v4 (address : Std.Net.IPv4Addr) (port : UInt16) :
    Std.Net.SocketAddress :=
  .v4 ⟨address, port⟩

def v6 (address : Std.Net.IPv6Addr) (port : UInt16) :
    Std.Net.SocketAddress :=
  .v6 ⟨address, port⟩

def unknownName : String :=
  "failed to lookup address information: Name or service not known"

/-- The places in the network that a written address stands for. -/
def resolve (text : String) : Async (List Std.Net.SocketAddress) := do
  match Address.parse text with
  | .error fault => throw (.userError fault.message)
  | .ok ⟨.ipv4 a b c d, port⟩ => return [v4 (.ofParts a b c d) port]
  | .ok ⟨.ipv6 inner, port⟩ =>
    match Std.Net.IPv6Addr.ofString inner with
    | some address => return [v6 address port]
    | none => throw (.userError "invalid socket address")
  | .ok ⟨.name host, port⟩ =>
    let found ← try DNS.getAddrInfo host (toString port)
      catch _ => throw (.userError unknownName)
    return found.toList.map fun
      | .v4 address => v4 address port
      | .v6 address => v6 address port

-- ========================================================== connections

/-- Notes what comes in on a connection, until it ends. -/
def listenTo (w : Surroundings) (peer : Nat) (socket : TCP.Socket.Client) :
    Async Unit := do
  repeat
    let octets? ← try socket.recv? 65536 catch _ => pure none
    match octets? with
    | some octets => w.note (.received peer octets.toList)
    | none =>
      w.note (.ended peer)
      return

def keep (w : Surroundings) (peer : Nat) (socket : TCP.Socket.Client) :
    IO Unit := do
  try socket.noDelay catch _ => pure ()
  w.sockets.modify (·.insert peer socket)

/-- Opens a connection to the first place that lets it. -/
def connect (w : Surroundings) (peer : Nat) (address : String) :
    Async Unit := do
  try
    let mut fault : IO.Error := .userError "no address"
    for place in ← resolve address do
      let socket ← TCP.Socket.Client.mk
      try
        socket.connect place
        keep w peer socket
        w.note (.connected peer)
        listenTo w peer socket
        return
      catch e => fault := e
    throw fault
  catch e => w.note (.notConnected peer (causeOf e))

/-- Accepts connections and numbers them. -/
def acceptAll (w : Surroundings) (server : TCP.Socket.Server) :
    Async Unit := do
  let mut peer := 0
  repeat
    let socket ← server.accept
    peer := peer + 1
    keep w peer socket
    w.note (.accepted peer)
    background (listenTo w peer socket)

def placeText : Std.Net.SocketAddress → String
  | .v4 place => s!"{place.addr}:{place.port}"
  | .v6 place => s!"[{place.addr}]:{place.port}"

def listen (w : Surroundings) (address : String) : Async Unit := do
  try
    let mut fault : IO.Error := .userError "no address"
    for place in ← resolve address do
      let server ← TCP.Socket.Server.mk
      try
        server.bind place
        server.listen 1024
        w.note (.listening (placeText (← server.getSockName)))
        acceptAll w server
        return
      catch e => fault := e
    throw fault
  catch e => w.note (.notListening (causeOf e))

/-- Sends a text. One that cannot be sent is lost with its connection,
whose end is noted where its lines are read. -/
def send (w : Surroundings) (peer : Nat) (text : String) : Async Unit := do
  match (← w.sockets.get).get? peer with
  | some socket =>
    try socket.send text.toUTF8 catch _ => pure ()
    w.note (.sent peer)
  | none => return

def hangUp (w : Surroundings) (peer : Nat) : Async Unit := do
  match (← w.sockets.get).get? peer with
  | some socket =>
    w.sockets.modify (·.erase peer)
    try socket.shutdown catch _ => pure ()
  | none => return

-- =============================================================== running

def say (stream : IO.FS.Stream) (line : String) : IO Unit := do
  stream.putStrLn line
  stream.flush

/-- Carries out an effect. -/
def carryOut (w : Surroundings) (e : Effect) : IO (Option Ending) := do
  match e with
  | .listen address =>
    let _ ← (listen w address).toIO
    return none
  | .connect peer address =>
    let _ ← (connect w peer address).toIO
    return none
  | .send peer text =>
    let _ ← (send w peer text).toIO
    return none
  | .hangUp peer =>
    let _ ← (hangUp w peer).toIO
    return none
  | .print line =>
    say (← IO.getStdout) line
    return none
  | .remark line =>
    say (← IO.getStderr) line
    return none
  | .finish ending =>
    match ending with
    | .failure f => f.report.forM fun line => do say (← IO.getStderr) line
    | _ => pure ()
    return some ending

/-- Carries out effects up to one that ends the program. -/
def carryOutAll (w : Surroundings) :
    List Effect → IO (Option Ending)
  | [] => return none
  | e :: rest => do
    match ← carryOut w e with
    | some ending => return some ending
    | none => carryOutAll w rest

/-- Goes on until the program ends. -/
partial def proceed (w : Surroundings) (r : Run) : IO Ending := do
  let o ← IO.wait (← w.inbox.recv)
  let (effects, r) := r.step (← instant) o
  match ← carryOutAll w effects with
  | some ending => return ending
  | none => proceed w r

/-- Notes every so often that time has passed. -/
def keepTime (w : Surroundings) : Async Unit := do
  repeat
    sleep 10
    w.note .timePassed

/-- Notes when whoever runs the program wants it to end. -/
def heed (w : Surroundings) (signal : Signal.Waiter) : Async Unit := do
  repeat
    let task ← signal.wait
    let _ ← Async.ofAsyncTask task
    w.note .interrupted

-- ========================================================= configuration

def readText (path : String) : IO (Except String String) := do
  try
    match String.fromUTF8? (← IO.FS.readBinFile path) with
    | some text => return .ok text
    | none => return .error "stream did not contain valid UTF-8"
  catch e => return .error (causeOf e)

/-- Where a configuration is looked for unless a path is given. -/
def usualPaths : IO (List String) := do
  let own := match ← IO.getEnv "XDG_CONFIG_HOME" with
    | some path => if path.startsWith "/" then some path else none
    | none => none
  let home := (← IO.getEnv "HOME").map (· ++ "/.config")
  let folders := (own.or home).toList
  return ".labcoord.yml" :: folders.map (· ++ "/labcoord/labcoord.yml")

/-- The first configuration among some files that can be used, or the
defaults. -/
def firstUsable (user : String) : List String → IO Config
  | [] => return .default user
  | path :: rest => do
    match Program.configIn user (← readText path) with
    | .ok c => return c
    | .error _ => firstUsable user rest

def configuration (i : Command.Invocation) :
    IO (Except Failure Config) := do
  let user := (← IO.getEnv "USER").getD "anonymous"
  match i.config with
  | some path => return Program.configAt user path (← readText path)
  | none => return .ok (← firstUsable user (← usualPaths))

end LabLease.Main

open LabLease LabLease.Main in
def main (args : List String) : IO UInt32 := do
  let w : Surroundings := ⟨← Std.Channel.new none, ← IO.mkRef .empty⟩
  let (effects, r) ← match Command.Invocation.parse args with
    | .error u => pure (Program.decline u, none)
    | .ok i => pure (Program.launch i (← configuration i) (← instant))
  let signal ← Std.Async.Signal.Waiter.mk .sigint true
  let _ ← (heed w signal).toIO
  let _ ← (keepTime w).toIO
  let ending ← match ← carryOutAll w effects, r with
    | some ending, _ => pure ending
    | none, some r => proceed w r
    | none, none => pure .success
  return ending.status.toUInt32
