/-
A client that keeps a session: its replica follows the events, a gap is
closed by subscribing anew from the last event applied, and when the
connection is lost it connects again as often as it is set to, waiting
twice as long before each attempt.
-/
import LabLease.Client.Driver
import LabLease.Client.Replica
import LabLease.Client.Settings
import LabLease.Lease.Request
import LabLease.Number.Whole

namespace LabLease

namespace Client

-- =============================================================== pushes

/-- What a client tells those who follow its replica. -/
inductive Update where
  | events (events : List Event)
  | resync (eventNumber : Nat)
  | reconnected (eventNumber : Option Nat)
deriving DecidableEq

/-- What a push makes a client do. -/
inductive Reaction where
  | nothing
  | tell (update : Update)
  /-- Events are missing: it subscribes from this one. -/
  | resubscribe (lastEvent : Nat)
  /-- Its session has ended. -/
  | reconnect (reason : String)
deriving DecidableEq

end Client

open Client in
/-- Takes over a push, or the end of the connection. -/
def Replica.takePush (r : Replica) : Option Push → Reaction × Replica
  | some (.events events) =>
    match r.applyEvents events with
    | (.ok 0, r) => (.nothing, r)
    | (.ok _, r) => (.tell (.events events), r)
    | (.error (.resyncRequired n), r) => (.resubscribe n, r)
    | (.error _, r) => (.nothing, r)
  | some (.resync snapshot) =>
    (.tell (.resync snapshot.eventNumber), .ofSnapshot snapshot)
  | some (.shutdown reason) => (.reconnect reason, r)
  | none => (.reconnect "connection closed", r)

namespace Client

/-- The waits before the attempts to connect anew, in order. -/
def Settings.backoffs (s : Settings) : List Nat :=
  (List.range s.reconnectAttempts).map fun n => s.reconnectBackoff * twoTo n

-- ============================================================= requests

/-- How a client reaches the coordinator, and what its replica knows. Both
may change with everything that is done: they depend on a state `σ`, to
which nothing but requests and calls of drivers is done here. -/
structure Access (σ : Type) where
  request : Operation → σ → Except Refusal Reply × σ
  known : ResourceId → σ → Option Resource

/-- What a client does in turn. -/
inductive Deed where
  /-- A request, and whether it was granted. -/
  | request (op : Operation) (granted : Bool)
  | call (call : DriverCall)
deriving DecidableEq

/-- What came of a task, and what was done for it. -/
structure Outcome (α : Type) where
  result : Except Failure α
  deeds : List Deed

/-- The failure of an answer that does not belong to its request. -/
def unexpected : Failure := .of "Internal error: unexpected reply"

section Tasks

variable {σ : Type} (access : Access σ)

/-- Sends a request and notes it. -/
def ask (op : Operation) (s : σ) : Except Refusal Reply × Deed × σ :=
  let (result, s) := access.request op s
  (result, .request op result.toBool, s)

/-- Picks resources out of a list by their ids. -/
def pick (all : List Resource) (ids : List ResourceId) :
    Except Failure (List Resource) :=
  ids.mapM fun id =>
    match all.find? (·.id = id) with
    | some r => .ok r
    | none => .error (.of s!"Resource {id.text} vanished after acquisition")

/-- The resources of some ids: out of the replica if it knows them all,
and from the coordinator otherwise. -/
def lookup (ids : List ResourceId) (s : σ) : Outcome (List Resource) × σ :=
  match ids.mapM fun id => access.known id s with
  | some resources => (⟨.ok resources, []⟩, s)
  | none =>
    match ask access (.listResources none) s with
    | (.ok (.resources all), deed, s) => (⟨pick all ids, [deed]⟩, s)
    | (.ok _, deed, s) => (⟨.error unexpected, [deed]⟩, s)
    | (.error e, deed, s) => (⟨.error (.ofRefusal e), [deed]⟩, s)

/-- Makes the resources of a place that was acquired usable. When a
driver fails the place is released again. -/
def bindAcquired (drivers : Drivers σ) (place : String)
    (view : PlaceView) (s : σ) :
    Outcome (PlaceView × List (Binding σ)) × σ :=
  let (found, s) := lookup access view.place.bound s
  match found.result with
  | .error e => (⟨.error e, found.deeds⟩, s)
  | .ok resources =>
    let ((calls, result), s) := drivers.bind resources s
    let deeds := found.deeds ++ calls.map .call
    match result with
    | .ok bindings => (⟨.ok (view, bindings), deeds⟩, s)
    | .error e =>
      let (_, deed, s) := ask access (.release place false) s
      (⟨.error e, deeds ++ [deed]⟩, s)

/-- Acquires a place and makes its resources usable. -/
def acquireAndBind (drivers : Drivers σ) (place : String) (s : σ) :
    Outcome (PlaceView × List (Binding σ)) × σ :=
  match ask access (.acquire place) s with
  | (.ok (.place view), deed, s) =>
    let (out, s) := bindAcquired access drivers place view s
    ({ out with deeds := deed :: out.deeds }, s)
  | (.ok _, deed, s) => (⟨.error unexpected, [deed]⟩, s)
  | (.error e, deed, s) => (⟨.error (.ofRefusal e), [deed]⟩, s)

/-- Deactivates what is bound and releases the place, whether or not that
worked. A refused release counts more than a driver that failed. -/
def unbindAndRelease (place : String) (bindings : List (Binding σ))
    (s : σ) : Outcome Unit × σ :=
  let ((calls, failure), s) := Drivers.unbind bindings s
  let (result, deed, s) := ask access (.release place false) s
  let result := match result, failure with
    | .error e, _ => .error (.ofRefusal e)
    | .ok (.place _), some f => .error f
    | .ok (.place _), none => .ok ()
    | .ok _, _ => .error unexpected
  (⟨result, calls.map .call ++ [deed]⟩, s)

end Tasks

-- ============================================================== waiting

/-- What a reservation means to a client that waits for it, unless it
still waits itself. -/
def settled? (r : Reservation) : Option (Except Failure Reservation) :=
  match r.state with
  | .allocated | .acquired => some (.ok r)
  | .cancelled | .expired =>
    some (.error (.of s!"Reservation {r.id} ended as {r.state.word}"))
  | .waiting => none

/-- What an answer to a poll means to a client that waits. -/
def polled? (result : Except Refusal Reply) :
    Option (Except Failure Reservation) :=
  match result with
  | .ok (.reservation r) => settled? r
  | .ok _ => some (.error (unexpected.during "Failed to poll reservation"))
  | .error e =>
    some (.error ((Failure.ofRefusal e).during "Failed to poll reservation"))

/-- The failure of a client that has waited long enough. -/
def timedOut (id : String) : Failure :=
  .of s!"Timed out waiting for reservation {id}"

end Client

end LabLease
