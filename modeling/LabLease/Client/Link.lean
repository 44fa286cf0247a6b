/-
The peer's side of a connection. Requests are numbered, and whoever waits
for the answer to one is found by its number, so that many may be under
way at once. What is no answer is a push.
-/
import LabLease.Wire.Frame
import LabLease.Wire.Line

namespace LabLease.Client

/-- A connection with requests under way. -/
structure Link where
  /-- The number given last. -/
  lastId : Nat := 0
  /-- The requests that wait for their answers, by number. -/
  waiting : Table Nat Operation := .empty
deriving DecidableEq

/-- What a line from the coordinator comes to. -/
inductive Arrival where
  /-- The answer to a request that waited. -/
  | answer (id : Nat) (op : Operation) (result : Except Refusal Reply)
  | push (push : Push)
  /-- A line that is no frame, or the answer to no request. -/
  | ignored

namespace Link

/-- Sends a request. -/
def send (l : Link) (op : Operation) : RequestFrame × Link :=
  let id := l.lastId + 1
  (⟨id, op⟩, { lastId := id, waiting := l.waiting.insert id op })

/-- Waits for an answer no more. -/
def giveUp (l : Link) (id : Nat) : Link :=
  { l with waiting := l.waiting.erase id }

def receiveFrame (l : Link) (frame : ServerFrame) : Arrival × Link :=
  match Inbound.ofFrame frame with
  | .reply id result =>
    match l.waiting.get? id with
    | some op => (.answer id op result, l.giveUp id)
    | none => (.ignored, l)
  | .push p => (.push p, l)

/-- Takes a line. One that is too long or no frame is passed over. -/
def receive (l : Link) : ReadLine → Arrival × Link
  | .line s =>
    match parseFrame ServerFrame.ofJson? s with
    | .ok frame => l.receiveFrame frame
    | .error _ => (.ignored, l)
  | .tooLarge => (.ignored, l)

/-- The requests that will never be answered once the connection is
lost. -/
def lost (l : Link) : List Nat := l.waiting.keys

end Link

end LabLease.Client
