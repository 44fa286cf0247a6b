/-
One connection as the coordinator serves it. The peer registers first;
from then on each line is a request of its session, and what waits in the
session's mailbox is sent between the answers. Every line that is read
is answered by exactly one frame with the number of its request.

A line that is no request is answered with what is wrong with it, in the
words of whoever reads JSON; these are a parameter throughout.
-/
import LabLease.Coordinator.Hub
import LabLease.Wire.Frame
import LabLease.Wire.Line

namespace LabLease.Server

open Coordinator (Hub)

/-- How far a connection has come. -/
inductive Connection where
  /-- Nobody has registered on it yet. -/
  | greeting
  /-- A session runs on it. -/
  | serving (session : SessionId)
  | closed
deriving DecidableEq, Repr

/-- What comes in on a connection. -/
inductive Incoming where
  | line (line : ReadLine)
  /-- Something out of the session's mailbox. -/
  | push (push : Push)
  /-- Nothing will ever come out of the mailbox again. -/
  | mailboxClosed
  /-- The peer has gone. -/
  | ended

namespace Connection

variable (cause : String → String)

/-- Why a line that is no frame is refused. -/
def malformed (fault : FrameFault) : Refusal :=
  .invalidRequest (fault.message cause)

/-- Why a line that grows too long is refused. -/
def oversized : Refusal :=
  .invalidRequest s!"frame exceeds {maxFrameSize} bytes"

/-- The answer to a line on a connection that has no session yet. -/
def greet (h : Hub) (now : Moment) (line : String) :
    ServerFrame × Connection × Hub :=
  match parseFrame RequestFrame.ofJson? line with
  | .error fault =>
    (.ofResult (salvageId line) (.error (malformed cause fault)),
      .greeting, h)
  | .ok ⟨id, .register name role⟩ =>
    match h.register name role h.mailboxCapacity now with
    | (.ok (session, eventNumber), h) =>
      (.ofResult id (.ok (.registered session eventNumber)),
        .serving session, h)
    | (.error e, h) => (.ofResult id (.error e), .greeting, h)
  | .ok ⟨id, _⟩ =>
    (.ofResult id (.error (.staleSession "register first")), .greeting, h)

/-- The answer to a line of a session. A session that has disconnected
takes its connection with it. -/
def serve (h : Hub) (session : SessionId) (now : Moment) (line : String) :
    ServerFrame × Connection × Hub :=
  match parseFrame RequestFrame.ofJson? line with
  | .error fault =>
    (.ofResult (salvageId line) (.error (malformed cause fault)),
      .serving session, h)
  | .ok ⟨id, op⟩ =>
    let (result, h) := h.call session op now
    let isLast := op = .disconnect && result.toBool
    (.ofResult id result, if isLast then .closed else .serving session, h)

/-- What a connection makes of what comes in: what it sends, and how far
it has come then. Behind a line that is too long nothing can be told
apart any more. -/
def react (c : Connection) (h : Hub) (now : Moment) (i : Incoming) :
    List ServerFrame × Connection × Hub :=
  match c, i with
  | .closed, _ => ([], .closed, h)
  | .greeting, .line (.line s) =>
    let (frame, c, h) := greet cause h now s
    ([frame], c, h)
  | .serving session, .line (.line s) =>
    let (frame, c, h) := serve cause h session now s
    ([frame], c, h)
  | _, .line .tooLarge =>
    ([.ofResult 0 (.error oversized)], .closed, h)
  | .greeting, .push _ | .greeting, .mailboxClosed => ([], .greeting, h)
  | .serving session, .push p =>
    let isLast := match p with
      | .shutdown _ => true
      | _ => false
    ([.ofPush p], if isLast then .closed else .serving session, h)
  | .serving _, .mailboxClosed => ([], .closed, h)
  | _, .ended => ([], .closed, h)

/-- Takes what comes in. When the connection of a session closes, the
coordinator is told so and its mailbox is read no more. -/
def step (c : Connection) (h : Hub) (now : Moment) (i : Incoming) :
    List ServerFrame × Connection × Hub :=
  match c, c.react cause h now i with
  | .serving session, (frames, .closed, h) =>
    (frames, .closed, (h.connectionClosed session now).2.abandon session)
  | _, r => r

/-- Takes things as they come in, one after the other. -/
def run (c : Connection) (h : Hub) (now : Moment) :
    List Incoming → List ServerFrame × Connection × Hub
  | [] => ([], c, h)
  | i :: rest =>
    let (frames, c, h) := c.step cause h now i
    let (more, c, h) := run c h now rest
    (frames ++ more, c, h)

/-- Takes everything that waits in the mailbox of a session. -/
def flush (c : Connection) (h : Hub) (now : Moment) :
    List ServerFrame × Connection × Hub :=
  match c with
  | .serving session =>
    let (delivery, h) := h.take session
    let closing := if delivery.closed then [.mailboxClosed] else []
    c.run cause h now (delivery.pushes.map .push ++ closing)
  | _ => ([], c, h)

end Connection

end LabLease.Server
