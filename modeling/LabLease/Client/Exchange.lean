/-
A connection to the coordinator in use: the requests under way, each with
an instant from which its answer is no longer waited for, and the lines
that have come so far.
-/
import LabLease.Client.Link
import LabLease.Program.Effect
import LabLease.Time.Timestamp

namespace LabLease.Client

open Program (Effect)

structure Exchange where
  /-- The number of the connection. -/
  peer : Nat
  /-- How long an answer may take. -/
  timeout : Nat
  link : Link := {}
  reader : LineReader := { limit := maxFrameSize }
  /-- When the requests under way are given up, by number. -/
  deadlines : Table Nat Nat := .empty

namespace Exchange

/-- Sends a request. -/
def ask (x : Exchange) (op : Operation) (now : Moment) :
    Nat × Effect × Exchange :=
  let (frame, link) := x.link.send op
  let deadline := now.ticks + x.timeout
  (frame.id, .send x.peer (frameLine frame.json),
    { x with link, deadlines := x.deadlines.insert frame.id deadline })

/-- Takes a line. -/
def receiveLine (x : Exchange) (line : ReadLine) : Arrival × Exchange :=
  match x.link.receive line with
  | (.answer id op result, link) =>
    (.answer id op result,
      { x with link, deadlines := x.deadlines.erase id })
  | (arrival, link) => (arrival, { x with link })

/-- Takes octets, and tells what the lines come to that they complete. -/
def receive (x : Exchange) (octets : List UInt8) :
    List Arrival × Exchange :=
  let (reader, lines) := x.reader.feedAll octets
  lines.foldl (fun (out, x) line =>
    let (arrival, x) := x.receiveLine line
    (out ++ [arrival], x)) ([], { x with reader })

/-- Waits no more for answers that are overdue, and tells which. -/
def expire (x : Exchange) (now : Moment) : List Nat × Exchange :=
  let overdue := x.deadlines.filter fun _ deadline => deadline ≤ now.ticks
  (overdue.keys,
    { x with
      link := overdue.keys.foldl Link.giveUp x.link
      deadlines := x.deadlines.filter fun _ deadline =>
        now.ticks < deadline })

end Exchange

end LabLease.Client
