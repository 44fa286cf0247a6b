/-
A session of an exporter. It starts by publishing all that the exporter
has, since the coordinator keeps nothing of an earlier one, and goes on
publishing whenever a look at what there is shows a difference.
-/
import LabLease.Refusal
import LabLease.Exporter.Settings
import LabLease.Lease.Request

namespace LabLease.Exporter

/-- What came of a look at what an exporter has. -/
abbrev Scan := Except Failure (List ResourceSpec)

/-- Whether two lists of resources publish the same. -/
def samePublication (xs ys : List ResourceSpec) : Bool :=
  xs.length = ys.length && (xs.zip ys).all fun (x, y) => x.same y

/-- What is to be published after a scan, if anything. A scan that fails
changes nothing. -/
def republication? (published : List ResourceSpec) :
    Scan → Option (List ResourceSpec)
  | .ok current =>
    if samePublication current published then none else some current
  | .error _ => none

section Session

variable {σ : Type}
  (request : Operation → σ → Except Refusal Reply × σ)

/-- Publishes resources, and returns them as what is published now. -/
def publish (specs : List ResourceSpec) (s : σ) :
    Except Failure (List ResourceSpec) × σ :=
  match request (.setResources specs) s with
  | (.ok (.published _), s) => (.ok specs, s)
  | (.ok _, s) => (.error (.of "Internal error: unexpected reply"), s)
  | (.error e, s) => (.error (.ofRefusal e), s)

/-- Begins a session: registers, looks and publishes. -/
def begin (name : String) (scan : Scan) (s : σ) :
    Except Failure (List ResourceSpec) × σ :=
  match request (.register name .exporter) s with
  | (.error e, s) =>
    (.error ((Failure.ofRefusal e).during "Failed to register exporter"), s)
  | (.ok _, s) =>
    match scan with
    | .error f => (.error (f.during "Failed to scan inventory"), s)
    | .ok specs => publish request specs s

/-- Goes on after another look. A failure ends the session. -/
def reconcile (published : List ResourceSpec) (scan : Scan) (s : σ) :
    Except Failure (List ResourceSpec) × σ :=
  match republication? published scan with
  | some specs => publish request specs s
  | none => (.ok published, s)

/-- Goes on after one look after the other. -/
def reconcileAll (published : List ResourceSpec) :
    List Scan → σ → Except Failure (List ResourceSpec) × σ
  | [], s => (.ok published, s)
  | scan :: rest, s =>
    match reconcile request published scan s with
    | (.ok published, s) => reconcileAll published rest s
    | (.error e, s) => (.error e, s)

/-- A whole session, from its beginning through some looks. -/
def session (name : String) (first : Scan) (later : List Scan) (s : σ) :
    Except Failure (List ResourceSpec) × σ :=
  match begin request name first s with
  | (.ok published, s) => reconcileAll request published later s
  | (.error e, s) => (.error e, s)

end Session

/-- The wait before the next attempt after one of some length. -/
def Settings.nextBackoff (s : Settings) (current : Nat) : Nat :=
  min (current * 2) s.maxBackoff

end LabLease.Exporter
