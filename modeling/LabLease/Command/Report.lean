/-
What the program tells its user: results in lines of text or as JSON,
events as they come in, and failures with their causes.
-/
import LabLease.Client.Agent
import LabLease.Command.Invocation
import LabLease.Wire.Frame

namespace LabLease

namespace Command

open Json (Value)

-- =============================================================== wording

namespace Report

/-- A text with blanks behind it up to a width. -/
def padded (width : Nat) (s : String) : String :=
  s ++ .ofList (List.replicate (width - s.length) ' ')

def status (v : PlaceView) : String :=
  match v.place.holder with
  | some h =>
    if v.isIncomplete then s!"acquired by {h.name} (incomplete)"
    else s!"acquired by {h.name}"
  | none => "free"

/-- A place: its status, and what there is to say about it. -/
def place (v : PlaceView) : List String :=
  let p := v.place
  let comment := if p.comment.isEmpty then [] else [s!"  comment: {p.comment}"]
  let pairs := p.tags.entries.map fun (key, value) => s!"{key}={value}"
  let tags := if pairs.isEmpty then []
    else ["  tags: " ++ " ".intercalate pairs]
  let patterns := p.patterns.map fun m => s!"  match: {m.text}"
  let bound := p.bound.map fun id =>
    s!"  bound: {id.text}" ++ if v.missing.contains id then " (missing)" else ""
  s!"{p.name} {status v}" :: comment ++ tags ++ patterns ++ bound

def availability (r : Resource) : String :=
  if r.acquired then "acquired" else "available"

def resource (r : Resource) : String := s!"{r.id.text} {availability r}"

/-- A reservation and what is set aside for it. -/
def reservation (r : Reservation) : List String :=
  let filters := ", ".intercalate (r.filters.map (·.text))
  let owner := r.owner.name
  s!"{r.id} {r.state.word} prio={r.priority} owner={owner} [{filters}]"
    :: r.allocations.map fun id => s!"  allocated: {id.text}"

/-- A session in columns. -/
def session (s : SessionInfo) : String :=
  " ".intercalate [padded 6 (SessionId.label s.id), padded 10 s.role.word,
    padded 24 s.name, "since", s.connected.textWithOffset]

/-- What has become of something, after the number of the event. -/
def event (e : Event) : String :=
  s!"#{e.seq} " ++ match e.change with
    | .resource r => s!"resource {r.id.text} {availability r}"
    | .resourceRemoved id => s!"resource {id.text} removed"
    | .place v =>
      let holder := match v.place.holder with
        | some h => h.name
        | none => "free"
      s!"place {v.place.name} {holder}"
    | .placeDeleted name => s!"place {name} deleted"
    | .reservation r => s!"reservation {r.id} {r.state.word}"

end Report

-- =============================================================== results

/-- A result in the lines of a format. -/
def Format.lines (f : Format) (json : Value) (text : List String) :
    List String :=
  match f with
  | .text => text
  | .json => [json.renderIndented]

/-- The lines that report the answer to a command; none if it is not the
answer that belongs to it. -/
def Subcommand.report? (c : Subcommand) (f : Format) :
    Reply → Option (List String)
  | .ack =>
    match c with
    | .deletePlace name => some [s!"Deleted place {name}"]
    | _ => none
  | .places vs =>
    match c with
    | .places .. =>
      some (f.lines (.list PlaceView.json vs) (vs.flatMap Report.place))
    | _ => none
  | .place v =>
    match c with
    | .createPlace .. | .addMatch .. | .deleteMatch .. | .setTags ..
    | .setComment .. | .acquire .. | .release .. =>
      some (f.lines v.json (Report.place v))
    | _ => none
  | .resources rs =>
    match c with
    | .resources _ =>
      some (f.lines (.list Resource.json rs) (rs.map Report.resource))
    | _ => none
  | .reservations rs =>
    match c with
    | .reservations =>
      some (f.lines (.list Reservation.json rs)
        (rs.flatMap Report.reservation))
    | _ => none
  | .reservation r =>
    match c with
    | .reserve .. | .cancelReservation _ =>
      some (f.lines r.json (Report.reservation r))
    | _ => none
  | .sessions ss =>
    match c with
    | .sessions =>
      some (f.lines (.list SessionInfo.json ss) (ss.map Report.session))
    | _ => none
  | _ => none

/-- What is told about an update: lines of the output, and lines beside
it. -/
def reportUpdate (f : Format) :
    Client.Update → List String × List String
  | .events events =>
    let line : Event → String := fun e =>
      match f with
      | .text => Report.event e
      | .json => e.json.render
    (events.map line, [])
  | .resync n => ([], [s!"resync: state resynchronized at event {n}"])
  | .reconnected last =>
    let after := match last with
      | some n => s!"Some({n})"
      | none => "None"
    ([], [s!"reconnected: resuming after event {after}"])

end Command

-- ============================================================== failures

namespace Failure

/-- The texts of causes, each with its number if there is more than
one. -/
def causeLines (causes : List String) : List String :=
  match causes with
  | [cause] => ["    " ++ cause]
  | _ => causes.zipIdx.map fun (cause, n) =>
    let number := toString n
    .ofList (List.replicate (4 - number.length) ' ') ++ s!"{number}: {cause}"

/-- A failure as it ends the program. -/
def report (f : Failure) : List String :=
  match f.causes with
  | [] => ["Error: "]
  | [text] => [s!"Error: {text}"]
  | text :: causes =>
    [s!"Error: {text}", "", "Caused by:"] ++ causeLines causes

end Failure

end LabLease
