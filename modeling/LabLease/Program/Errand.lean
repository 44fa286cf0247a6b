/-
The program that runs one command of a client: it establishes a session,
asks for what the command is about, reports the answer and leaves. Some
commands go on until they are interrupted.
-/
import LabLease.Client.Session
import LabLease.Command.Report

namespace LabLease

/-- What a command asks of the coordinator. -/
def Command.Subcommand.operation? : Command.Subcommand → Option Operation
  | .places name tags free held =>
    let wanted := if free then some true else if held then some false else none
    some (.listPlaces ⟨name, .ofList tags, wanted⟩)
  | .resources pattern => some (.listResources pattern)
  | .reservations => some .listReservations
  | .sessions => some .listSessions
  | .createPlace place patterns tags =>
    some (.createPlace place patterns (.ofList tags))
  | .deletePlace place => some (.deletePlace place)
  | .addMatch place pattern => some (.addMatch place pattern)
  | .deleteMatch place pattern => some (.deleteMatch place pattern)
  | .setTags place tags => some (.setTags place (.ofList tags))
  | .setComment place comment => some (.setComment place comment)
  | .acquire place _ => some (.acquire place)
  | .release place force => some (.release place force)
  | .reserve filters priority _ _ =>
    some (.createReservation filters priority)
  | .cancelReservation id => some (.cancelReservation id)
  | .coordinator _ | .exporter _ | .monitor => none

namespace Program

open Client (Notice)

/-- What a client waits for. -/
inductive Phase where
  /-- To be established. -/
  | entering
  /-- The answer to what its command asks. -/
  | asking (request : Nat)
  /-- To give back what it holds, at some instant or when interrupted. -/
  | holding (place : String) (deadline : Option Nat)
  | releasing (request : Nat) (place : String)
  /-- Resources for a reservation, which it asks for from time to time. -/
  | queuing (id : String) (deadline nextPoll : Nat) (poll : Option Nat)
  /-- Whatever the coordinator sends. -/
  | monitoring
  /-- The answer to its good-bye. -/
  | leaving (request : Nat) (ending : Ending)

structure Errand where
  command : Command.Subcommand
  format : Command.Format
  session : Client.Session
  phase : Phase

namespace Errand

abbrev Step := List Effect × Errand

-- ================================================================ ending

/-- Says good-bye, as long as there is somebody to say it to. -/
def leave (e : Errand) (now : Moment) (ending : Ending) : Step :=
  match e.session.ask .disconnect now with
  | some (id, effect, session) =>
    ([effect], { e with session, phase := .leaving id ending })
  | none => ([.finish ending], e)

def fail (e : Errand) (now : Moment) (f : Failure) : Step :=
  e.leave now (.failure f)

/-- Prints lines and leaves. -/
def report (e : Errand) (now : Moment) (lines : List String) : Step :=
  let (effects, e) := e.leave now .success
  (lines.map .print ++ effects, e)

/-- Gives back what it holds. -/
def release (e : Errand) (now : Moment) (place : String) : Step :=
  match e.session.ask (.release place false) now with
  | some (id, effect, session) =>
    ([effect], { e with session, phase := .releasing id place })
  | none => e.fail now (.ofRefusal .closed)

-- =============================================================== queuing

/-- Goes on when it is settled what becomes of a reservation. -/
def settle (e : Errand) (now : Moment)
    (outcome : Except Failure Reservation) : Step :=
  match outcome with
  | .ok r =>
    e.report now (e.format.lines r.json (Command.Report.reservation r))
  | .error f => e.fail now f

/-- Looks whether a reservation is settled as far as the replica knows,
and asks for it or gives up when that is due. -/
def queue (e : Errand) (now : Moment) : Step :=
  match e.phase with
  | .queuing id deadline nextPoll none =>
    match (e.session.replica.reservations.get? id).bind Client.settled? with
    | some outcome => e.settle now outcome
    | none =>
      if nextPoll ≤ now.ticks then
        match e.session.ask (.pollReservation id) now with
        | some (request, effect, session) =>
          let next := now.ticks + e.session.settings.pollInterval
          ([effect],
            { e with session, phase := .queuing id deadline next request })
        | none =>
          let f := Failure.ofRefusal .closed
          e.fail now (f.during "Failed to poll reservation")
      else if deadline ≤ now.ticks then
        e.fail now (Client.timedOut id)
      else ([], e)
  | _ => ([], e)

-- =============================================================== answers

/-- Takes the answer to what its command asks. -/
def conclude (e : Errand) (now : Moment) (answer : Reply) : Step :=
  match e.command.report? e.format answer with
  | none => e.fail now Client.unexpected
  | some lines =>
    match e.command, answer with
    | .acquire place hold, _ =>
      let deadline := hold.map fun seconds => now.ticks + seconds * 1000
      let remark := s!"Holding {place}; press Ctrl-C to release"
      (lines.map .print ++ [.remark remark],
        { e with phase := .holding place deadline })
    | .reserve _ _ true timeout, .reservation r =>
      let deadline := now.ticks + timeout * 1000
      let (effects, e) :=
        queue { e with phase := .queuing r.id deadline now.ticks none } now
      (.remark s!"Waiting for reservation {r.id}" :: effects, e)
    | _, _ => e.report now lines

/-- Takes an answer, if it is the one that it waits for. -/
def takeAnswer (e : Errand) (now : Moment) (id : Nat)
    (result : Except Refusal Reply) : Step :=
  match e.phase with
  | .asking request =>
    if id ≠ request then ([], e)
    else match result with
      | .ok answer => e.conclude now answer
      | .error refusal => e.fail now (.ofRefusal refusal)
  | .releasing request place =>
    if id ≠ request then ([], e)
    else match result with
      | .ok (.place _) => e.report now [s!"Released {place}"]
      | .ok _ => e.fail now Client.unexpected
      | .error refusal => e.fail now (.ofRefusal refusal)
  | .queuing reservation deadline next (some request) =>
    if id ≠ request then ([], e)
    else match Client.polled? result with
      | some outcome => e.settle now outcome
      | none =>
        ([], { e with phase := .queuing reservation deadline next none })
  | .leaving request ending =>
    if id ≠ request then ([], e) else ([.finish ending], e)
  | _ => ([], e)

/-- Begins when the session is established. -/
def begin (e : Errand) (now : Moment) : Step :=
  match e.command.operation? with
  | none => ([], { e with phase := .monitoring })
  | some op =>
    match e.session.ask op now with
    | some (id, effect, session) =>
      ([effect], { e with session, phase := .asking id })
    | none => e.fail now (.ofRefusal .closed)

def takeNotice (e : Errand) (now : Moment) : Notice → Step
  | .effect effect => ([effect], e)
  | .established => e.begin now
  | .failed f =>
    let address := e.session.settings.coordinator
    let text := s!"Failed to reach coordinator at {address}"
    ([.finish (.failure (f.during text))], e)
  | .answer id result => e.takeAnswer now id result
  | .update u =>
    match e.phase with
    | .monitoring =>
      let (lines, remarks) := Command.reportUpdate e.format u
      (remarks.map .remark ++ lines.map .print, e)
    | _ => ([], e)

def takeNotices (e : Errand) (now : Moment) (notices : List Notice) :
    Step :=
  notices.foldl (fun (out, e) n =>
    let (effects, e) := e.takeNotice now n
    (out ++ effects, e)) ([], e)

-- =============================================================== running

def start (command : Command.Subcommand) (format : Command.Format)
    (settings : Client.Settings) (now : Moment) : Step :=
  let (notices, session) := Client.Session.start settings now
  takeNotices { command, format, session, phase := .entering } now notices

/-- What an interrupt does. Unless something is held or watched, it ends
the program at once. -/
def interrupt (e : Errand) (now : Moment) : Step :=
  match e.phase with
  | .holding place _ => e.release now place
  | .monitoring => e.leave now .success
  | .releasing .. | .leaving .. => ([], e)
  | _ => ([.finish .interrupted], e)

/-- What has come due on its own. -/
def wake (e : Errand) (now : Moment) : Step :=
  match e.phase with
  | .holding place (some deadline) =>
    if now.ticks < deadline then ([], e) else e.release now place
  | .queuing .. => e.queue now
  | _ => ([], e)

def step (e : Errand) (now : Moment) (o : Occurrence) : Step :=
  match o with
  | .interrupted => e.interrupt now
  | o =>
    let (notices, session) := e.session.step now o
    let (effects, e) := takeNotices { e with session } now notices
    let (more, e) := e.wake now
    (effects ++ more, e)

end Errand

end Program

end LabLease
