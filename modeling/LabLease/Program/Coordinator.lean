/-
The program that runs a coordinator, until it is interrupted.
-/
import LabLease.Program.Effect
import LabLease.Server.Switchboard

namespace LabLease.Program

open Server (Switchboard)

structure CoordinatorRun where
  settings : Coordinator.Settings
  board : Switchboard
  /-- When the next sweep is due. -/
  nextSweep : Nat

/-- What is done for one peer. -/
def effectsOf (d : Server.Dispatch) : List Effect :=
  d.frames.map (fun f => .send d.peer (frameLine f.json))
    ++ if d.hangUp then [.hangUp d.peer] else []

namespace CoordinatorRun

def start (settings : Coordinator.Settings) (cause : String → String)
    (now : Moment) : List Effect × CoordinatorRun :=
  ([.listen settings.listen],
    ⟨settings, .new settings cause, now.ticks + settings.sweepInterval⟩)

/-- Does what has come of something, and sends what waits since then. -/
def settle (r : CoordinatorRun) (now : Moment)
    (out : List Server.Dispatch × Switchboard) :
    List Effect × CoordinatorRun :=
  let (more, board) := out.2.flush now
  ((out.1 ++ more).flatMap effectsOf, { r with board })

/-- Sweeps when it is due. -/
def sweep (r : CoordinatorRun) (now : Moment) : CoordinatorRun :=
  if now.ticks < r.nextSweep then r
  else
    { r with
      board := r.board.sweep now
      nextSweep := now.ticks + r.settings.sweepInterval }

def step (r : CoordinatorRun) (now : Moment) :
    Occurrence → List Effect × CoordinatorRun
  | .listening address =>
    ([.print s!"Coordinator listening on {address}"], r)
  | .notListening cause =>
    let f := Failure.of cause
    let text := s!"Failed to bind {r.settings.listen}"
    ([.finish (.failure (f.during text))], r)
  | .accepted peer => ([], { r with board := r.board.accept peer })
  | .received peer octets => r.settle now (r.board.receive peer now octets)
  | .sent peer => r.settle now ([], r.board.sent peer)
  | .ended peer => r.settle now (r.board.ended peer now)
  | .timePassed =>
    let r := r.sweep now
    r.settle now ([], r.board)
  | .interrupted =>
    let (effects, r) := r.settle now ([], r.board.shutdown)
    (effects ++ [.print "Coordinator stopped", .finish .success], r)
  | .connected _ | .notConnected .. => ([], r)

end CoordinatorRun

end LabLease.Program
