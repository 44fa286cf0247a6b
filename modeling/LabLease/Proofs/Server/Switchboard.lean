/-
What happens at the connections of a coordinator over its time, and what
each peer is sent.

A request that comes in whole is executed and answered at once
(`receive_request`), whoever else is connected.
-/
import LabLease.Proofs.Server.Connection
import LabLease.Proofs.Wire.RoundTrip
import LabLease.Server.Switchboard

namespace LabLease.Server

open Coordinator (Hub)

/-- The frames that are for one peer. -/
def framesTo (peer : Nat) (dispatches : List Dispatch) :
    List ServerFrame :=
  (dispatches.filter (·.peer = peer)).flatMap (·.frames)

theorem framesTo_append (peer : Nat) (dispatches more : List Dispatch) :
    framesTo peer (dispatches ++ more)
      = framesTo peer dispatches ++ framesTo peer more := by
  unfold framesTo
  rw [List.filter_append, List.flatMap_append]

namespace Switchboard

/-- Whatever can happen at the connections of a coordinator. -/
inductive Input where
  | accept (peer : Nat)
  | receive (peer : Nat) (now : Moment) (octets : List UInt8)
  | ended (peer : Nat) (now : Moment)
  | sent (peer : Nat)
  | flush (now : Moment)
  | sweep (now : Moment)
  | shutdown

/-- What is sent on an input, and what is left. -/
def step (b : Switchboard) : Input → List Dispatch × Switchboard
  | .accept peer => ([], b.accept peer)
  | .receive peer now octets => b.receive peer now octets
  | .ended peer now => b.ended peer now
  | .sent peer => ([], b.sent peer)
  | .flush now => b.flush now
  | .sweep now => ([], b.sweep now)
  | .shutdown => ([], b.shutdown)

/-- What is sent on some inputs in turn, and what is left. -/
def run (b : Switchboard) : List Input → List Dispatch × Switchboard
  | [] => ([], b)
  | input :: inputs =>
    let (dispatches, b) := b.step input
    let (more, b) := run b inputs
    (dispatches ++ more, b)

theorem framesTo_run_cons {b b' : Switchboard} {input : Input}
    {dispatches : List Dispatch} (h : b.step input = (dispatches, b'))
    (inputs : List Input) (peer : Nat) :
    framesTo peer (b.run (input :: inputs)).1
      = framesTo peer dispatches ++ framesTo peer (b'.run inputs).1 := by
  have hrun : (b.run (input :: inputs)).1
      = (b.step input).1 ++ ((b.step input).2.run inputs).1 := rfl
  rw [hrun, h, framesTo_append]

end Switchboard

-- ============================================================== requests

namespace Connection

/-- The request by which a session begins. -/
theorem step_register (cause : String → String) (h : Hub) (now : Moment)
    {s : String} {id : Nat} {name : String} {role : Role}
    (hparse : parseFrame RequestFrame.ofJson? s
      = .ok ⟨id, .register name role⟩) {session : SessionId} {number : Nat}
    (hok : (h.register name role h.mailboxCapacity now).1
      = .ok (session, number)) :
    Connection.greeting.step cause h now (.line (.line s))
      = ([.ofResult id (.ok (.registered session number))],
        .serving session,
        (h.register name role h.mailboxCapacity now).2) := by
  have hgreet : greet cause h now s
      = (.ofResult id (.ok (.registered session number)), .serving session,
        (h.register name role h.mailboxCapacity now).2) := by
    unfold greet
    rw [hparse]
    dsimp only
    generalize h.register name role h.mailboxCapacity now = out at hok ⊢
    obtain ⟨r, h'⟩ := out
    cases hok
    rfl
  unfold step react
  dsimp only
  rw [hgreet]

end Connection

namespace Switchboard

variable {b : Switchboard} {busy : Bool} (peer : Nat) (now : Moment)

/-- A frame that fits and comes in whole is taken as one line. -/
theorem receive_frame {c c' : Connection} {v : Json.Value}
    {frames : List ServerFrame} {hub : Hub}
    (hport : b.ports.get? peer = some { connection := c, busy })
    (hfits : FitsLine v)
    (hstep : c.step b.cause b.hub now (.line (.line v.render))
      = (frames, c', hub))
    (hopen : c' ≠ .closed) (hanswered : frames.isEmpty = false) :
    b.step (.receive peer now (frameOctets [v]))
      = ([⟨peer, frames, false⟩],
        ⟨hub, b.ports.insert peer { connection := c', busy := true },
          b.cause⟩) := by
  have hline : LineReader.feedAll { limit := maxFrameSize }
      (frameOctets [v])
      = ({ limit := maxFrameSize }, [.line v.render]) :=
    feedAll_frames [v] (List.forall_mem_singleton.2 hfits)
  have hrun : c.run b.cause b.hub now ([.line v.render].map .line)
      = (frames, c', hub) := by
    rw [List.map_singleton]
    unfold Connection.run
    rw [hstep]
    exact congrArg (·, c', hub) (List.append_nil frames)
  unfold step receive
  dsimp only
  rw [hport]
  dsimp only
  rw [hline]
  unfold feed
  dsimp only
  rw [hrun]
  unfold settle
  dsimp only
  rw [if_neg hopen, hanswered, if_neg Bool.false_ne_true]

theorem receive_register {id : Nat} {name : String} {role : Role}
    (hport : b.ports.get? peer = some { busy })
    (hfits : FitsLine (RequestFrame.json ⟨id, .register name role⟩))
    {session : SessionId} {number : Nat}
    (hok : (b.hub.register name role b.hub.mailboxCapacity now).1
      = .ok (session, number)) :
    b.step (.receive peer now (frameOctets
        [RequestFrame.json ⟨id, .register name role⟩]))
      = ([⟨peer, [.response id (.registered session number)], false⟩],
        ⟨(b.hub.register name role b.hub.mailboxCapacity now).2,
          b.ports.insert peer
            { connection := .serving session, busy := true }, b.cause⟩) :=
  receive_frame peer now hport hfits
    (Connection.step_register b.cause b.hub now
      (RequestFrame.parse_render (f := ⟨id, .register name role⟩) trivial
        hfits) hok) nofun rfl

/-- A request of a session is executed and answered, unless it ends it. -/
theorem receive_request {session : SessionId} {f : RequestFrame}
    (hport : b.ports.get? peer
      = some { connection := .serving session, busy })
    (hproper : f.Proper) (hfits : FitsLine f.json)
    (hstays : f.request ≠ .disconnect) :
    b.step (.receive peer now (frameOctets [f.json]))
      = ([⟨peer, [.ofResult f.id (b.hub.call session f.request now).1],
          false⟩],
        ⟨(b.hub.call session f.request now).2, b.ports.insert peer
          { connection := .serving session, busy := true }, b.cause⟩) :=
  receive_frame peer now hport hfits
    (Connection.step_request b.cause b.hub now session
      (RequestFrame.parse_render hproper hfits) hstays) nofun rfl

end Switchboard

end LabLease.Server
