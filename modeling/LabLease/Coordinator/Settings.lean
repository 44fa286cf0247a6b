/-
What can be set about a coordinator. Intervals are kept in the unit in
which they are written and converted to milliseconds here.
-/
namespace LabLease.Coordinator

structure Settings where
  /-- The address to listen on. -/
  listen : String := "127.0.0.1:20408"
  /-- How often a peer is expected to be heard from. -/
  heartbeatIntervalMs : Nat := 10000
  /-- How many such intervals a peer may stay silent. -/
  graceFactor : Nat := 3
  sweepIntervalMs : Nat := 1000
  /-- How many events are kept for replay. -/
  eventRetention : Nat := 10000
  /-- How many pushes may wait for a session. -/
  sessionQueue : Nat := 1024
  /-- How long resources stay set aside for a reservation. -/
  reservationGraceSecs : Nat := 300
  /-- How long a waiting reservation lives without being asked for. -/
  reservationPollTimeoutSecs : Nat := 60
  /-- How long an acquired place may miss resources, if that is
  limited. -/
  orphanedPlaceReleaseSecs : Option Nat := none
  /-- Whether a client may release the place of another. -/
  allowForceRelease : Bool := true
  channelBuffer : Nat := 1000
deriving DecidableEq, Repr

namespace Settings

/-- How long a session may stay silent. -/
def sessionTimeout (s : Settings) : Nat :=
  s.heartbeatIntervalMs * max s.graceFactor 1

def sweepInterval (s : Settings) : Nat := max s.sweepIntervalMs 1

def reservationGrace (s : Settings) : Nat := s.reservationGraceSecs * 1000

def reservationPollTimeout (s : Settings) : Nat :=
  s.reservationPollTimeoutSecs * 1000

def orphanLimit (s : Settings) : Option Nat :=
  s.orphanedPlaceReleaseSecs.map (· * 1000)

end Settings

end LabLease.Coordinator
