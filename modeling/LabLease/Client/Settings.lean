/-
What can be set about a client. Intervals are in milliseconds.
-/
import LabLease.Coordinator.Settings

namespace LabLease.Client

structure Settings where
  /-- The name that it registers under and holds places by. -/
  name : String
  /-- The address of the coordinator. -/
  coordinator : String := ({} : Coordinator.Settings).listen
  heartbeatIntervalMs : Nat := 10000
  requestTimeoutMs : Nat := 10000
  /-- How often it asks for a reservation that it waits for. -/
  pollIntervalMs : Nat := 10000
  /-- How often it tries to connect anew; never, if zero. -/
  reconnectAttempts : Nat := 5
  /-- How long it waits before it connects anew the first time. -/
  reconnectBackoffMs : Nat := 500
deriving DecidableEq, Repr

namespace Settings

def heartbeatInterval (s : Settings) : Nat := max s.heartbeatIntervalMs 1

def requestTimeout (s : Settings) : Nat := s.requestTimeoutMs

def pollInterval (s : Settings) : Nat := max s.pollIntervalMs 1

def reconnectBackoff (s : Settings) : Nat := s.reconnectBackoffMs

end Settings

end LabLease.Client
