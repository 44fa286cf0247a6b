/-
What can be set about an exporter. Intervals are in milliseconds.
-/
import LabLease.Coordinator.Settings
import LabLease.Resource.Basic

namespace LabLease.Exporter

structure Settings where
  /-- The name that it registers under and that its resources bear. -/
  name : String
  /-- The address of the coordinator. -/
  coordinator : String := ({} : Coordinator.Settings).listen
  heartbeatIntervalMs : Nat := 10000
  /-- How often it looks for changes of what it has. -/
  reconcileIntervalMs : Nat := 30000
  requestTimeoutMs : Nat := 10000
  /-- How long it waits before it connects anew the first time. -/
  reconnectBackoffMs : Nat := 500
  maxBackoffMs : Nat := 30000
  /-- What it has, as far as that is written down. -/
  resources : List ResourceSpec := []

namespace Settings

def heartbeatInterval (s : Settings) : Nat := max s.heartbeatIntervalMs 1

def reconcileInterval (s : Settings) : Nat := max s.reconcileIntervalMs 1

def requestTimeout (s : Settings) : Nat := s.requestTimeoutMs

def reconnectBackoff (s : Settings) : Nat := s.reconnectBackoffMs

/-- The longest wait is no shorter than the first. -/
def maxBackoff (s : Settings) : Nat := max s.maxBackoffMs s.reconnectBackoffMs

end Settings

end LabLease.Exporter
