/-
Sessions: the peers that are connected to a coordinator, as exporters
that publish resources or as clients that lease them.
-/
import LabLease.Time.Timestamp

namespace LabLease

/-- Sessions are numbered from 1 in the order of their registration. -/
abbrev SessionId := Nat

/-- The label of a session in texts. -/
def SessionId.label (id : SessionId) : String := s!"s{id}"

/-- What a peer does. -/
inductive Role where
  | exporter
  | client
deriving DecidableEq, Repr

namespace Role

def word : Role → String
  | .exporter => "exporter"
  | .client => "client"

/-- Reads a role in letters of either case. No character outside ASCII
has one of these letters as its lower case. -/
def parse (s : String) : Except String Role :=
  match s.toLower with
  | "exporter" => .ok .exporter
  | "client" => .ok .client
  | _ => .error s!"Unknown role: {s}"

end Role

/-- The client that holds a place or owns a reservation. -/
structure Holder where
  name : String
  session : SessionId
deriving DecidableEq, Repr

/-- A session as listings show it. -/
structure SessionInfo where
  id : SessionId
  name : String
  role : Role
  connected : Timestamp
deriving DecidableEq

end LabLease
