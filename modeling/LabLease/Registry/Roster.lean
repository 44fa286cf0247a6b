/-
The roster: one record per session that is live. A name is used by one
session at a time, and numbers are never used again.
-/
import LabLease.Refusal
import LabLease.Resource.Basic
import LabLease.Session
import LabLease.Time.Timestamp

namespace LabLease

/-- A live session. -/
structure Session where
  id : SessionId
  name : String
  role : Role
  connected : Timestamp
  /-- When it was last heard from. -/
  lastSeen : Nat
  /-- The resources that an exporter publishes. -/
  resources : Table ResourceId Unit
  /-- The places that a client holds. -/
  places : Table String Unit
deriving DecidableEq

def Session.info (s : Session) : SessionInfo :=
  ⟨s.id, s.name, s.role, s.connected⟩

/-- The live sessions by number, and which number uses a name. -/
structure Roster where
  sessions : Table SessionId Session
  names : Table String SessionId
  /-- The number given last. -/
  lastId : Nat
  /-- How long a session may stay silent. -/
  timeout : Nat
deriving DecidableEq

namespace Roster

def new (timeout : Nat) : Roster := ⟨.empty, .empty, 0, timeout⟩

-- ============================================================== queries

def stale (id : SessionId) : Refusal :=
  .staleSession s!"session {SessionId.label id} is not registered"

def get (r : Roster) (id : SessionId) : Except Refusal Session :=
  match r.sessions.get? id with
  | some s => .ok s
  | none => .error (stale id)

def all (r : Roster) : List Session := r.sessions.values

def isLive (r : Roster) (id : SessionId) : Bool := r.sessions.contains id

/-- The session that uses a name. -/
def named? (r : Roster) (name : String) : Option Session := do
  r.sessions.get? (← r.names.get? name)

/-- Whether an exporter of this name is connected. -/
def isLiveExporter (r : Roster) (name : String) : Bool :=
  (r.named? name).any (·.role = .exporter)

/-- The sessions that have been silent for longer than allowed, the most
silent first. -/
def expired (r : Roster) (now : Moment) : List SessionId :=
  let silent := r.all.filter fun s => r.timeout < now.since s.lastSeen
  (silent.mergeSort fun s t =>
    s.lastSeen < t.lastSeen || s.lastSeen = t.lastSeen && s.id ≤ t.id).map
      (·.id)

def list (r : Roster) : List SessionInfo := r.all.map (·.info)

def count (r : Roster) (role : Role) : Nat :=
  (r.all.filter (·.role = role)).length

def size (r : Roster) : Nat := r.sessions.size

def isEmpty (r : Roster) : Bool := r.sessions.isEmpty

-- ============================================================== changes

/-- A name is not empty and holds no slash. -/
def isName (name : String) : Bool :=
  !name.isEmpty && !name.toList.contains '/'

def register (r : Roster) (name : String) (role : Role) (now : Moment) :
    Except Refusal (SessionId × Roster) :=
  if !isName name then
    .error (.invalidRequest s!"invalid peer name '{name}'")
  else if r.names.contains name then
    .error (.alreadyExists s!"session '{name}'")
  else
    let id := r.lastId + 1
    let s : Session :=
      { id, name, role, connected := now.date, lastSeen := now.ticks
        resources := .empty, places := .empty }
    .ok (id, { r with
      sessions := r.sessions.insert id s
      names := r.names.insert name id
      lastId := id })

/-- Notes that a session was heard from. -/
def heartbeat (r : Roster) (id : SessionId) (now : Moment) :
    Except Refusal Roster := do
  let s ← r.get id
  let s := { s with lastSeen := now.ticks }
  return { r with sessions := r.sessions.insert id s }

/-- Changes the record of a session, if it is live. -/
def edit (r : Roster) (id : SessionId) (f : Session → Session) : Roster :=
  { r with sessions := r.sessions.adjust id f }

/-- Strikes a session off, and its name with it. -/
def remove (r : Roster) (id : SessionId) : Roster :=
  match r.sessions.get? id with
  | some s => { r with
      sessions := r.sessions.erase id
      names := r.names.erase s.name }
  | none => r

end Roster

end LabLease
