/-
The state of the coordinator and the cascades in it. Every change of a
resource, place or reservation is put into the journal, so that whoever
follows the events knows the state. Whatever may have freed a resource
ends with a rescan of the queue.
-/
import LabLease.Coordinator.Journal
import LabLease.Coordinator.Settings
import LabLease.Lease.Request
import LabLease.Registry.Places
import LabLease.Registry.Queue
import LabLease.Registry.Roster

namespace LabLease

def ResourceChange.toChange : ResourceChange → Change
  | .upserted r => .resource r
  | .removed id => .resourceRemoved id

namespace Coordinator

structure State where
  settings : Settings
  inventory : Inventory
  places : Places
  queue : Queue
  roster : Roster
  journal : Journal
  /-- Events that have not been sent out yet. -/
  pending : List Event
  /-- Sessions to be told that they have ended, and why. -/
  notices : List (SessionId × String)
  /-- Since when acquired places have missed resources, as far as sweeps
  have seen. -/
  incompleteSince : Table String Nat
  evictions : Nat
deriving DecidableEq

namespace State

def new (settings : Settings) : State :=
  { settings
    inventory := .empty
    places := .empty
    queue := .new settings.reservationGrace settings.reservationPollTimeout
    roster := .new settings.sessionTimeout
    journal := .new settings.eventRetention
    pending := []
    notices := []
    incompleteSince := .empty
    evictions := 0 }

-- =============================================================== events

def emit (s : State) (change : Change) : State :=
  let (e, journal) := s.journal.append change
  { s with journal, pending := s.pending ++ [e] }

def emitAll (s : State) (changes : List Change) : State :=
  changes.foldl emit s

def emitReservations (s : State) (rs : List Reservation) : State :=
  s.emitAll (rs.map .reservation)

/-- Emits the views of some places as they are now. -/
def emitPlaces (s : State) (names : List String) : State :=
  names.foldl (fun s name =>
    match s.places.view s.inventory name with
    | .ok view => s.emit (.place view)
    | .error _ => s) s

def notify (s : State) (session : SessionId) (reason : String) : State :=
  { s with notices := s.notices ++ [(session, reason)] }

-- ========================================================= reservations

/-- Whether a resource can be set aside: nobody has it and its exporter
is connected. -/
def isFree (s : State) (r : Resource) : Bool :=
  !r.acquired && !s.places.isBound r.id
    && s.roster.isLiveExporter r.id.exporter

/-- Serves waiting reservations, those to be skipped excepted. -/
def rescan (s : State) (now : Moment) (skip : List String) : State :=
  let (changed, queue) := s.queue.rescan s.inventory s.isFree skip now
  { s with queue }.emitReservations changed

-- ============================================================ resources

/-- Sets the flag of some resources. -/
def markAcquired (s : State) (ids : List ResourceId) (acquired : Bool) :
    State :=
  ids.foldl (fun s id =>
    match s.inventory.setAcquired id acquired with
    | (inventory, some change) =>
      { s with inventory }.emit change.toChange
    | (_, none) => s) s

/-- Takes over one change of the inventory. A resource that comes back
while an acquired place has it bound is acquired again. -/
def applyChange (owner : SessionId) (s : State)
    (change : ResourceChange) : State :=
  let (inventory, change) := match change with
    | .upserted r =>
      if !r.acquired && s.places.isBound r.id then
        match s.inventory.setAcquired r.id true with
        | (inventory, some marked) => (inventory, marked)
        | (inventory, none) => (inventory, change)
      else (s.inventory, change)
    | .removed _ => (s.inventory, change)
  let record (o : Session) : Session := match change with
    | .upserted r => { o with resources := o.resources.insert r.id () }
    | .removed id => { o with resources := o.resources.erase id }
  { s with inventory, roster := s.roster.edit owner record }.emit
    change.toChange

/-- Takes over what became of the inventory: places show it, allocations
that lost a resource go back to waiting, and others may be served. -/
def applyChanges (s : State) (owner : SessionId)
    (changes : List ResourceChange) (now : Moment) : State :=
  if changes.isEmpty then s
  else
    let s := changes.foldl (applyChange owner) s
    let s := s.emitPlaces (s.places.affectedBy (changes.map (·.id)))
    let removed := changes.filterMap fun
      | .removed id => some id
      | .upserted _ => none
    let (invalidated, queue) := s.queue.invalidate removed
    let s := { s with queue }.emitReservations invalidated
    s.rescan now []

-- ============================================================= releases

/-- What follows the release of a place: its resources are free and its
holder's record, if there is one to change, no longer lists it. -/
def finishRelease (s : State) (place : String) (holder : Option Holder)
    (freed : List ResourceId) (now : Moment) : State :=
  let s := s.markAcquired freed false
  let roster := match holder with
    | some h => s.roster.edit h.session fun o =>
      { o with places := o.places.erase place }
    | none => s.roster
  let incompleteSince := s.incompleteSince.erase place
  let s := { s with roster, incompleteSince }.emitPlaces [place]
  s.rescan now []

/-- Releases a place whoever holds it. -/
def releaseFrom (s : State) (place : String) (session : SessionId)
    (holder : Option Holder) (now : Moment) : State :=
  match s.places.release place session true now.date with
  | .ok (freed, places) =>
    { s with places }.finishRelease place holder freed now
  | .error _ => s

-- ============================================================= sessions

/-- What follows the end of a session: its resources go, the places it
holds are released and its reservations end. -/
def teardown (s : State) (session : SessionId) (now : Moment) : State :=
  let (inventory, changes) := s.inventory.removeOwner session
  let s := { s with inventory }.applyChanges session changes now
  let s := (s.places.heldBy session).foldl
    (fun s place => s.releaseFrom place session none now) s
  let (cancelled, queue) := s.queue.removeSession session
  let s := { s with queue }.emitReservations cancelled
  s.rescan now []

/-- Ends a session. -/
def endSession (s : State) (session : SessionId) (now : Moment) : State :=
  { s with roster := s.roster.remove session }.teardown session now

-- ============================================================== queries

def isLive (s : State) (session : SessionId) : Bool :=
  s.roster.isLive session

def eventNumber (s : State) : Nat := s.journal.last

def snapshot (s : State) : Snapshot :=
  { eventNumber := s.journal.last
    resources := s.inventory.all
    places := s.places.views s.inventory
    reservations := s.queue.list }

/-- How a subscription starts. -/
inductive Start where
  /-- With the events that were missed. -/
  | replay (events : List Event)
  /-- With everything. -/
  | resync (snapshot : Snapshot)
deriving DecidableEq

/-- The start of a subscription of a peer that has applied all events up
to a number, or none. -/
def subscribe (s : State) (lastEvent : Option Nat) : Start :=
  match lastEvent with
  | none => .resync s.snapshot
  | some n =>
    match s.journal.since n with
    | .ok events => .replay events
    | .error _ => .resync s.snapshot

/-- The counts that the state itself knows. -/
def metrics (s : State) : Metrics :=
  { exporters := s.roster.count .exporter
    clients := s.roster.count .client
    resources := s.inventory.size
    places := s.places.size
    acquiredPlaces := (s.places.all.filter (·.isAcquired)).length
    reservations := s.queue.size
    eventNumber := s.journal.last
    subscribers := 0
    messagesReceived := 0
    eventsSent := 0
    droppedSubscribers := 0
    evictions := s.evictions }

end State

end Coordinator

end LabLease
