/-
What sessions can have the coordinator do. An action works on the state
step by step, and a refusal leaves behind what was done before it.
-/
import LabLease.Coordinator.State

namespace LabLease.Coordinator

/-- A step of the coordinator that may be refused. -/
abbrev Action (α : Type) := ExceptT Refusal (StateM State) α

namespace Action

variable {α : Type}

/-- The outcome of an action and the state after it. -/
def apply (a : Action α) (s : State) : Except Refusal α × State :=
  Id.run (StateT.run (ExceptT.run a) s)

/-- The action that fails or not as a computation did. -/
def ofExcept (r : Except Refusal α) : Action α := ExceptT.mk (pure r)

-- ================================================================ roles

/-- The record of a live session of a role. -/
def require (session : SessionId) (role : Role) (what : String) :
    Action Session := do
  let o ← ofExcept ((← get).roster.get session)
  if o.role ≠ role then
    throw (.invalidRequest s!"{o.role.word} sessions cannot {what}")
  return o

/-- A client as the holder of what it asks for. -/
def holder (session : SessionId) (what : String) : Action Holder := do
  let o ← require session .client what
  return ⟨o.name, session⟩

-- ============================================================= sessions

/-- Registers a peer. A session under the same name ends first. -/
def register (name : String) (role : Role) (now : Moment) :
    Action SessionId := do
  if let some old := (← get).roster.named? name then
    modify fun s => (s.notify old.id "replaced by a new session").endSession
      old.id now
  let (id, roster) ← ofExcept ((← get).roster.register name role now)
  modify fun s => { s with roster }
  return id

def disconnect (session : SessionId) (now : Moment) : Action Unit := do
  let _ ← ofExcept ((← get).roster.get session)
  modify fun s => s.endSession session now

def heartbeat (session : SessionId) (now : Moment) : Action Unit := do
  let roster ← ofExcept ((← get).roster.heartbeat session now)
  modify fun s => { s with roster }

-- ============================================================ resources

def setResources (session : SessionId) (specs : List ResourceSpec)
    (now : Moment) : Action Nat := do
  let o ← require session .exporter "publish resources"
  let (changes, inventory) ←
    ofExcept ((← get).inventory.publish o.name session specs)
  modify fun s => { s with inventory }.applyChanges session changes now
  return changes.length

def withdraw (session : SessionId) (ids : List ResourceId)
    (now : Moment) : Action Nat := do
  let _ ← require session .exporter "withdraw resources"
  let (changes, inventory) ←
    ofExcept ((← get).inventory.withdraw session ids)
  modify fun s => { s with inventory }.applyChanges session changes now
  return changes.length

-- =============================================================== places

/-- Emits the view of a place that has changed. -/
def placeChanged (name : String) : Action PlaceView := do
  let s ← get
  let view ← ofExcept (s.places.view s.inventory name)
  set (s.emit (.place view))
  return view

/-- Changes the places and emits the view of the one that changed. -/
def editPlace (session : SessionId) (name : String)
    (edit : Places → Except Refusal Places) : Action PlaceView := do
  let _ ← require session .client "edit places"
  let places ← ofExcept (edit (← get).places)
  modify fun s => { s with places }
  placeChanged name

def createPlace (session : SessionId) (name : String)
    (patterns : List ResourcePattern) (tags : Table String String)
    (now : Moment) : Action PlaceView := do
  let _ ← require session .client "create places"
  let s ← get
  let (p, places) ←
    ofExcept (s.places.create name patterns tags now.date)
  let view := p.view s.inventory
  set ({ s with places }.emit (.place view))
  return view

def deletePlace (session : SessionId) (name : String) : Action Unit := do
  let _ ← require session .client "delete places"
  let places ← ofExcept ((← get).places.delete name)
  modify fun s => { s with places }.emit (.placeDeleted name)

/-- Whether a session may bind a resource: nobody has it, its exporter is
connected and it is not set aside for another session. -/
def isAvailable (s : State) (session : SessionId) (r : Resource) : Bool :=
  !r.acquired && s.roster.isLiveExporter r.id.exporter
    && !s.queue.isAllocatedToOther r.id session

/-- Gives a place to a client. Its allocations that the binding uses are
finished by it. -/
def acquire (session : SessionId) (place : String) (now : Moment) :
    Action PlaceView := do
  let client ← holder session "acquire places"
  let s ← get
  let (bound, places) ← ofExcept <|
    s.places.acquire place client s.inventory (isAvailable s session)
      now.date
  modify fun s => { s with places }.markAcquired bound true
  modify fun s => { s with roster := s.roster.edit session fun o =>
    { o with places := o.places.insert place () } }
  let view ← placeChanged place
  let (converted, queue) := (← get).queue.convert session bound now
  if !converted.isEmpty then
    modify fun s =>
      ({ s with queue }.emitReservations converted).rescan now []
  return view

def release (session : SessionId) (place : String) (force : Bool)
    (now : Moment) : Action PlaceView := do
  let _ ← require session .client "release places"
  let s ← get
  let p ← ofExcept (s.places.get place)
  let (freed, places) ← ofExcept <|
    s.places.release place session
      (force && s.settings.allowForceRelease) now.date
  set ({ s with places }.finishRelease place p.holder freed now)
  let s ← get
  ofExcept (s.places.view s.inventory place)

-- ========================================================= reservations

def createReservation (session : SessionId)
    (filters : List ResourcePattern) (priority : Int) (now : Moment) :
    Action Reservation := do
  let owner ← holder session "create reservations"
  let (r, queue) ←
    ofExcept ((← get).queue.create owner filters priority now)
  modify fun s =>
    ({ s with queue }.emit (.reservation r)).rescan now []
  ofExcept ((← get).queue.get r.id)

def cancelReservation (session : SessionId) (id : String)
    (now : Moment) : Action Reservation := do
  let (cancelled, queue) ← ofExcept ((← get).queue.cancel id session now)
  if let some r := cancelled then
    modify fun s =>
      ({ s with queue }.emit (.reservation r)).rescan now []
  ofExcept ((← get).queue.get id)

def pollReservation (session : SessionId) (id : String) (now : Moment) :
    Action Reservation := do
  let (r, queue) ← ofExcept ((← get).queue.poll id session now)
  modify fun s => { s with queue }
  return r

-- ============================================================ operations

/-- Does what a session asks for. Asking is a sign of life, whatever the
outcome. -/
def execute (session : SessionId) (op : Operation) (now : Moment) :
    Action Reply := do
  heartbeat session now
  let date := now.date
  match op with
  | .register .. =>
    throw (.invalidRequest "session is already registered")
  | .heartbeat => return .ack
  | .disconnect => disconnect session now; return .ack
  | .setResources specs => return .published (← setResources session specs now)
  | .withdraw ids => return .published (← withdraw session ids now)
  | .listPlaces filter =>
    let s ← get
    return .places ((s.places.list filter).map (·.view s.inventory))
  | .listResources pattern =>
    let all := (← get).inventory.all
    return .resources (all.filter fun r => pattern.all (·.selects r.id))
  | .listReservations => return .reservations (← get).queue.list
  | .listSessions => return .sessions (← get).roster.list
  | .createPlace name patterns tags =>
    return .place (← createPlace session name patterns tags now)
  | .deletePlace name => deletePlace session name; return .ack
  | .addMatch name pattern =>
    return .place (← editPlace session name (·.addMatch name pattern date))
  | .deleteMatch name pattern =>
    return .place
      (← editPlace session name (·.deleteMatch name pattern date))
  | .setTags name tags =>
    return .place (← editPlace session name (·.setTags name tags date))
  | .setComment name comment =>
    return .place
      (← editPlace session name (·.setComment name comment date))
  | .acquire place => return .place (← acquire session place now)
  | .release place force =>
    return .place (← release session place force now)
  | .createReservation filters priority =>
    return .reservation
      (← createReservation session filters priority now)
  | .cancelReservation id =>
    return .reservation (← cancelReservation session id now)
  | .pollReservation id =>
    return .reservation (← pollReservation session id now)
  | .subscribe _ | .unsubscribe =>
    throw (.invalidRequest "subscriptions need a session mailbox")
  | .snapshot => return .snapshot (← get).snapshot

end Action

end LabLease.Coordinator
