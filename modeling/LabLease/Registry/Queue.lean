/-
The queue of reservations. Waiting reservations are served by rank,
priority first and arrival second, each as a whole or not at all; what
is set aside for one comes back when its owner does not acquire in time.
-/
import LabLease.Lease.Reservation
import LabLease.Refusal
import LabLease.Registry.Inventory
import LabLease.Time.Timestamp

namespace LabLease

/-- A stored reservation and its deadlines. -/
structure QueueEntry where
  reservation : Reservation
  /-- Its position among all arrivals. -/
  arrival : Nat
  /-- When an allocation lapses. -/
  graceDeadline : Option Nat
  /-- When a waiting reservation expires. -/
  pollDeadline : Nat
  /-- When a finished reservation is forgotten. -/
  retireAt : Option Nat
deriving DecidableEq

namespace QueueEntry

def id (e : QueueEntry) : String := e.reservation.id

def isWaiting (e : QueueEntry) : Bool := e.reservation.state = .waiting

def isAllocated (e : QueueEntry) : Bool :=
  e.reservation.state = .allocated

def isOwnedBy (e : QueueEntry) (session : SessionId) : Bool :=
  e.reservation.owner.session = session

/-- Whether `e` is served before `f` or is `f`'s equal: the higher
priority first, then the earlier arrival, then the smaller id. -/
def ranksBefore (e f : QueueEntry) : Bool :=
  let p := e.reservation.priority
  let q := f.reservation.priority
  q < p || p = q && (e.arrival < f.arrival
    || e.arrival = f.arrival && (compare e.id f.id).isLE)

/-- Whether `e` is listed before `f`: pending ones first, each part by
rank. -/
def listsBefore (e f : QueueEntry) : Bool :=
  match e.reservation.state.isPending, f.reservation.state.isPending with
  | true, false => true
  | false, true => false
  | _, _ =>
    let p := e.reservation.priority
    let q := f.reservation.priority
    q < p || p = q && e.arrival ≤ f.arrival

/-- The entry in another state, its allocation timer off. -/
def moved (e : QueueEntry) (state : ReservationState) : QueueEntry :=
  { e with
    reservation := e.reservation.transition state
    graceDeadline := none }

/-- The entry with resources set aside until a deadline. -/
def allocated (e : QueueEntry) (ids : List ResourceId) (deadline : Nat) :
    QueueEntry :=
  { e with
    reservation :=
      { e.reservation.transition .allocated with allocations := ids }
    graceDeadline := some deadline }

/-- Whether one of some resources is set aside for the entry. -/
def holdsAny (e : QueueEntry) (ids : List ResourceId) : Bool :=
  e.isAllocated && e.reservation.allocations.any ids.contains

end QueueEntry

/-- The stored reservations by id. -/
structure Queue where
  entries : Table String QueueEntry
  /-- How many reservations have been created. -/
  created : Nat
  /-- How many arrivals have been counted. -/
  arrivals : Nat
  gracePeriod : Nat
  pollTimeout : Nat
deriving DecidableEq

namespace Queue

def new (gracePeriod pollTimeout : Nat) : Queue :=
  ⟨.empty, 0, 0, gracePeriod, pollTimeout⟩

-- ============================================================== queries

def all (q : Queue) : List QueueEntry := q.entries.values

def getEntry (q : Queue) (id : String) : Except Refusal QueueEntry :=
  match q.entries.get? id with
  | some e => .ok e
  | none => .error (.notFound s!"reservation '{id}'")

def get (q : Queue) (id : String) : Except Refusal Reservation := do
  return (← q.getEntry id).reservation

/-- The entry of a reservation that a session owns. -/
def getOwned (q : Queue) (id : String) (session : SessionId) :
    Except Refusal QueueEntry := do
  let e ← q.getEntry id
  if !e.isOwnedBy session then
    let owner := e.reservation.owner.name
    throw (.notOwner s!"reservation '{id}' belongs to {owner}")
  return e

/-- Whether a resource is set aside. -/
def isAllocated (q : Queue) (id : ResourceId) : Bool :=
  q.all.any (·.holdsAny [id])

/-- Whether a resource is set aside for another session. -/
def isAllocatedToOther (q : Queue) (id : ResourceId)
    (session : SessionId) : Bool :=
  q.all.any fun e => !e.isOwnedBy session && e.holdsAny [id]

/-- All reservations as listings show them. -/
def list (q : Queue) : List Reservation :=
  (q.all.mergeSort QueueEntry.listsBefore).map (·.reservation)

def size (q : Queue) : Nat := q.entries.size

def isEmpty (q : Queue) : Bool := q.entries.isEmpty

-- ============================================================== changes

def put (q : Queue) (e : QueueEntry) : Queue :=
  { q with entries := q.entries.insert e.id e }

/-- Changes some entries where they stand and returns the reservations
that changed, in the order of their ids. -/
def changeWhere (q : Queue) (test : QueueEntry → Bool)
    (f : QueueEntry → QueueEntry) : List Reservation × Queue :=
  (((q.all.filter test).map f).map (·.reservation),
    { q with entries :=
        q.entries.mapValues fun _ e => if test e then f e else e })

def create (q : Queue) (owner : Holder) (filters : List ResourcePattern)
    (priority : Int) (now : Moment) :
    Except Refusal (Reservation × Queue) :=
  if filters.isEmpty then
    .error (.invalidRequest "reservation needs at least one filter")
  else
    let serial := q.created + 1
    let r := Reservation.new serial owner filters priority now.date
    let e : QueueEntry :=
      { reservation := r, arrival := q.arrivals + 1
        graceDeadline := none
        pollDeadline := now.ticks + q.pollTimeout, retireAt := none }
    .ok (r, { q with
      entries := q.entries.insert r.id e
      created := serial
      arrivals := q.arrivals + 1 })

/-- Ends a pending reservation of a session. A finished one stays as it
is. -/
def cancel (q : Queue) (id : String) (session : SessionId)
    (now : Moment) : Except Refusal (Option Reservation × Queue) := do
  let e ← q.getOwned id session
  if !e.reservation.state.isPending then return (none, q)
  let e := { e.moved .cancelled with
    retireAt := some (now.ticks + q.pollTimeout) }
  return (some e.reservation, { q with entries := q.entries.insert id e })

/-- Reads a reservation of a session, which keeps a pending one alive. -/
def poll (q : Queue) (id : String) (session : SessionId) (now : Moment) :
    Except Refusal (Reservation × Queue) := do
  let e ← q.getOwned id session
  if e.reservation.state.isPending then
    let e := { e with pollDeadline := now.ticks + q.pollTimeout }
    return (e.reservation, { q with entries := q.entries.insert id e })
  else return (e.reservation, q)

-- =============================================================== rescan

/-- The resources that are set aside. -/
def taken (q : Queue) : List ResourceId :=
  (q.all.filter (·.isAllocated)).flatMap (·.reservation.allocations)

/-- The waiting entries that are not skipped, by rank. -/
def waiting (q : Queue) (skip : List String) : List QueueEntry :=
  (q.all.filter fun e => e.isWaiting && !skip.contains e.id).mergeSort
    QueueEntry.ranksBefore

/-- Serves entries in turn out of the free resources that are not taken,
and returns those that could be served, with what they got. -/
def serve (inv : Inventory) (free : Resource → Bool) (deadline : Nat)
    (taken : List ResourceId) : List QueueEntry → List QueueEntry
  | [] => []
  | e :: rest =>
    match inv.bind (fun r => free r && !taken.contains r.id)
        e.reservation.filters with
    | .ok ids =>
      e.allocated ids deadline
        :: serve inv free deadline (taken ++ ids) rest
    | .error _ => serve inv free deadline taken rest

/-- Sets free resources aside for waiting reservations, by rank. -/
def rescan (q : Queue) (inv : Inventory) (free : Resource → Bool)
    (skip : List String) (now : Moment) : List Reservation × Queue :=
  let served := serve inv free (now.ticks + q.gracePeriod) q.taken
    (q.waiting skip)
  (served.map (·.reservation), served.foldl put q)

-- ============================================================ deadlines

/-- What a check of deadlines changed. -/
structure Expiry where
  changed : List Reservation
  /-- The ids of those whose allocation lapsed. -/
  reverted : List String
deriving DecidableEq

def isLapsed (now : Moment) (e : QueueEntry) : Bool :=
  e.isAllocated && e.graceDeadline.any (· ≤ now.ticks)

def isUnpolled (now : Moment) (e : QueueEntry) : Bool :=
  e.isWaiting && e.pollDeadline ≤ now.ticks

/-- Whether an entry that neither lapses nor goes unpolled is to be
forgotten. -/
def isRetired (now : Moment) (e : QueueEntry) : Bool :=
  e.retireAt.any (· ≤ now.ticks)

/-- Puts an entry whose allocation lapsed back at the end of the
queue. -/
def lapse (now : Moment) (q : Queue) (e : QueueEntry) :
    Reservation × Queue :=
  let e := { e.moved .waiting with
    arrival := q.arrivals + 1
    pollDeadline := now.ticks + q.pollTimeout }
  (e.reservation, { q.put e with arrivals := q.arrivals + 1 })

/-- Puts several back in turn. -/
def lapseAll (now : Moment) (q : Queue) :
    List QueueEntry → List Reservation × Queue
  | [] => ([], q)
  | e :: rest =>
    let (r, q) := lapse now q e
    let (rs, q) := lapseAll now q rest
    (r :: rs, q)

/-- Checks all deadlines: waiting reservations that nobody asked for
expire, finished ones are forgotten, and lapsed allocations go back to
waiting, as new arrivals. -/
def expire (q : Queue) (now : Moment) : Expiry × Queue :=
  let lapsed := q.all.filter (isLapsed now)
  let unpolled := q.all.filter (isUnpolled now)
  let kept := q.entries.filter fun _ e =>
    isLapsed now e || !(isUnpolled now e || isRetired now e)
  let (back, q) := lapseAll now { q with entries := kept } lapsed
  ({ changed :=
      unpolled.map (fun e => e.reservation.transition .expired) ++ back
     reverted := lapsed.map (·.id) }, q)

-- ========================================================== conversions

/-- Finishes the allocations of a session that an acquisition has used,
in part at least. -/
def convert (q : Queue) (session : SessionId) (bound : List ResourceId)
    (now : Moment) : List Reservation × Queue :=
  q.changeWhere (fun e => e.isOwnedBy session && e.holdsAny bound)
    fun e => { e.moved .acquired with
      retireAt := some (now.ticks + q.pollTimeout) }

/-- Puts allocations that lost a resource back to waiting. -/
def invalidate (q : Queue) (removed : List ResourceId) :
    List Reservation × Queue :=
  q.changeWhere (·.holdsAny removed) (·.moved .waiting)

/-- Forgets the reservations of a session; the pending ones are
cancelled. -/
def removeSession (q : Queue) (session : SessionId) :
    List Reservation × Queue :=
  let ending := q.all.filter fun e =>
    e.isOwnedBy session && e.reservation.state.isPending
  (ending.map fun e => e.reservation.transition .cancelled,
    { q with entries :=
        q.entries.filter fun _ e => !e.isOwnedBy session })

end Queue

end LabLease
