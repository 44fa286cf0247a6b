/-
A client's replica of what the coordinator knows. It starts from a
snapshot and follows the events: one that it has applied already changes
nothing, and one that leaves a gap is refused, because what lies between
would be lost.
-/
import LabLease.Lease.Event
import LabLease.Refusal

namespace LabLease

/-- What a client knows, up to the event of some number. -/
structure Replica where
  /-- The number applied last; none before the first. -/
  lastEvent : Option Nat
  resources : Table ResourceId Resource
  places : Table String PlaceView
  reservations : Table String Reservation
deriving DecidableEq

namespace Replica

def empty : Replica := ⟨none, .empty, .empty, .empty⟩

/-- Takes over one change. -/
def applyChange (r : Replica) : Change → Replica
  | .resource x => { r with resources := r.resources.insert x.id x }
  | .resourceRemoved id => { r with resources := r.resources.erase id }
  | .place v => { r with places := r.places.insert v.place.name v }
  | .placeDeleted name => { r with places := r.places.erase name }
  | .reservation x =>
    { r with reservations := r.reservations.insert x.id x }

/-- What a replica makes of an event. -/
inductive Verdict where
  /-- It has been applied before. -/
  | known
  | next
  /-- Events before it are missing. -/
  | gap
deriving DecidableEq, Repr

/-- Without any number yet, every event is the next one. -/
def verdict (lastEvent : Option Nat) (seq : Nat) : Verdict :=
  match lastEvent with
  | none => .next
  | some n =>
    if seq ≤ n then .known else if seq = n + 1 then .next else .gap

/-- Applies events in turn up to a gap. `count` of them have been applied
before these. -/
def applyFrom (count : Nat) (r : Replica) :
    List Event → Except Refusal Nat × Replica
  | [] => (.ok count, r)
  | e :: rest =>
    match verdict r.lastEvent e.seq with
    | .known => applyFrom count r rest
    | .next =>
      applyFrom (count + 1)
        { r.applyChange e.change with lastEvent := some e.seq } rest
    | .gap => (.error (.resyncRequired (r.lastEvent.getD 0)), r)

/-- Applies events, and counts how many were new. What came before a gap
stays applied. -/
def applyEvents (r : Replica) (events : List Event) :
    Except Refusal Nat × Replica :=
  r.applyFrom 0 events

/-- The replica of a snapshot, whatever it was before. -/
def ofSnapshot (s : Snapshot) : Replica :=
  { lastEvent := some s.eventNumber
    resources := .ofList (s.resources.map fun x => (x.id, x))
    places := .ofList (s.places.map fun v => (v.place.name, v))
    reservations := .ofList (s.reservations.map fun x => (x.id, x)) }

end Replica

end LabLease
