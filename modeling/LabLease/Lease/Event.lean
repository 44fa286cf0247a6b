/-
The event stream: every change of a resource, place or reservation gets
the next number, and a snapshot holds everything up to one number. A
change carries the whole new state of what changed.
-/
import LabLease.Lease.Place
import LabLease.Lease.Reservation

namespace LabLease

/-- What became of one entity. -/
inductive Change where
  | resource (resource : Resource)
  | resourceRemoved (id : ResourceId)
  | place (view : PlaceView)
  | placeDeleted (name : String)
  | reservation (reservation : Reservation)
deriving DecidableEq

/-- A change and its number. -/
structure Event where
  seq : Nat
  change : Change
deriving DecidableEq

/-- Everything there is after the event of a number. -/
structure Snapshot where
  eventNumber : Nat
  resources : List Resource
  places : List PlaceView
  reservations : List Reservation
deriving DecidableEq

/-- What the coordinator sends to a session unasked. -/
inductive Push where
  | events (events : List Event)
  | resync (snapshot : Snapshot)
  | shutdown (reason : String)
deriving DecidableEq

end LabLease
