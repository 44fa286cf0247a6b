/-
Reservations: requests for a bundle of resources that wait until the
whole bundle is free and then set it aside for their owner.
-/
import LabLease.Resource.Pattern
import LabLease.Session

namespace LabLease

inductive ReservationState where
  /-- In the queue. -/
  | waiting
  /-- Resources are set aside. -/
  | allocated
  /-- The owner has acquired a place with the resources. -/
  | acquired
  /-- Nobody asked for it in time. -/
  | expired
  | cancelled
deriving DecidableEq, Repr

namespace ReservationState

def word : ReservationState → String
  | .waiting => "waiting"
  | .allocated => "allocated"
  | .acquired => "acquired"
  | .expired => "expired"
  | .cancelled => "cancelled"

/-- Whether the reservation still wants resources. -/
def isPending : ReservationState → Bool
  | .waiting | .allocated => true
  | _ => false

/-- Whether the reservation never changes again. -/
def isFinal : ReservationState → Bool
  | .acquired | .expired | .cancelled => true
  | _ => false

/-- Every state beside its word. -/
def choices : List (String × ReservationState) :=
  [.waiting, .allocated, .acquired, .expired, .cancelled].map fun s =>
    (s.word, s)

end ReservationState

/-- A request for one resource per filter. -/
structure Reservation where
  id : String
  owner : Holder
  filters : List ResourcePattern
  priority : Int
  state : ReservationState
  /-- The resources set aside, one per filter. -/
  allocations : List ResourceId
  created : Timestamp
  version : Nat
deriving DecidableEq

namespace Reservation

/-- The text of a reservation's number in the order of creation: 32
hexadecimal digits in the layout of a time-ordered unique identifier, so
that the order of texts is the order of creation. -/
def idOf (serial : Nat) : String :=
  let digits := Nat.toDigits 16 serial
  .ofList ("0000000000007000".toList
    ++ List.replicate (16 - digits.length) '0' ++ digits)

/-- A reservation as it is created. -/
def new (serial : Nat) (owner : Holder) (filters : List ResourcePattern)
    (priority : Int) (date : Timestamp) : Reservation :=
  { id := idOf serial, owner, filters, priority, state := .waiting,
    allocations := [], created := date, version := 1 }

/-- The reservation in another state, one version further. Only an
allocated one keeps resources. -/
def transition (r : Reservation) (state : ReservationState) :
    Reservation :=
  { r with
    state
    allocations := if state = .allocated then r.allocations else []
    version := r.version + 1 }

end Reservation

end LabLease
