/-
What a peer can ask of the coordinator, and what it answers.
-/
import LabLease.Lease.Event
import LabLease.Refusal

namespace LabLease

/-- One request of a peer. -/
inductive Operation where
  | register (name : String) (role : Role)
  | heartbeat
  | disconnect
  | setResources (specs : List ResourceSpec)
  | withdraw (ids : List ResourceId)
  | listPlaces (filter : PlaceFilter)
  | listResources (pattern : Option ResourcePattern)
  | listReservations
  | listSessions
  | createPlace (name : String) (patterns : List ResourcePattern)
      (tags : Table String String)
  | deletePlace (name : String)
  | addMatch (name : String) (pattern : ResourcePattern)
  | deleteMatch (name : String) (pattern : ResourcePattern)
  | setTags (name : String) (tags : Table String String)
  | setComment (name comment : String)
  | acquire (place : String)
  | release (place : String) (force : Bool)
  | createReservation (filters : List ResourcePattern) (priority : Int)
  | cancelReservation (id : String)
  | pollReservation (id : String)
  | subscribe (lastEvent : Option Nat)
  | unsubscribe
  | snapshot
deriving DecidableEq

/-- The name of an operation. -/
def Operation.name : Operation → String
  | .register .. => "register"
  | .heartbeat => "heartbeat"
  | .disconnect => "disconnect"
  | .setResources _ => "set-resources"
  | .withdraw _ => "withdraw"
  | .listPlaces _ => "list-places"
  | .listResources _ => "list-resources"
  | .listReservations => "list-reservations"
  | .listSessions => "list-sessions"
  | .createPlace .. => "create-place"
  | .deletePlace _ => "delete-place"
  | .addMatch .. => "add-match"
  | .deleteMatch .. => "delete-match"
  | .setTags .. => "set-tags"
  | .setComment .. => "set-comment"
  | .acquire _ => "acquire"
  | .release .. => "release"
  | .createReservation .. => "create-reservation"
  | .cancelReservation _ => "cancel-reservation"
  | .pollReservation _ => "poll-reservation"
  | .subscribe _ => "subscribe"
  | .unsubscribe => "unsubscribe"
  | .snapshot => "snapshot"

/-- The answer to a request that was granted. -/
inductive Reply where
  | ack
  | registered (session : SessionId) (eventNumber : Nat)
  | published (changes : Nat)
  | places (places : List PlaceView)
  | place (view : PlaceView)
  | resources (resources : List Resource)
  | reservations (reservations : List Reservation)
  | reservation (reservation : Reservation)
  | sessions (sessions : List SessionInfo)
  | subscribed (resync : Bool) (eventNumber : Nat)
  | snapshot (snapshot : Snapshot)
deriving DecidableEq

/-- Counts of what the coordinator holds and has done. -/
structure Metrics where
  exporters : Nat
  clients : Nat
  resources : Nat
  places : Nat
  acquiredPlaces : Nat
  reservations : Nat
  eventNumber : Nat
  subscribers : Nat
  messagesReceived : Nat
  eventsSent : Nat
  droppedSubscribers : Nat
  evictions : Nat
deriving DecidableEq, Repr

end LabLease
