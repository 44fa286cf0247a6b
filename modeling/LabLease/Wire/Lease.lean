/-
Places, reservations, events and snapshots as JSON.
-/
import LabLease.Wire.Resource
import LabLease.Lease.Event

namespace LabLease

open Json (Part Value)

/-- Tags and the like: a table of texts. -/
def textTable? (p : Part) : Option (Table String String) :=
  p.table? Part.text?

-- =============================================================== places

def Place.json (p : Place) : Value :=
  .object [("name", .string p.name),
    ("matches", .list ResourcePattern.json p.patterns),
    ("tags", .table .string p.tags), ("comment", .string p.comment),
    ("acquired", .option Holder.json p.holder),
    ("acquired-resources", .list ResourceId.json p.bound),
    ("created", p.created.json), ("changed", p.changed.json),
    ("version", .nat p.version)]

def Place.ofJson? (p : Part) : Option Place := do
  let f ← p.fields? ["name", "matches", "tags", "comment", "acquired",
    "acquired-resources", "created", "changed", "version"]
  return {
    name := ← f.required "name" Part.text?
    patterns := ←
      f.required "matches" (Part.list? ResourcePattern.ofJson?)
    tags := ← f.withDefault "tags" .empty textTable?
    comment := ← f.withDefault "comment" "" Part.text?
    holder := ← f.nullable "acquired" Holder.ofJson?
    bound := ← f.withDefault "acquired-resources" []
      (Part.list? ResourceId.ofJson?)
    created := ← f.required "created" Timestamp.ofJson?
    changed := ← f.required "changed" Timestamp.ofJson?
    version := ← f.required "version" Part.word? }

def PlaceView.json (v : PlaceView) : Value :=
  .object [("place", v.place.json),
    ("matched-resources", .list ResourceId.json v.matched),
    ("missing-resources", .list ResourceId.json v.missing)]

def PlaceView.ofJson? (p : Part) : Option PlaceView := do
  let f ← p.fields? ["place", "matched-resources", "missing-resources"]
  let ids := Part.list? ResourceId.ofJson?
  return {
    place := ← f.required "place" Place.ofJson?
    matched := ← f.required "matched-resources" ids
    missing := ← f.required "missing-resources" ids }

def PlaceFilter.json (f : PlaceFilter) : Value :=
  .object [("name", .option .string f.name),
    ("tags", .table .string f.tags), ("free", .option .bool f.free)]

def PlaceFilter.ofJson? (p : Part) : Option PlaceFilter := do
  let f ← p.fields? ["name", "tags", "free"]
  return {
    name := ← f.withDefault "name" none (Part.optional? Part.text?)
    tags := ← f.withDefault "tags" .empty textTable?
    free := ← f.withDefault "free" none (Part.optional? Part.bool?) }

-- ========================================================= reservations

def ReservationState.json (s : ReservationState) : Value :=
  .string s.word

def ReservationState.ofJson? (p : Part) : Option ReservationState :=
  p.choice? choices

/-- A priority has 32 bits with sign. -/
def priority? (p : Part) : Option Int :=
  p.int? (-(twoTo 31 : Int)) (twoTo 31 - 1)

def Reservation.json (r : Reservation) : Value :=
  .object [("id", .string r.id), ("owner", r.owner.json),
    ("filters", .list ResourcePattern.json r.filters),
    ("priority", .int r.priority), ("state", r.state.json),
    ("allocations", .list ResourceId.json r.allocations),
    ("created", r.created.json), ("version", .nat r.version)]

def Reservation.ofJson? (p : Part) : Option Reservation := do
  let f ← p.fields? ["id", "owner", "filters", "priority", "state",
    "allocations", "created", "version"]
  return {
    id := ← f.required "id" Part.text?
    owner := ← f.required "owner" Holder.ofJson?
    filters := ←
      f.required "filters" (Part.list? ResourcePattern.ofJson?)
    priority := ← f.required "priority" priority?
    state := ← f.required "state" ReservationState.ofJson?
    allocations := ← f.withDefault "allocations" []
      (Part.list? ResourceId.ofJson?)
    created := ← f.required "created" Timestamp.ofJson?
    version := ← f.required "version" Part.word? }

-- =============================================================== events

def Change.json : Change → Value
  | .resource r =>
    .object [("kind", .string "resource"), ("resource", r.json)]
  | .resourceRemoved id =>
    .object [("kind", .string "resource-removed"), ("id", id.json)]
  | .place v => .object [("kind", .string "place"), ("view", v.json)]
  | .placeDeleted name =>
    .object [("kind", .string "place-deleted"), ("name", .string name)]
  | .reservation r =>
    .object [("kind", .string "reservation"), ("reservation", r.json)]

def Change.kinds : List String :=
  ["resource", "resource-removed", "place", "place-deleted",
   "reservation"]

def Change.ofJson? (p : Part) : Option Change := do
  match ← p.variant? "kind" kinds with
  | ("resource", p) =>
    let f ← p.fields? ["resource"]
    return .resource (← f.required "resource" Resource.ofJson?)
  | ("resource-removed", p) =>
    let f ← p.fields? ["id"]
    return .resourceRemoved (← f.required "id" ResourceId.ofJson?)
  | ("place", p) =>
    let f ← p.fields? ["view"]
    return .place (← f.required "view" PlaceView.ofJson?)
  | ("place-deleted", p) =>
    let f ← p.fields? ["name"]
    return .placeDeleted (← f.required "name" Part.text?)
  | ("reservation", p) =>
    let f ← p.fields? ["reservation"]
    return .reservation (← f.required "reservation" Reservation.ofJson?)
  | _ => none

def Event.json (e : Event) : Value :=
  .object [("seq", .nat e.seq), ("change", e.change.json)]

def Event.ofJson? (p : Part) : Option Event := do
  let f ← p.fields? ["seq", "change"]
  return {
    seq := ← f.required "seq" Part.word?
    change := ← f.required "change" Change.ofJson? }

def Snapshot.json (s : Snapshot) : Value :=
  .object [("event-number", .nat s.eventNumber),
    ("resources", .list Resource.json s.resources),
    ("places", .list PlaceView.json s.places),
    ("reservations", .list Reservation.json s.reservations)]

def Snapshot.ofJson? (p : Part) : Option Snapshot := do
  let f ← p.fields? ["event-number", "resources", "places",
    "reservations"]
  return {
    eventNumber := ← f.required "event-number" Part.word?
    resources := ← f.required "resources" (Part.list? Resource.ofJson?)
    places := ← f.required "places" (Part.list? PlaceView.ofJson?)
    reservations := ←
      f.required "reservations" (Part.list? Reservation.ofJson?) }

end LabLease
