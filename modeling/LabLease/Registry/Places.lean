/-
The places and who holds them. A held place keeps its patterns and cannot
be deleted; every change makes a new version.
-/
import LabLease.Lease.Place
import LabLease.Registry.Inventory
import LabLease.Time.Timestamp

namespace LabLease

/-- A place beside the published resources. -/
def Place.view (p : Place) (inv : Inventory) : PlaceView :=
  { place := p
    matched := (inv.all.filter fun r => p.selects r.id).map (·.id)
    missing := p.bound.filter fun id => !inv.contains id }

/-- The places by name. -/
structure Places where
  entries : Table String Place
deriving DecidableEq

namespace Places

def empty : Places := ⟨.empty⟩

-- ============================================================== queries

def get (ps : Places) (name : String) : Except Refusal Place :=
  match ps.entries.get? name with
  | some p => .ok p
  | none => .error (.notFound s!"place '{name}'")

/-- A place that nobody holds. -/
def getUnheld (ps : Places) (name : String) : Except Refusal Place := do
  let p ← ps.get name
  match p.holder with
  | some h =>
    throw (.inUse s!"place '{name}' is acquired by {h.name}")
  | none => return p

def all (ps : Places) : List Place := ps.entries.values

def list (ps : Places) (filter : PlaceFilter) : List Place :=
  ps.all.filter filter.accepts

/-- The names of the places that a session holds. -/
def heldBy (ps : Places) (session : SessionId) : List String :=
  (ps.all.filter (·.isHeldBy session)).map (·.name)

/-- The names of the places whose view depends on one of the
resources. -/
def affectedBy (ps : Places) (ids : List ResourceId) : List String :=
  (ps.all.filter fun p =>
    ids.any fun id => p.selects id || p.bound.contains id).map (·.name)

/-- Whether an acquired place has a resource bound. -/
def isBound (ps : Places) (id : ResourceId) : Bool :=
  ps.all.any fun p => p.isAcquired && p.bound.contains id

def view (ps : Places) (inv : Inventory) (name : String) :
    Except Refusal PlaceView := do
  return (← ps.get name).view inv

def views (ps : Places) (inv : Inventory) : List PlaceView :=
  ps.all.map (·.view inv)

def size (ps : Places) : Nat := ps.entries.size

def isEmpty (ps : Places) : Bool := ps.entries.isEmpty

-- ============================================================== changes

def put (ps : Places) (p : Place) : Places :=
  ⟨ps.entries.insert p.name p⟩

/-- A name is not empty and holds no white space. -/
def isName (name : String) : Bool :=
  !name.isEmpty && !name.toList.any Text.isBlank

def create (ps : Places) (name : String)
    (patterns : List ResourcePattern) (tags : Table String String)
    (date : Timestamp) : Except Refusal (Place × Places) :=
  if !isName name then
    .error (.invalidRequest s!"invalid place name '{name}'")
  else if ps.entries.contains name then
    .error (.alreadyExists s!"place '{name}'")
  else
    let p := Place.new name patterns tags date
    .ok (p, ⟨ps.entries.insert name p⟩)

def delete (ps : Places) (name : String) : Except Refusal Places := do
  let _ ← ps.getUnheld name
  return ⟨ps.entries.erase name⟩

/-- Gives a place to a client and binds a resource to each pattern. -/
def acquire (ps : Places) (name : String) (holder : Holder)
    (inv : Inventory) (available : Resource → Bool) (date : Timestamp) :
    Except Refusal (List ResourceId × Places) := do
  let p ← ps.get name
  if let some h := p.holder then
    throw <| .unavailable
      s!"place '{name}' is already acquired by {h.name}"
  if p.patterns.isEmpty then
    throw (.unavailable s!"place '{name}' has no match patterns")
  match inv.bind available p.patterns with
  | .error pattern =>
    throw <| .unavailable
      s!"place '{name}': no available resource for {pattern.text}"
  | .ok bound =>
    let p := { p with holder := some holder, bound }
    return (bound, ⟨ps.entries.insert name (p.touched date)⟩)

/-- Takes a place back from its holder, or by force from another one,
and returns the resources that were bound. -/
def release (ps : Places) (name : String) (session : SessionId)
    (force : Bool) (date : Timestamp) :
    Except Refusal (List ResourceId × Places) := do
  let p ← ps.get name
  match p.holder with
  | none => throw (.notOwner s!"place '{name}' is not acquired")
  | some h =>
    if h.session ≠ session ∧ !force then
      throw (.notOwner s!"place '{name}' is acquired by {h.name}")
    let free := { p with holder := none, bound := [] }
    return (p.bound, ⟨ps.entries.insert name (free.touched date)⟩)

def addMatch (ps : Places) (name : String) (pattern : ResourcePattern)
    (date : Timestamp) : Except Refusal Places := do
  let p ← ps.getUnheld name
  if p.patterns.contains pattern then
    throw <| .alreadyExists
      s!"match {pattern.text} on place '{name}'"
  let p := { p with patterns := p.patterns ++ [pattern] }
  return ⟨ps.entries.insert name (p.touched date)⟩

def deleteMatch (ps : Places) (name : String)
    (pattern : ResourcePattern) (date : Timestamp) :
    Except Refusal Places := do
  let p ← ps.getUnheld name
  if !p.patterns.contains pattern then
    throw (.notFound s!"match {pattern.text} on place '{name}'")
  let p := { p with patterns := p.patterns.filter (· ≠ pattern) }
  return ⟨ps.entries.insert name (p.touched date)⟩

def setTags (ps : Places) (name : String) (tags : Table String String)
    (date : Timestamp) : Except Refusal Places := do
  let p ← ps.get name
  return ⟨ps.entries.insert name ({ p with tags }.touched date)⟩

def setComment (ps : Places) (name : String) (comment : String)
    (date : Timestamp) : Except Refusal Places := do
  let p ← ps.get name
  return ⟨ps.entries.insert name ({ p with comment }.touched date)⟩

end Places

end LabLease
