/-
The inventory: the resources that are published at the moment, each with
the session that publishes it. Publishing replaces all that an exporter
has published and reports the least set of changes that does so.

Patterns are bound to resources one by one: to each the first resource in
the order of identities that it selects, that is available and that no
earlier pattern has taken.
-/
import LabLease.Refusal
import LabLease.Resource.Pattern
import LabLease.Session

namespace LabLease

/-- What became of one resource. -/
inductive ResourceChange where
  | upserted (resource : Resource)
  | removed (id : ResourceId)
deriving DecidableEq

def ResourceChange.id : ResourceChange → ResourceId
  | .upserted r => r.id
  | .removed id => id

/-- A resource and the session that publishes it. -/
structure Published where
  resource : Resource
  owner : SessionId
deriving DecidableEq

/-- The published resources by identity. -/
structure Inventory where
  entries : Table ResourceId Published
deriving DecidableEq

namespace Inventory

def empty : Inventory := ⟨.empty⟩

-- ============================================================== queries

def get? (inv : Inventory) (id : ResourceId) : Option Resource :=
  (inv.entries.get? id).map (·.resource)

def contains (inv : Inventory) (id : ResourceId) : Bool :=
  inv.entries.contains id

def ownerOf? (inv : Inventory) (id : ResourceId) : Option SessionId :=
  (inv.entries.get? id).map (·.owner)

/-- All resources, in the order of their identities. -/
def all (inv : Inventory) : List Resource :=
  inv.entries.values.map (·.resource)

/-- The resources that a pattern selects. -/
def selected (inv : Inventory) (p : ResourcePattern) : List Resource :=
  inv.all.filter fun r => p.selects r.id

def size (inv : Inventory) : Nat := inv.entries.size

def isEmpty (inv : Inventory) : Bool := inv.entries.isEmpty

-- ============================================================== publish

/-- Announcements by identity under an exporter. Nothing may be announced
twice. -/
def announced (exporter : String) (specs : List ResourceSpec) :
    Except Refusal (Table ResourceId ResourceParams) :=
  specs.foldlM (fun t spec =>
    let id := spec.idFor exporter
    if t.contains id then
      .error (.invalidRequest s!"resource {id.text} listed twice")
    else .ok (t.insert id spec.params)) .empty

/-- One announced resource: a known one keeps its place and flag, and a
new version is due only when its parameters differ. -/
def upsert (owner : SessionId) (inv : Inventory)
    (id : ResourceId) (params : ResourceParams) :
    Inventory × List ResourceChange :=
  match inv.entries.get? id with
  | some known =>
    if known.resource.params.same params then (inv, [])
    else
      let r := { known.resource with
        params, version := known.resource.version + 1 }
      (⟨inv.entries.insert id { known with resource := r }⟩,
        [.upserted r])
  | none =>
    let r : Resource := { id, params, acquired := false, version := 1 }
    (⟨inv.entries.insert id ⟨r, owner⟩⟩, [.upserted r])

/-- Every announced resource in turn. -/
def upsertAll (owner : SessionId) (inv : Inventory) :
    List (ResourceId × ResourceParams) →
      Inventory × List ResourceChange
  | [] => (inv, [])
  | (id, params) :: rest =>
    let (inv, changes) := upsert owner inv id params
    let (inv, more) := upsertAll owner inv rest
    (inv, changes ++ more)

/-- Removes some resources and reports each. -/
def removeAll (inv : Inventory) (ids : List ResourceId) :
    Inventory × List ResourceChange :=
  (ids.foldl (fun inv id => ⟨inv.entries.erase id⟩) inv,
    ids.map .removed)

/-- Replaces all that an exporter's session has published. What an
exporter publishes belongs to one session at a time. -/
def publish (inv : Inventory) (exporter : String) (owner : SessionId)
    (specs : List ResourceSpec) :
    Except Refusal (List ResourceChange × Inventory) := do
  let incoming ← announced exporter specs
  match inv.entries.entries.find? fun (id, e) =>
      id.exporter = exporter && e.owner != owner with
  | some (id, e) =>
    let other := SessionId.label e.owner
    throw <| .conflict
      s!"resource {id.text} is already published by session {other}"
  | none =>
    let stale := (inv.entries.filter fun id e =>
      e.owner = owner && id.exporter = exporter
        && !incoming.contains id).keys
    let (inv, removed) := inv.removeAll stale
    let (inv, upserted) := inv.upsertAll owner incoming.entries
    return (removed ++ upserted, inv)

/-- Removes some of the resources of a session. -/
def withdraw (inv : Inventory) (owner : SessionId)
    (ids : List ResourceId) :
    Except Refusal (List ResourceChange × Inventory) := do
  match ids.find? fun id => inv.ownerOf? id != some owner with
  | some id => throw (.notFound s!"resource {id.text}")
  | none =>
    let going := (inv.entries.filter fun id _ => ids.contains id).keys
    let (inv, removed) := inv.removeAll going
    return (removed, inv)

/-- Removes everything that a session publishes. -/
def removeOwner (inv : Inventory) (owner : SessionId) :
    Inventory × List ResourceChange :=
  inv.removeAll (inv.entries.filter fun _ e => e.owner = owner).keys

/-- Sets the flag of a resource. A new version is due if that changes
it. -/
def setAcquired (inv : Inventory) (id : ResourceId) (acquired : Bool) :
    Inventory × Option ResourceChange :=
  match inv.entries.get? id with
  | none => (inv, none)
  | some known =>
    if known.resource.acquired = acquired then (inv, none)
    else
      let r := { known.resource with
        acquired, version := known.resource.version + 1 }
      (⟨inv.entries.insert id { known with resource := r }⟩,
        some (.upserted r))

-- =============================================================== binding

/-- The resource that a pattern takes when some are taken already. -/
def candidate? (inv : Inventory) (available : Resource → Bool)
    (taken : List ResourceId) (p : ResourcePattern) : Option Resource :=
  inv.all.find? fun r =>
    p.selects r.id && available r && !taken.contains r.id

/-- Binds the patterns that are left behind those already bound. -/
def bindFrom (inv : Inventory) (available : Resource → Bool)
    (bound : List ResourceId) :
    List ResourcePattern → Except ResourcePattern (List ResourceId)
  | [] => .ok bound
  | p :: rest =>
    match inv.candidate? available bound p with
    | some r => bindFrom inv available (bound ++ [r.id]) rest
    | none => .error p

/-- Binds one resource to each pattern, or names the first pattern for
which none is left. -/
def bind (inv : Inventory) (available : Resource → Bool)
    (patterns : List ResourcePattern) :
    Except ResourcePattern (List ResourceId) :=
  bindFrom inv available [] patterns

end Inventory

end LabLease
