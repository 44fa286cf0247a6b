/-
Places: named slots that a client acquires as a whole. A place lists the
patterns of the resources it needs; while it is acquired it has one
resource bound to each of them.
-/
import LabLease.Resource.Pattern
import LabLease.Session

namespace LabLease

/-- A named slot, the unit of exclusive leasing. -/
structure Place where
  name : String
  patterns : List ResourcePattern
  tags : Table String String
  comment : String
  holder : Option Holder
  /-- The resources bound since the place was acquired. -/
  bound : List ResourceId
  created : Timestamp
  changed : Timestamp
  version : Nat
deriving DecidableEq

namespace Place

/-- A free place as it is created. -/
def new (name : String) (patterns : List ResourcePattern)
    (tags : Table String String) (date : Timestamp) : Place :=
  { name, patterns, tags, comment := "", holder := none, bound := [],
    created := date, changed := date, version := 1 }

def isAcquired (p : Place) : Bool := p.holder.isSome

/-- Whether a session holds the place. -/
def isHeldBy (p : Place) (session : SessionId) : Bool :=
  p.holder.any fun h => h.session = session

/-- Whether one of the patterns selects a resource. -/
def selects (p : Place) (id : ResourceId) : Bool :=
  p.patterns.any (·.selects id)

/-- The place after a change made at some date: one version further. -/
def touched (p : Place) (date : Timestamp) : Place :=
  { p with changed := date, version := p.version + 1 }

end Place

/-- Which places a listing shows. -/
structure PlaceFilter where
  /-- A wildcard on the name. -/
  name : Option String
  /-- Tags that must be there with these values. -/
  tags : Table String String
  /-- Only free places, or only held ones. -/
  free : Option Bool
deriving DecidableEq

namespace PlaceFilter

/-- The filter that every place passes. -/
def everything : PlaceFilter := ⟨none, .empty, none⟩

/-- Whether a place passes. A name that is no wildcard passes nothing. -/
def accepts (f : PlaceFilter) (p : Place) : Bool :=
  (match f.name with
    | some pattern =>
      match Text.Glob.parse pattern with
      | .ok g => g.selects p.name
      | .error _ => false
    | none => true)
    && f.free != some p.isAcquired
    && f.tags.entries.all fun t => p.tags.get? t.1 = some t.2

end PlaceFilter

/-- A place beside the resources that are published at the moment. -/
structure PlaceView where
  place : Place
  /-- The published resources that the place's patterns select. -/
  matched : List ResourceId
  /-- The bound resources that are not published. -/
  missing : List ResourceId
deriving DecidableEq

/-- Whether a place is acquired without all of its resources. -/
def PlaceView.isIncomplete (v : PlaceView) : Bool :=
  v.place.isAcquired && !v.missing.isEmpty

end LabLease
