/-
Why the coordinator refuses a request. A refusal crosses the wire as its
kind and a detail, and is rebuilt from them (`ofWire_kind_detail`).

Whoever set out to do something and was refused reports a failure: a
text, and the texts of what caused it, one behind the other.
-/
import LabLease.Number.Whole

namespace LabLease

/-- The kinds of refusal that cross the wire. -/
inductive RefusalKind where
  | conflict
  | notFound
  | notOwner
  | unavailable
  | inUse
  | staleSession
  | resyncRequired
  | alreadyExists
  | invalidRequest
  | internal
  | closed
deriving DecidableEq, Repr

namespace RefusalKind

def word : RefusalKind → String
  | .conflict => "conflict"
  | .notFound => "not-found"
  | .notOwner => "not-owner"
  | .unavailable => "unavailable"
  | .inUse => "in-use"
  | .staleSession => "stale-session"
  | .resyncRequired => "resync-required"
  | .alreadyExists => "already-exists"
  | .invalidRequest => "invalid-request"
  | .internal => "internal"
  | .closed => "closed"

/-- Every kind beside its word. -/
def choices : List (String × RefusalKind) :=
  [.conflict, .notFound, .notOwner, .unavailable, .inUse, .staleSession,
    .resyncRequired, .alreadyExists, .invalidRequest, .internal,
    .closed].map fun k => (k.word, k)

end RefusalKind

/-- A refusal. Each text says what it is about. -/
inductive Refusal where
  | conflict (detail : String)
  | notFound (detail : String)
  | notOwner (detail : String)
  | unavailable (detail : String)
  | inUse (detail : String)
  | staleSession (detail : String)
  /-- The events behind this one are no longer retained. -/
  | resyncRequired (event : Nat)
  | alreadyExists (detail : String)
  | invalidRequest (detail : String)
  | internal (detail : String)
  | closed
deriving DecidableEq, Repr

namespace Refusal

def kind : Refusal → RefusalKind
  | .conflict _ => .conflict
  | .notFound _ => .notFound
  | .notOwner _ => .notOwner
  | .unavailable _ => .unavailable
  | .inUse _ => .inUse
  | .staleSession _ => .staleSession
  | .resyncRequired _ => .resyncRequired
  | .alreadyExists _ => .alreadyExists
  | .invalidRequest _ => .invalidRequest
  | .internal _ => .internal
  | .closed => .closed

/-- What a refusal says beyond its kind. -/
def detail : Refusal → String
  | .conflict s | .notFound s | .notOwner s | .unavailable s | .inUse s
  | .staleSession s | .alreadyExists s | .invalidRequest s
  | .internal s => s
  | .resyncRequired n => toString n
  | .closed => ""

/-- The refusal of a kind with a detail. A number that cannot be read
counts as zero. -/
def ofWire (kind : RefusalKind) (detail : String) : Refusal :=
  match kind with
  | .conflict => .conflict detail
  | .notFound => .notFound detail
  | .notOwner => .notOwner detail
  | .unavailable => .unavailable detail
  | .inUse => .inUse detail
  | .staleSession => .staleSession detail
  | .resyncRequired => .resyncRequired ((Whole.unsigned? 64 detail).getD 0)
  | .alreadyExists => .alreadyExists detail
  | .invalidRequest => .invalidRequest detail
  | .internal => .internal detail
  | .closed => .closed

/-- The text of a refusal. -/
def message : Refusal → String
  | .conflict s => s!"Conflict: {s}"
  | .notFound s => s!"Not found: {s}"
  | .notOwner s => s!"Not owner: {s}"
  | .unavailable s => s!"Unavailable: {s}"
  | .inUse s => s!"In use: {s}"
  | .staleSession s => s!"Stale session: {s}"
  | .resyncRequired n =>
    s!"Resync required: event {n} is no longer retained"
  | .alreadyExists s => s!"Already exists: {s}"
  | .invalidRequest s => s!"Invalid request: {s}"
  | .internal s => s!"Internal error: {s}"
  | .closed => "Coordinator closed"

/-- Whether the session is over for whoever gets this refusal. -/
def endsSession : Refusal → Bool
  | .closed | .staleSession _ => true
  | _ => false

end Refusal

-- ============================================================== failures

/-- A failure and what caused it, the outermost text first. -/
structure Failure where
  causes : List String
deriving DecidableEq, Repr

namespace Failure

def of (text : String) : Failure := ⟨[text]⟩

def ofRefusal (e : Refusal) : Failure := of e.message

/-- A failure as the cause of another. -/
def during (f : Failure) (text : String) : Failure := ⟨text :: f.causes⟩

/-- All texts in one. -/
def message (f : Failure) : String := ": ".intercalate f.causes

end Failure

end LabLease
