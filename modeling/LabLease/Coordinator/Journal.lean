/-
The journal: the last events in a row, numbered from 1. Whoever knows the
number of the last event it has applied can ask for those that followed,
as long as all of them are still kept.
-/
import LabLease.Lease.Event
import LabLease.Refusal

namespace LabLease.Coordinator

structure Journal where
  /-- How many events are kept, one at least. -/
  retention : Nat
  /-- The number given last; zero before the first. -/
  last : Nat
  /-- The events that are kept, oldest first. -/
  events : List Event
deriving DecidableEq

namespace Journal

def new (retention : Nat) : Journal := ⟨max retention 1, 0, []⟩

/-- Numbers a change and keeps it; the oldest events go when there are
too many. -/
def append (j : Journal) (change : Change) : Event × Journal :=
  let e : Event := ⟨j.last + 1, change⟩
  let events := j.events ++ [e]
  (e, { j with
    last := j.last + 1
    events := events.drop (events.length - j.retention) })

/-- The oldest number that is still kept. -/
def firstRetained (j : Journal) : Nat :=
  match j.events with
  | e :: _ => e.seq
  | [] => j.last + 1

/-- The events after a number. A number ahead of the journal belongs to
another journal. -/
def since (j : Journal) (n : Nat) : Except Refusal (List Event) :=
  if j.last < n ∨ n + 1 < j.firstRetained then .error (.resyncRequired n)
  else .ok (j.events.filter fun e => n < e.seq)

def size (j : Journal) : Nat := j.events.length

def isEmpty (j : Journal) : Bool := j.events.isEmpty

end Journal

end LabLease.Coordinator
