/-
The sweep, which acts on whatever has come due: sessions that have been
silent too long are ended, deadlines of reservations are checked, and
places that have missed resources for too long are released.
-/
import LabLease.Coordinator.State

namespace LabLease.Coordinator.State

/-- Ends a session that has been silent too long. -/
def evict (s : State) (session : SessionId) (now : Moment) : State :=
  if s.isLive session then
    let s := { s with evictions := s.evictions + 1 }
    (s.notify session "heartbeat timeout").endSession session now
  else s

def evictSilent (s : State) (now : Moment) : State :=
  (s.roster.expired now).foldl (fun s id => s.evict id now) s

/-- Checks the deadlines of reservations. What a lapsed allocation gives
back is offered to others at once, and to itself only later. -/
def expireReservations (s : State) (now : Moment) : State :=
  let (expiry, queue) := s.queue.expire now
  let s := { s with queue }
  if expiry.changed.isEmpty then s
  else (s.emitReservations expiry.changed).rescan now expiry.reverted

/-- Looks at one place that misses resources: notes since when, and
releases it once that is long enough ago. -/
def checkOrphan (limit : Nat) (now : Moment) (s : State)
    (name : String) : State :=
  let since := (s.incompleteSince.get? name).getD now.ticks
  let s := { s with incompleteSince := s.incompleteSince.insert name since }
  if now.since since < limit then s
  else match s.places.get name with
    | .ok p =>
      match p.holder with
      | some h => s.releaseFrom name h.session (some h) now
      | none => s
    | .error _ => s

/-- Releases the places that have missed resources for too long, if that
is limited. -/
def releaseOrphans (s : State) (now : Moment) : State :=
  match s.settings.orphanLimit with
  | none => s
  | some limit =>
    let names := ((s.places.views s.inventory).filter
      (·.isIncomplete)).map (·.place.name)
    let incompleteSince := s.incompleteSince.filter fun name _ =>
      names.contains name
    names.foldl (checkOrphan limit now) { s with incompleteSince }

def sweep (s : State) (now : Moment) : State :=
  ((s.evictSilent now).expireReservations now).releaseOrphans now

end LabLease.Coordinator.State
