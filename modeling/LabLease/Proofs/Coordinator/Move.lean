/-
The moves of the coordinator: all that it ever does to its registries,
each in one go and with what it emits.

# Why a rescan is a move of its own

Most cascades end with one, and it is the same everywhere. What a cascade
does before it is one move, because half of it leaves flags that no place
accounts for or allocations that are gone.

# Sessions on their way out

A session that ends is taken off the roster first and its places and
reservations go one after the other. So a move stands between two states
each with the session that is on its way out, if there is one: `leave`
begins a departure and `forget` is the end of it.

# Kinds

A move bears a kind, which says what it is about. What a call may do is a
set of kinds, so a property that only some kinds of move endanger holds
after every call that takes none of these.
-/
import LabLease.Proofs.Coordinator.Cascade

namespace LabLease.Coordinator

/-- What a move is about. -/
inductive Kind where
  | aside
  | heard (session : SessionId) (now : Moment)
  | join (session : SessionId)
  | rescan (now : Moment)
  | restock (owner : SessionId)
  | leave (session : SessionId)
  /-- A place is taken back from its holder. -/
  | vacate (place : String) (held : Holder)
  | create (place : String)
  | revise (place : String)
  | delete (place : String)
  | acquire (place : String) (client : Holder)
  | reserve (owner : Holder)
  | cancel (id : String) (session : SessionId)
  | poll (id : String) (session : SessionId)
  | expire (now : Moment)
  | forget (session : SessionId)

/-- One move, between states and the sessions on their way out. -/
inductive Move :
    Kind → Option SessionId → State → Option SessionId → State → Prop
  /-- What no registry holds: notices, timers, counts. -/
  | aside {l : Option SessionId} {s : State}
      (notices : List (SessionId × String))
      (incompleteSince : Table String Nat) (evictions : Nat) :
      Move .aside l s l { s with notices, incompleteSince, evictions }
  | heard {l : Option SessionId} {s : State} {session : SessionId}
      {now : Moment} {roster : Roster}
      (h : s.roster.heartbeat session now = .ok roster) :
      Move (.heard session now) l s l { s with roster }
  | join {l : Option SessionId} {s : State} {name : String} {role : Role}
      {now : Moment} {session : SessionId} {roster : Roster}
      (h : s.roster.register name role now = .ok (session, roster)) :
      Move (.join session) l s l { s with roster }
  | rescan {l : Option SessionId} {s : State} (now : Moment)
      (skip : List String) : Move (.rescan now) l s l (s.rescan now skip)
  /-- A live exporter publishes something else. -/
  | restock {l : Option SessionId} {s : State} {exporter : String}
      {owner : SessionId} {inventory : Inventory}
      {changes : List ResourceChange}
      (hl : s.roster.Live owner exporter .exporter)
      (h : s.inventory.Restock exporter owner inventory changes) :
      Move (.restock owner) l s l
        ({ s with inventory }.restocked owner changes)
  | leave {s : State} (session : SessionId) :
      Move (.leave session) none s (some session)
        ({ s with
          roster := s.roster.remove session
          inventory := (s.inventory.removeOwner session).1 }.restocked
            session (s.inventory.removeOwner session).2)
  /-- A place is given back. `holder` is whose record is changed: that
  of whoever held the place, unless the session is on its way out. -/
  | vacate {l : Option SessionId} {s : State} {place : String}
      {session : SessionId} {force : Bool} {date : Timestamp}
      {freed : List ResourceId} {places : Places} {p : Place}
      {held : Holder} (holder : Option Holder)
      (hp : s.places.entries.get? place = some p)
      (hh : p.holder = some held)
      (hrec : holder = some held
        ∨ s.roster.sessions.get? held.session = none)
      (h : s.places.release place session force date
        = .ok (freed, places)) :
      Move (.vacate place held) l s l
        ({ s with places }.vacated place holder freed)
  | create {l : Option SessionId} {s : State} {name : String}
      {patterns : List ResourcePattern} {tags : Table String String}
      {date : Timestamp} {p : Place} {places : Places}
      (h : s.places.create name patterns tags date = .ok (p, places)) :
      Move (.create name) l s l
        ({ s with places }.emitAll [.place (p.view s.inventory)])
  | revise {l : Option SessionId} {s : State} {name : String}
      {p p' : Place} (hp : s.places.entries.get? name = some p)
      (h : p'.Revises p) :
      Move (.revise name) l s l
        ({ s with
          places := ⟨s.places.entries.insert name p'⟩ }.emitAll
            [.place (p'.view s.inventory)])
  | delete {l : Option SessionId} {s : State} {name : String}
      {places : Places} (h : s.places.delete name = .ok places) :
      Move (.delete name) l s l
        ({ s with places }.emitAll [.placeDeleted name])
  /-- A live client acquires a place. -/
  | acquire {l : Option SessionId} {s : State} {place : String}
      {bound : List ResourceId} {places : Places} (client : Holder)
      (now : Moment)
      (hl : s.roster.Live client.session client.name .client)
      (h : s.places.acquire place client s.inventory
        (Action.isAvailable s client.session) now.date
          = .ok (bound, places)) :
      Move (.acquire place client) l s l
        ({ s with places }.occupied place client.session bound now)
  /-- A live client gets into the queue. -/
  | reserve {l : Option SessionId} {s : State}
      {filters : List ResourcePattern} {priority : Int} {now : Moment}
      {r : Reservation} {queue : Queue} (owner : Holder)
      (hl : s.roster.Live owner.session owner.name .client)
      (h : s.queue.create owner filters priority now = .ok (r, queue)) :
      Move (.reserve owner) l s l
        ({ s with queue }.emitAll [.reservation r])
  | cancel {l : Option SessionId} {s : State} {id : String}
      {session : SessionId} {now : Moment} {r : Reservation}
      {queue : Queue}
      (h : s.queue.cancel id session now = .ok (some r, queue)) :
      Move (.cancel id session) l s l
        ({ s with queue }.emitAll [.reservation r])
  | poll {l : Option SessionId} {s : State} {id : String}
      {session : SessionId} {now : Moment} {r : Reservation}
      {queue : Queue} (h : s.queue.poll id session now = .ok (r, queue)) :
      Move (.poll id session) l s l { s with queue }
  | expire {l : Option SessionId} {s : State} (now : Moment) :
      Move (.expire now) l s l
        ({ s with queue := (s.queue.expire now).2 }.emitAll
          ((s.queue.expire now).1.changed.map .reservation))
  /-- The end of a departure, once no place is held any more. -/
  | forget {s : State} {session : SessionId}
      (h : s.places.heldBy session = []) :
      Move (.forget session) (some session) s none
        ({ s with queue := (s.queue.removeSession session).2 }.emitAll
          ((s.queue.removeSession session).1.map .reservation))

/-- Any number of moves of some kinds, one after the other. -/
inductive Moves (kinds : Kind → Prop) :
    Option SessionId → State → Option SessionId → State → Prop
  | refl {l : Option SessionId} {s : State} : Moves kinds l s l s
  | tail {k : Kind} {l l' l'' : Option SessionId} {s s' s'' : State}
      (h : Moves kinds l s l' s') (hk : kinds k)
      (step : Move k l' s' l'' s'') : Moves kinds l s l'' s''

namespace Moves

variable {kinds kinds' : Kind → Prop} {l l' l'' : Option SessionId}
  {s s' s'' : State}

/-- One move is a course of moves. -/
theorem single {k : Kind} (hk : kinds k) (h : Move k l s l' s') :
    Moves kinds l s l' s' := refl.tail hk h

/-- The states where two courses meet are the same. -/
theorem trans (h : Moves kinds l s l' s')
    (h' : Moves kinds l' s' l'' s'') : Moves kinds l s l'' s'' := by
  induction h' with
  | refl => exact h
  | tail _ hk step ih => exact (ih h).tail hk step

/-- Kinds may be added. -/
theorem mono (h : Moves kinds l s l' s')
    (hsub : ∀ k, kinds k → kinds' k) : Moves kinds' l s l' s' := by
  induction h with
  | refl => exact .refl
  | tail _ hk step ih => exact ih.tail (hsub _ hk) step

end Moves

end LabLease.Coordinator
