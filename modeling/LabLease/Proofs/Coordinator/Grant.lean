/-
What a granted operation has done: its answer and the state after it,
one case for each operation.

# Why this is a relation

An operation is a row of checks and changes, and whether all checks pass
depends on everything that is stored. Once it is granted, little is left
of that: `Granted` says what the registries have answered and which state
that leads to. `Action.execute_outcome` shows that nothing else comes of
an operation that is not refused, and what later modules prove about
operations they prove by cases on this relation.

# What a grant may touch

`Serves` lists the kinds of moves that an operation may be made of. The
list is shortest where it matters most: a place is taken from its holder
by the holder itself, at the end of the holder's session, or by force
where that is allowed.
-/
import LabLease.Proofs.Coordinator.Course

namespace LabLease

/-- The place that an operation edits, if it is an edit. -/
def Operation.edited? : Operation → Option String
  | .addMatch name _ | .deleteMatch name _ | .setTags name _
  | .setComment name _ => some name
  | _ => none

namespace Coordinator

/-- The answer to an operation that only asks. -/
def State.answer? (s : State) : Operation → Option Reply
  | .heartbeat => some .ack
  | .listPlaces filter =>
    some (.places ((s.places.list filter).map (·.view s.inventory)))
  | .listResources pattern =>
    some (.resources (s.inventory.all.filter fun r =>
      pattern.all (·.selects r.id)))
  | .listReservations => some (.reservations s.queue.list)
  | .listSessions => some (.sessions s.roster.list)
  | .snapshot => some (.snapshot s.snapshot)
  | _ => none

/-- What a granted operation of a session has done at a state in which the
session was just heard. -/
inductive Granted (session : SessionId) (now : Moment) (s : State) :
    Operation → Reply → State → Prop
  | answered {op : Operation} {r : Reply} (h : s.answer? op = some r) :
    Granted session now s op r s
  | disconnected :
    Granted session now s .disconnect .ack (s.endSession session now)
  | published {specs : List ResourceSpec} {exporter : String}
      {changes : List ResourceChange} {inventory : Inventory}
      (hl : s.roster.Live session exporter .exporter)
      (h : s.inventory.publish exporter session specs
        = .ok (changes, inventory)) :
    Granted session now s (.setResources specs)
      (.published changes.length)
      ({ s with inventory }.applyChanges session changes now)
  | withdrawn {ids : List ResourceId} {exporter : String}
      {changes : List ResourceChange} {inventory : Inventory}
      (hl : s.roster.Live session exporter .exporter)
      (h : s.inventory.withdraw session ids = .ok (changes, inventory)) :
    Granted session now s (.withdraw ids) (.published changes.length)
      ({ s with inventory }.applyChanges session changes now)
  | created {name : String} {patterns : List ResourcePattern}
      {tags : Table String String} {p : Place} {places : Places}
      (h : s.places.create name patterns tags now.date
        = .ok (p, places)) :
    Granted session now s (.createPlace name patterns tags)
      (.place (p.view s.inventory))
      ({ s with places }.emitAll [.place (p.view s.inventory)])
  | deleted {name : String} {places : Places}
      (h : s.places.delete name = .ok places) :
    Granted session now s (.deletePlace name) .ack
      ({ s with places }.emitAll [.placeDeleted name])
  | edited {op : Operation} {name : String} {p p' : Place}
      (hop : op.edited? = some name)
      (hp : s.places.entries.get? name = some p) (h : p'.Revises p) :
    Granted session now s op (.place (p'.view s.inventory))
      ({ s with
        places := ⟨s.places.entries.insert name p'⟩ }.emitAll
          [.place (p'.view s.inventory)])
  | acquired {place name : String} {bound : List ResourceId}
      {places : Places} {p : Place}
      (hl : s.roster.Live session name .client)
      (h : s.places.acquire place ⟨name, session⟩ s.inventory
        (Action.isAvailable s session) now.date = .ok (bound, places))
      (hp : places.entries.get? place = some p) :
    Granted session now s (.acquire place)
      (.place (p.view (s.inventory.flag bound true)))
      ({ s with places }.leased place session bound now)
  | released {place : String} {force : Bool} {p q : Place}
      {held : Holder} {freed : List ResourceId} {places : Places}
      (hp : s.places.entries.get? place = some p)
      (hh : p.holder = some held)
      (hmay : held.session = session
        ∨ force = true ∧ s.settings.allowForceRelease = true)
      (h : s.places.release place session
        (force && s.settings.allowForceRelease) now.date
          = .ok (freed, places))
      (hq : places.entries.get? place = some q) :
    Granted session now s (.release place force)
      (.place (q.view ({ s with places }.finishRelease place (some held)
        freed now).inventory))
      ({ s with places }.finishRelease place (some held) freed now)
  | reserved {filters : List ResourcePattern} {priority : Int}
      {name : String} {r r' : Reservation} {queue : Queue}
      (hl : s.roster.Live session name .client)
      (h : s.queue.create ⟨name, session⟩ filters priority now
        = .ok (r, queue))
      (hr : (({ s with queue }.emitAll [.reservation r]).rescan now
        []).queue.get r.id = .ok r') :
    Granted session now s (.createReservation filters priority)
      (.reservation r')
      (({ s with queue }.emitAll [.reservation r]).rescan now [])
  | cancelled {id : String} {r r' : Reservation} {queue : Queue}
      (h : s.queue.cancel id session now = .ok (some r, queue))
      (hr : (({ s with queue }.emitAll [.reservation r]).rescan now
        []).queue.get id = .ok r') :
    Granted session now s (.cancelReservation id) (.reservation r')
      (({ s with queue }.emitAll [.reservation r]).rescan now [])
  /-- A reservation that is finished is not cancelled again. -/
  | finished {id : String} {r : Reservation}
      (h : s.queue.cancel id session now = .ok (none, s.queue))
      (hr : s.queue.get id = .ok r) :
    Granted session now s (.cancelReservation id) (.reservation r) s
  | polled {id : String} {r : Reservation} {queue : Queue}
      (h : s.queue.poll id session now = .ok (r, queue)) :
    Granted session now s (.pollReservation id) (.reservation r)
      { s with queue }

/-- The kinds of moves that an operation of a session may be made of. -/
inductive Serves (session : SessionId) (now : Moment)
    (settings : Settings) : Operation → Kind → Prop
  | rescan (op : Operation) : Serves session now settings op (.rescan now)
  | disconnect {k : Kind} (h : Departure session now k) :
    Serves session now settings .disconnect k
  | setResources (specs : List ResourceSpec) :
    Serves session now settings (.setResources specs) (.restock session)
  | withdraw (ids : List ResourceId) :
    Serves session now settings (.withdraw ids) (.restock session)
  | createPlace (name : String) (patterns : List ResourcePattern)
      (tags : Table String String) :
    Serves session now settings (.createPlace name patterns tags) (.create name)
  | deletePlace (name : String) :
    Serves session now settings (.deletePlace name) (.delete name)
  | edit {op : Operation} {name : String} (h : op.edited? = some name) :
    Serves session now settings op (.revise name)
  | acquire (place name : String) :
    Serves session now settings (.acquire place) (.acquire place ⟨name, session⟩)
  | release (place : String) {force : Bool} {held : Holder}
      (h : held.session = session
        ∨ force = true ∧ settings.allowForceRelease = true) :
    Serves session now settings (.release place force) (.vacate place held)
  | createReservation (filters : List ResourcePattern) (priority : Int)
      (name : String) :
    Serves session now settings (.createReservation filters priority)
      (.reserve ⟨name, session⟩)
  | cancelReservation (id : String) :
    Serves session now settings (.cancelReservation id) (.cancel id session)
  | pollReservation (id : String) :
    Serves session now settings (.pollReservation id) (.poll id session)

namespace Granted

variable {session : SessionId} {now : Moment} {s s' : State}
  {op : Operation} {r : Reply}

/-- What a granted operation has done is a run of moves that serve it. -/
theorem moves (h : Sound none s) (hg : Granted session now s op r s') :
    Moves (Serves session now s.settings op) none s none s' := by
  cases hg with
  | answered => exact .refl
  | disconnected => exact .of_endSession h session now fun _ => .disconnect
  | published hl hp =>
    have hrestock := Inventory.publish_restock h.inventory hp
    exact (Moves.single (.setResources _)
      (.restock hl hrestock)).applyChanges now hrestock (.rescan _)
  | @withdrawn _ exporter _ _ hl hp =>
    have hrestock := Inventory.withdraw_restock exporter hp
    exact (Moves.single (.withdraw _)
      (.restock hl hrestock)).applyChanges now hrestock (.rescan _)
  | created hc => exact .single (.createPlace _ _ _) (.create hc)
  | deleted hd => exact .single (.deletePlace _) (.delete hd)
  | edited hop hp hr => exact .single (.edit hop) (.revise hp hr)
  | acquired hl ha hp =>
    have hmove : Moves (Serves session now s.settings _) none s none _ :=
      .single (.acquire _ _) (.acquire _ now hl ha)
    unfold State.leased
    dsimp only
    split
    · exact hmove
    · exact hmove.tail (.rescan _) (.rescan now [])
  | released hp hh hmay hr hq =>
    exact (Moves.single (.release _ hmay)
      (.vacate _ hp hh (Or.inl rfl) hr)).finishRelease now (.rescan _)
  | reserved hl hc hr =>
    exact (Moves.single (.createReservation _ _ _)
      (.reserve _ hl hc)).tail (.rescan _) (.rescan now [])
  | cancelled hc hr =>
    exact (Moves.single (.cancelReservation _) (.cancel hc)).tail
      (.rescan _) (.rescan now [])
  | finished => exact .refl
  | polled hp => exact .single (.pollReservation _) (.poll hp)

end Granted

end Coordinator

end LabLease
