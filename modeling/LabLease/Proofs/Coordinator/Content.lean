/-
All that the coordinator stores, reports and answers is proper, if what it
is asked is and its clock shows days of the calendar.

What is stored changes in many ways but always by the registries, of which
this is known, and whatever is reported is what was stored before or is
stored then. An action is a row of such changes, so the law is proved for
actions as they are put together (`Action.Keeps`): each part may rely on
what it is handed, and has to hand on as much.
-/
import LabLease.Coordinator.Action
import LabLease.Coordinator.Sweep
import LabLease.Proofs.Coordinator.Outcome
import LabLease.Proofs.Registry.Content
import LabLease.Proofs.Wire.Frame

namespace LabLease.Coordinator

/-- Everything that is stored is proper, and so are the events. -/
structure State.Proper (s : State) : Prop where
  inventory : s.inventory.Proper
  places : s.places.Proper
  queue : s.queue.Proper
  roster : s.roster.Proper
  journal : ∀ e ∈ s.journal.events, e.Proper
  pending : ∀ e ∈ s.pending, e.Proper

/-- An event carries what the inventory reports. -/
theorem toChange_proper {c : ResourceChange} (h : c.Proper) :
    c.toChange.Proper := by
  cases c with
  | upserted r => exact h
  | removed id => exact trivial

namespace State

variable {s : State}

/-- The first state stores nothing. -/
theorem Proper.new (settings : Settings) : (State.new settings).Proper :=
  ⟨.empty, .empty, .empty, .empty, nofun, nofun⟩

/-- The registries are proper each for itself, so one of them may be
exchanged. -/
theorem Proper.withInventory (h : s.Proper) {inventory : Inventory}
    (hi : inventory.Proper) : Proper { s with inventory } :=
  ⟨hi, h.places, h.queue, h.roster, h.journal, h.pending⟩

theorem Proper.withPlaces (h : s.Proper) {places : Places}
    (hp : places.Proper) : Proper { s with places } :=
  ⟨h.inventory, hp, h.queue, h.roster, h.journal, h.pending⟩

theorem Proper.withQueue (h : s.Proper) {queue : Queue}
    (hq : queue.Proper) : Proper { s with queue } :=
  ⟨h.inventory, h.places, hq, h.roster, h.journal, h.pending⟩

theorem Proper.withRoster (h : s.Proper) {roster : Roster}
    (hr : roster.Proper) : Proper { s with roster } :=
  ⟨h.inventory, h.places, h.queue, hr, h.journal, h.pending⟩

/-- What is neither stored for anybody nor reported may be anything. -/
theorem Proper.aside (h : s.Proper) (notices : List (SessionId × String))
    (incompleteSince : Table String Nat) (evictions : Nat) :
    Proper { s with notices, incompleteSince, evictions } :=
  ⟨h.inventory, h.places, h.queue, h.roster, h.journal, h.pending⟩

/-- A snapshot shows the registries as they are. -/
theorem Proper.snapshot (h : s.Proper) : s.snapshot.Proper :=
  ⟨h.inventory.all, h.places.views _, h.queue.list⟩

-- ================================================================ events

/-- A change is reported to the log, which may forget older ones, and to
the mailboxes. -/
theorem Proper.emit (h : s.Proper) {c : Change} (hc : c.Proper) :
    (s.emit c).Proper := by
  refine { h with journal := fun e he => ?_, pending := ?_ }
  · rcases List.mem_append.1 (List.mem_of_mem_drop he) with hold | hnew
    · exact h.journal e hold
    · cases List.mem_singleton.1 hnew
      exact hc
  · exact List.forall_mem_append.2
      ⟨h.pending, List.forall_mem_singleton.2 hc⟩

/-- Changes are reported one after another. -/
theorem Proper.emitAll (h : s.Proper) {cs : List Change}
    (hcs : ∀ c ∈ cs, c.Proper) : (s.emitAll cs).Proper :=
  List.foldlRecOn cs _ h fun _ hs c hc => hs.emit (hcs c hc)

/-- What is said of a reservation is the reservation. -/
theorem Proper.emitReservation (h : s.Proper) {r : Reservation}
    (hr : r.Proper) : (s.emit (.reservation r)).Proper :=
  h.emit hr

/-- And so of each in a list of them. -/
theorem Proper.emitReservations (h : s.Proper) {rs : List Reservation}
    (hrs : ∀ r ∈ rs, r.Proper) : (s.emitReservations rs).Proper :=
  h.emitAll (List.forall_mem_map.2 hrs)

/-- The views of places are taken from the state that reports them. -/
theorem Proper.emitPlaces (h : s.Proper) (names : List String) :
    (s.emitPlaces names).Proper := by
  refine List.foldlRecOn names _ h fun s hs name _ => ?_
  split
  · next view hview =>
    exact hs.emit ((hs.places.view s.inventory name).granted view hview)
  · exact hs

/-- A notice is for one session and no part of the state. -/
theorem Proper.notify (h : s.Proper) (session : SessionId)
    (reason : String) : (s.notify session reason).Proper :=
  h.aside _ s.incompleteSince s.evictions

-- ============================================================== cascades

/-- The queue after a change, and what has changed in it. -/
theorem Proper.requeue (h : s.Proper) {out : List Reservation × Queue}
    (hq : (∀ r ∈ out.1, r.Proper) ∧ out.2.Proper) :
    ({ s with queue := out.2 }.emitReservations out.1).Proper :=
  (h.withQueue hq.2).emitReservations hq.1

/-- Whatever is served, it is waiting reservations of this state. -/
theorem Proper.rescan (h : s.Proper) (now : Moment) (skip : List String) :
    (s.rescan now skip).Proper :=
  h.requeue (h.queue.rescan s.inventory s.isFree skip now)

/-- Marks change one by one, and each change is reported. -/
theorem Proper.markAcquired (h : s.Proper) (ids : List ResourceId)
    (acquired : Bool) : (s.markAcquired ids acquired).Proper := by
  refine List.foldlRecOn ids _ h fun s hs id _ => ?_
  have hset := hs.inventory.setAcquired id acquired
  split
  · next inventory change heq =>
    rw [heq] at hset
    exact (hs.withInventory hset.1).emit
      (toChange_proper (hset.2 change rfl))
  · exact hs

/-- What follows the change of a resource: its mark is put back if a
place holds it, and the session that publishes it is told what it
offers. -/
theorem Proper.applyChange (h : s.Proper) (owner : SessionId)
    {c : ResourceChange} (hc : c.Proper) :
    (applyChange owner s c).Proper := by
  unfold State.applyChange
  split
  next inventory change heq =>
  have hchange : inventory.Proper ∧ change.Proper := by
    split at heq
    · next r =>
      split at heq
      · have hset := h.inventory.setAcquired r.id true
        split at heq
        · next hmarked =>
          cases heq
          rw [hmarked] at hset
          exact ⟨hset.1, hset.2 _ rfl⟩
        · next hmarked =>
          cases heq
          rw [hmarked] at hset
          exact ⟨hset.1, hc⟩
      · cases heq
        exact ⟨h.inventory, hc⟩
    · cases heq
      exact ⟨h.inventory, trivial⟩
  refine Proper.emit ((h.withInventory hchange.1).withRoster
    (h.roster.edit owner fun o => ?_)) (toChange_proper hchange.2)
  cases change <;> rfl

/-- After the changes come the places they touch, the reservations they
hit and a rescan. -/
theorem Proper.applyChanges (h : s.Proper) (owner : SessionId)
    {cs : List ResourceChange} (hcs : ∀ c ∈ cs, c.Proper) (now : Moment) :
    (s.applyChanges owner cs now).Proper := by
  unfold State.applyChanges
  split
  · exact h
  · have hfold : (cs.foldl (State.applyChange owner) s).Proper :=
      List.foldlRecOn cs _ h fun _ hs c hc => hs.applyChange owner (hcs c hc)
    have hplaces := hfold.emitPlaces
      ((cs.foldl (State.applyChange owner) s).places.affectedBy
        (cs.map (·.id)))
    exact (hplaces.requeue (hplaces.queue.invalidate _)).rescan now []

-- ============================================================== releases

/-- Behind a release the resources, the holder and the place are cleaned
up before the queue looks at what is free. -/
theorem Proper.finishRelease (h : s.Proper) (place : String)
    (holder : Option Holder) (freed : List ResourceId) (now : Moment) :
    (s.finishRelease place holder freed now).Proper := by
  have hmarked := h.markAcquired freed false
  have hstruck : ∀ roster : Roster, roster.Proper →
      (({ s.markAcquired freed false with
        roster
        incompleteSince := (s.markAcquired freed false).incompleteSince.erase
          place }.emitPlaces [place]).rescan now []).Proper :=
    fun roster hroster => Proper.rescan (Proper.emitPlaces
      ((hmarked.withRoster hroster).aside _ _ _) [place]) now []
  refine hstruck _ ?_
  split
  · exact hmarked.roster.edit _ fun _ => rfl
  · exact hmarked.roster

/-- Nothing happens when nobody holds the place. -/
theorem Proper.releaseFrom (h : s.Proper) (place : String)
    (session : SessionId) (holder : Option Holder) {now : Moment}
    (hnow : now.date.InCalendar) :
    (s.releaseFrom place session holder now).Proper := by
  have hrelease := h.places.release place session true hnow
  unfold State.releaseFrom
  split
  · next freed places heq =>
    exact (h.withPlaces (hrelease.granted _ heq)).finishRelease place holder
      freed now
  · exact h

-- ============================================================== sessions

/-- The places of a session are given back in the order of the list. -/
theorem Proper.releaseAll (h : s.Proper) (session : SessionId)
    {now : Moment} (hnow : now.date.InCalendar) (names : List String) :
    (names.foldl (fun s place => s.releaseFrom place session none now)
      s).Proper :=
  List.foldlRecOn names _ h fun _ hs place _ =>
    hs.releaseFrom place session none hnow

/-- A session that ends takes its resources, its places and its
reservations with it, in this order. -/
theorem Proper.teardown (h : s.Proper) (session : SessionId)
    {now : Moment} (hnow : now.date.InCalendar) :
    (s.teardown session now).Proper := by
  have hremoved := h.inventory.removeOwner session
  have hchanged :=
    (h.withInventory hremoved.1).applyChanges session hremoved.2 now
  have hreleased := hchanged.releaseAll session hnow
  exact ((hreleased _).requeue
    ((hreleased _).queue.removeSession session)).rescan now []

/-- The session itself goes first. -/
theorem Proper.endSession (h : s.Proper) (session : SessionId)
    {now : Moment} (hnow : now.date.InCalendar) :
    (s.endSession session now).Proper :=
  (h.withRoster (h.roster.remove session)).teardown session hnow

-- ================================================================= sweep

/-- An eviction is counted and told before the session ends. -/
theorem Proper.evict (h : s.Proper) (session : SessionId) {now : Moment}
    (hnow : now.date.InCalendar) : (s.evict session now).Proper := by
  unfold State.evict
  split
  · exact (h.aside _ _ _).endSession session hnow
  · exact h

/-- A rescan follows only where something has lapsed. -/
theorem Proper.expireReservations (h : s.Proper) (now : Moment) :
    (s.expireReservations now).Proper := by
  have hq := h.queue.expire now
  have hs := h.withQueue hq.2
  unfold State.expireReservations
  dsimp only
  split
  · exact hs
  · exact (hs.emitReservations hq.1).rescan now _

/-- An incomplete place is given back when its time is up and is only
noted before. -/
theorem Proper.checkOrphan (h : s.Proper) (limit : Nat) {now : Moment}
    (hnow : now.date.InCalendar) (name : String) :
    (checkOrphan limit now s name).Proper := by
  have hs : ∀ since, Proper { s with incompleteSince := since } :=
    fun since => h.aside s.notices since s.evictions
  unfold State.checkOrphan
  dsimp only
  split
  · exact hs _
  · split
    · split
      · exact (hs _).releaseFrom name _ _ hnow
      · exact hs _
    · exact hs _

/-- Without a limit the sweep looks at no place. -/
theorem Proper.releaseOrphans (h : s.Proper) {now : Moment}
    (hnow : now.date.InCalendar) : (s.releaseOrphans now).Proper := by
  unfold State.releaseOrphans
  split
  · exact h
  · next limit _ =>
    exact List.foldlRecOn _ _ (h.aside _ _ _) fun _ hs name _ =>
      hs.checkOrphan limit hnow name

/-- Evictions come before the queue and the queue before the places. -/
theorem Proper.sweep (h : s.Proper) {now : Moment}
    (hnow : now.date.InCalendar) : (s.sweep now).Proper := by
  have hevicted : (s.evictSilent now).Proper :=
    List.foldlRecOn _ _ h fun _ hs session _ => hs.evict session hnow
  exact (hevicted.expireReservations now).releaseOrphans hnow

end State

-- =============================================================== actions

namespace Action

variable {α β : Type} {Q : α → Prop} {R : β → Prop} {now : Moment}

/-- Whatever an action leaves is proper, and its answer is of some
kind. -/
structure Keeps (Q : α → Prop) (a : Action α) : Prop where
  left : ∀ {s}, s.Proper → (a.apply s).2.Proper
  answer : ∀ {s}, s.Proper → ∀ v, (a.apply s).1 = .ok v → Q v

namespace Keeps

/-- An answer of the kind may be given at once. -/
theorem pure {v : α} (h : Q v) : Keeps Q (pure v) := by
  refine ⟨id, fun _ w hw => ?_⟩
  cases hw
  exact h

/-- A refusal answers nothing and leaves the state alone. -/
theorem throw (e : Refusal) : Keeps Q (throw e) := ⟨id, fun _ => nofun⟩

/-- A computation of the registries changes nothing by itself. -/
theorem ofExcept {r : Except Refusal α} (h : Grants Q r) :
    Keeps Q (ofExcept r) :=
  ⟨id, fun _ => h.granted⟩

/-- What was granted may be of any kind. -/
theorem given (r : Except Refusal α) :
    Keeps (fun _ => True) (Action.ofExcept r) :=
  ⟨id, fun _ _ _ => trivial⟩

/-- An action may rely on what it reads. -/
theorem get : Keeps State.Proper (get : Action State) := by
  refine ⟨id, fun hs v hv => ?_⟩
  cases hv
  exact hs

/-- It has to store something proper. -/
theorem set {s : State} (h : s.Proper) :
    Keeps (fun _ => True) (set s : Action Unit) :=
  ⟨fun _ => h, fun _ _ _ => trivial⟩

/-- And to change it into something proper. -/
theorem modify {f : State → State} (h : ∀ s, s.Proper → (f s).Proper) :
    Keeps (fun _ => True) (modify f : Action Unit) :=
  ⟨fun hs => h _ hs, fun _ _ _ => trivial⟩

/-- The rest of an action is handed a proper answer in a proper state. -/
theorem bind {a : Action α} {f : α → Action β} (h : Keeps Q a)
    (hf : ∀ v, Q v → Keeps R (f v)) : Keeps R (a >>= f) := by
  have hboth : ∀ {s : State}, s.Proper → ((a >>= f).apply s).2.Proper
      ∧ ∀ v, ((a >>= f).apply s).1 = .ok v → R v := by
    intro s hs
    have hleft := h.left hs
    have hanswer := h.answer hs
    cases ha : a.apply s with
    | mk out t =>
      rw [ha] at hleft hanswer
      cases out with
      | error e =>
        rw [apply_bind_error ha]
        exact ⟨hleft, nofun⟩
      | ok v =>
        rw [apply_bind_ok ha]
        have hnext := hf v (hanswer v rfl)
        exact ⟨hnext.left hleft, hnext.answer hleft⟩
  exact ⟨fun hs => (hboth hs).1, fun hs => (hboth hs).2⟩

end Keeps

/-- Looking up who asks touches nothing. -/
theorem require_keeps (session : SessionId) (role : Role) (what : String) :
    Keeps (fun _ => True) (require session role what) := by
  unfold require
  refine .bind .get fun s _ => .bind (.given _) fun o _ => ?_
  split
  · exact .bind (.throw (Q := fun _ => True) _) fun _ _ => .pure trivial
  · exact .pure trivial

/-- Nor does naming the holder. -/
theorem holder_keeps (session : SessionId) (what : String) :
    Keeps (fun _ => True) (holder session what) :=
  .bind (require_keeps ..) fun _ _ => .pure trivial

/-- Every request is a sign of life and moves that time only. -/
theorem heartbeat_keeps (session : SessionId) (now : Moment) :
    Keeps (fun _ => True) (heartbeat session now) :=
  .bind .get fun _ hs => .bind (.ofExcept (hs.roster.heartbeat session now))
    fun _ hroster => .modify fun _ hs => hs.withRoster hroster

/-- The session that has the name ends first, if there is one. -/
theorem register_keeps (name : String) (role : Role)
    (hnow : now.date.InCalendar) :
    Keeps (fun _ => True) (register name role now) := by
  unfold register
  have hjoin : Keeps (fun _ => True) (do
      let out ← ofExcept ((← get).roster.register name role now)
      modify fun s => { s with roster := out.2 }
      return out.1 : Action SessionId) :=
    .bind .get fun _ hs => .bind
      (.ofExcept (hs.roster.register name role hnow)) fun _ hroster =>
        .bind (.modify fun _ hs => hs.withRoster hroster) fun _ _ =>
          .pure trivial
  refine .bind .get fun s _ => ?_
  split
  · refine .bind (.modify fun s hs => ?_) fun _ _ => hjoin
    exact (hs.notify _ _).endSession _ hnow
  · exact hjoin

/-- A session that says farewell ends like any other. -/
theorem disconnect_keeps (session : SessionId)
    (hnow : now.date.InCalendar) :
    Keeps (fun _ => True) (disconnect session now) :=
  .bind .get fun _ _ => .bind (.given _) fun _ _ =>
    .modify fun _ hs => hs.endSession session hnow

-- ============================================================= resources

/-- What was sent is published under the name of the session. -/
theorem setResources_keeps (session : SessionId)
    {specs : List ResourceSpec} (now : Moment)
    (hspecs : ∀ s ∈ specs, s.Proper) :
    Keeps (fun _ => True) (setResources session specs now) :=
  .bind (require_keeps ..) fun o _ => .bind .get fun _ hs =>
    .bind (.ofExcept (hs.inventory.publish o.name session hspecs))
      fun _ hout => .bind (.modify fun _ hs =>
        (hs.withInventory hout.2).applyChanges session hout.1 now)
          fun _ _ => .pure trivial

/-- A withdrawal is granted or refused as a whole. -/
theorem withdraw_keeps (session : SessionId) (ids : List ResourceId)
    (now : Moment) : Keeps (fun _ => True) (withdraw session ids now) :=
  .bind (require_keeps ..) fun _ _ => .bind .get fun _ hs =>
    .bind (.ofExcept (hs.inventory.withdraw session ids))
      fun _ hout => .bind (.modify fun _ hs =>
        (hs.withInventory hout.2).applyChanges session hout.1 now)
          fun _ _ => .pure trivial

-- ================================================================ places

/-- The view that is reported is the one that is answered. -/
theorem placeChanged_keeps (name : String) :
    Keeps PlaceView.Proper (placeChanged name) :=
  .bind .get fun s hs => .bind
    (.ofExcept (hs.places.view s.inventory name)) fun _ hview =>
      .bind (.set (hs.emit hview)) fun _ _ => .pure hview

/-- An edit of a place need only be one of its registry. -/
theorem editPlace_keeps (session : SessionId) (name : String)
    {edit : Places → Except Refusal Places}
    (hedit : ∀ ps : Places, ps.Proper → Grants Places.Proper (edit ps)) :
    Keeps PlaceView.Proper (editPlace session name edit) :=
  .bind (require_keeps ..) fun _ _ => .bind .get fun s hs =>
    .bind (.ofExcept (hedit s.places hs.places)) fun _ hplaces =>
      .bind (.modify fun _ hs => hs.withPlaces hplaces) fun _ _ =>
        placeChanged_keeps name

/-- A new place is reported before it is answered. -/
theorem createPlace_keeps (session : SessionId) (name : String)
    {patterns : List ResourcePattern} (tags : Table String String)
    (hpatterns : ∀ m ∈ patterns, m.Written) (hnow : now.date.InCalendar) :
    Keeps PlaceView.Proper (createPlace session name patterns tags now) :=
  .bind (require_keeps ..) fun _ _ => .bind .get fun _ hs =>
    .bind (.ofExcept (hs.places.create name tags hpatterns hnow))
      fun _ hout => .bind (.set (State.Proper.emit (hs.withPlaces hout.2) hout.1))
        fun _ _ => .pure hout.1

/-- Of a place that is gone only the name is reported. -/
theorem deletePlace_keeps (session : SessionId) (name : String) :
    Keeps (fun _ => True) (deletePlace session name) :=
  .bind (require_keeps ..) fun _ _ => .bind .get fun _ hs =>
    .bind (.ofExcept (hs.places.delete name)) fun _ hplaces =>
      .modify fun _ hs => (hs.withPlaces hplaces).emit trivial

/-- After the place the session that holds it is told, and its
reservations that are served by it are taken up. -/
theorem acquire_keeps (session : SessionId) (place : String)
    (hnow : now.date.InCalendar) :
    Keeps PlaceView.Proper (acquire session place now) := by
  unfold acquire
  refine .bind (holder_keeps ..) fun client _ => .bind .get fun s hs =>
    .bind (.ofExcept (hs.places.acquire place client s.inventory _ hnow))
      fun out hplaces => ?_
  refine .bind (.modify fun _ hs =>
    (hs.withPlaces hplaces).markAcquired out.1 true) fun _ _ => ?_
  refine .bind (.modify fun _ hs => hs.withRoster
    (hs.roster.edit session fun _ => rfl)) fun _ _ => ?_
  refine .bind (placeChanged_keeps place) fun view hview => ?_
  refine .bind .get fun t ht => ?_
  have hconverted := ht.queue.convert session out.1 now
  dsimp only
  split
  · exact .bind (.modify fun _ hs => (hs.requeue hconverted).rescan now [])
      fun _ _ => .pure hview
  · exact .pure hview

/-- A place is given back by its holder or by force, and is then shown as
it is. -/
theorem release_keeps (session : SessionId) (place : String)
    (force : Bool) (hnow : now.date.InCalendar) :
    Keeps PlaceView.Proper (release session place force now) :=
  .bind (require_keeps ..) fun _ _ => .bind .get fun _ hs =>
    .bind (.given _) fun _ _ =>
      .bind (.ofExcept (hs.places.release place session _ hnow))
        fun _ hplaces => .bind (.set ((hs.withPlaces hplaces).finishRelease
          place _ _ now)) fun _ _ => .bind .get fun t ht =>
            .ofExcept (ht.places.view t.inventory place)

-- ========================================================== reservations

/-- A new reservation may be served at once, so the answer is read once
more behind the rescan. -/
theorem createReservation_keeps (session : SessionId)
    {filters : List ResourcePattern} {priority : Int}
    (hfilters : ∀ m ∈ filters, m.Written) (hpriority : IsPriority priority)
    (hnow : now.date.InCalendar) :
    Keeps Reservation.Proper
      (createReservation session filters priority now) :=
  .bind (holder_keeps ..) fun owner _ => .bind .get fun _ hs =>
    .bind (.ofExcept (hs.queue.create owner hfilters hpriority hnow))
      fun _ hout => .bind (.modify fun _ hs =>
        ((hs.withQueue hout.2).emitReservation hout.1).rescan now [])
          fun _ _ => .bind .get fun _ ht => .ofExcept (ht.queue.get _)

/-- One that has come to its end already is answered as it is. -/
theorem cancelReservation_keeps (session : SessionId) (id : String)
    (now : Moment) :
    Keeps Reservation.Proper (cancelReservation session id now) := by
  unfold cancelReservation
  have hread : Keeps Reservation.Proper
      (do ofExcept ((← get).queue.get id) : Action Reservation) :=
    .bind .get fun _ hs => .ofExcept (hs.queue.get id)
  refine .bind .get fun _ hs => .bind
    (.ofExcept (hs.queue.cancel id session now)) fun out hout => ?_
  dsimp only
  split
  · next r hr =>
    exact .bind (.modify fun _ hs =>
      ((hs.withQueue hout.2).emitReservation (hout.1 r hr)).rescan now [])
        fun _ _ => hread
  · exact hread

/-- A poll asks for what is stored. -/
theorem pollReservation_keeps (session : SessionId) (id : String)
    (now : Moment) :
    Keeps Reservation.Proper (pollReservation session id now) :=
  .bind .get fun _ hs => .bind
    (.ofExcept (hs.queue.poll id session now)) fun _ hout =>
      .bind (.modify fun _ hs => hs.withQueue hout.2) fun _ _ =>
        .pure hout.1

-- ============================================================ operations

/-- Whatever a proper request comes to, what is stored then is proper, and
so is the answer. -/
theorem execute_keeps (session : SessionId) {op : Operation}
    (hop : op.Proper) (hnow : now.date.InCalendar) :
    Keeps Reply.Proper (execute session op now) := by
  unfold execute
  refine .bind (heartbeat_keeps session now) fun _ _ => ?_
  cases op with
  | register name role => exact .throw _
  | heartbeat => exact .pure trivial
  | disconnect =>
    exact .bind (disconnect_keeps session hnow) fun _ _ => .pure trivial
  | setResources specs =>
    exact .bind (setResources_keeps session now hop) fun _ _ =>
      .pure trivial
  | withdraw ids =>
    exact .bind (withdraw_keeps session ids now) fun _ _ => .pure trivial
  | listPlaces filter =>
    refine .bind .get fun s hs => .pure ?_
    refine List.forall_mem_map.2 fun p hp => ?_
    exact hs.places p (List.mem_of_mem_filter hp)
  | listResources pattern =>
    exact .bind .get fun s hs => .pure fun r hr =>
      hs.inventory.all r (List.mem_of_mem_filter hr)
  | listReservations => exact .bind .get fun s hs => .pure hs.queue.list
  | listSessions => exact .bind .get fun s hs => .pure hs.roster.list
  | createPlace name patterns tags =>
    exact .bind (createPlace_keeps session name tags hop hnow)
      fun _ hview => .pure hview
  | deletePlace name =>
    exact .bind (deletePlace_keeps session name) fun _ _ => .pure trivial
  | addMatch name pattern =>
    exact .bind (editPlace_keeps session name fun ps hps =>
      hps.addMatch name hop hnow) fun _ hview => .pure hview
  | deleteMatch name pattern =>
    exact .bind (editPlace_keeps session name fun ps hps =>
      hps.deleteMatch name pattern hnow) fun _ hview => .pure hview
  | setTags name tags =>
    exact .bind (editPlace_keeps session name fun ps hps =>
      hps.setTags name tags hnow) fun _ hview => .pure hview
  | setComment name comment =>
    exact .bind (editPlace_keeps session name fun ps hps =>
      hps.setComment name comment hnow) fun _ hview => .pure hview
  | acquire place =>
    exact .bind (acquire_keeps session place hnow) fun _ hview =>
      .pure hview
  | release place force =>
    exact .bind (release_keeps session place force hnow) fun _ hview =>
      .pure hview
  | createReservation filters priority =>
    exact .bind (createReservation_keeps session hop.1 hop.2 hnow)
      fun _ hr => .pure hr
  | cancelReservation id =>
    exact .bind (cancelReservation_keeps session id now) fun _ hr =>
      .pure hr
  | pollReservation id =>
    exact .bind (pollReservation_keeps session id now) fun _ hr => .pure hr
  | subscribe lastEvent => exact .throw _
  | unsubscribe => exact .throw _
  | snapshot => exact .bind .get fun s hs => .pure hs.snapshot

end Action

end LabLease.Coordinator
