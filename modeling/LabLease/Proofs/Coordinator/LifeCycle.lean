/-
The life cycle of reservations in the log: every reservation is reported
under consecutive versions from waiting on, from one state to a next one,
and whatever is answered about it is its latest report.

# One operation of the queue for each move

A move does at most one thing to the queue and reports what that thing
returns (`Move.operates`). So what is known of the operations of the queue
is known of moves, and the reports of a move are strides of the queue.

# What is answered

An answer is read off the state after the call, and there what is stored
was reported last. This is why an answer that was computed before a
rescan within the same call would not do.
-/
import LabLease.Proofs.Coordinator.Log
import LabLease.Proofs.Registry.Stride

namespace LabLease

/-- The reservations that an answer shows. -/
def Reply.shown : Reply → List Reservation
  | .reservation r => [r]
  | .reservations rs => rs
  | .snapshot view => view.reservations
  | _ => []

/-- The reservation that an operation is about, if it is about one. -/
def Operation.about? : Operation → Option String
  | .pollReservation id | .cancelReservation id => some id
  | _ => none

namespace Coordinator

variable {k : Kind} {l l' : Option SessionId} {s s' : State}

-- ========================================================= the one operation

/-- What a move may do to the queue, with what it reports of it. -/
inductive Operates (s : State) : List Reservation → Queue → Prop
  | none : Operates s [] s.queue
  | rescan (now : Moment) (skip : List String) :
    Operates s (s.queue.rescan s.inventory s.isFree skip now).1
      (s.queue.rescan s.inventory s.isFree skip now).2
  | invalidate (removed : List ResourceId) :
    Operates s (s.queue.invalidate removed).1
      (s.queue.invalidate removed).2
  | convert (session : SessionId) (bound : List ResourceId)
      (now : Moment) :
    Operates s (s.queue.convert session bound now).1
      (s.queue.convert session bound now).2
  | create {owner : Holder} {filters : List ResourcePattern}
      {priority : Int} {now : Moment} {r : Reservation} {queue : Queue}
      (h : s.queue.create owner filters priority now = .ok (r, queue)) :
    Operates s [r] queue
  | cancel {id : String} {session : SessionId} {now : Moment}
      {r : Reservation} {queue : Queue}
      (h : s.queue.cancel id session now = .ok (some r, queue)) :
    Operates s [r] queue
  | poll {id : String} {session : SessionId} {now : Moment}
      {r : Reservation} {queue : Queue}
      (h : s.queue.poll id session now = .ok (r, queue)) :
    Operates s [] queue
  | expire (now : Moment) :
    Operates s (s.queue.expire now).1.changed (s.queue.expire now).2
  | removeSession (session : SessionId) :
    Operates s (s.queue.removeSession session).1
      (s.queue.removeSession session).2

theorem Move.operates (hm : Move k l s l' s') :
    ∃ cs, Emits s s' cs ∧ Operates s (reported cs) s'.queue := by
  -- where the queue is changed the reports stand last
  have hlast : ∀ (t : State) (cs : List Change) (rs : List Reservation),
      t.pending = s.pending → reported cs = [] → Operates s rs t.queue →
      ∃ ds, Emits s (t.emitAll (cs ++ rs.map .reservation)) ds
        ∧ Operates s (reported ds)
          (t.emitAll (cs ++ rs.map .reservation)).queue := by
    intro t cs rs hp hnone ho
    refine ⟨_, .emitAll hp _, ?_⟩
    rw [State.emitAll_queue, reported_append, hnone,
      reported_reservations]
    exact ho
  have honly : ∀ (t : State) (rs : List Reservation),
      t.pending = s.pending → Operates s rs t.queue →
      ∃ ds, Emits s (t.emitAll (rs.map .reservation)) ds
        ∧ Operates s (reported ds)
          (t.emitAll (rs.map .reservation)).queue :=
    fun t rs hp => hlast t [] rs hp rfl
  have hquiet : ∀ (t : State) (cs : List Change),
      t.pending = s.pending → reported cs = [] → t.queue = s.queue →
      ∃ ds, Emits s (t.emitAll cs) ds
        ∧ Operates s (reported ds) (t.emitAll cs).queue := by
    intro t cs hp hnone hq
    refine ⟨cs, .emitAll hp cs, ?_⟩
    rw [State.emitAll_queue, hnone, hq]
    exact .none
  have hshown : ∀ (changes : List ResourceChange) (ps : Places)
      (inv : Inventory) (names : List String),
      reported (changes.map ResourceChange.toChange
        ++ State.shown ps inv names) = [] := by
    intro changes ps inv names
    rw [reported_append, reported_changes, reported_shown]
    rfl
  cases hm with
  | aside | heard | join => exact ⟨[], .nil rfl, .none⟩
  | rescan now skip =>
    exact honly { s with queue := _ } _ rfl (.rescan now skip)
  | restock =>
    exact hlast { s with inventory := _, queue := _, roster := _ } _ _ rfl
      (hshown _ _ _ _) (.invalidate _)
  | leave =>
    exact hlast { s with inventory := _, queue := _, roster := _ } _ _ rfl
      (hshown _ _ _ _) (.invalidate _)
  | vacate =>
    exact hquiet { s with
      inventory := _, places := _, roster := _, incompleteSince := _ } _
      rfl (hshown _ _ _ _) rfl
  | create => exact hquiet { s with places := _ } [.place _] rfl rfl rfl
  | revise => exact hquiet { s with places := _ } [.place _] rfl rfl rfl
  | delete =>
    exact hquiet { s with places := _ } [.placeDeleted _] rfl rfl rfl
  | acquire =>
    exact hlast { s with
      inventory := _, places := _, queue := _, roster := _ } _ _ rfl
      (hshown _ _ _ _) (.convert _ _ _)
  | reserve _ _ hc => exact honly { s with queue := _ } [_] rfl (.create hc)
  | cancel hc => exact honly { s with queue := _ } [_] rfl (.cancel hc)
  | poll hp => exact ⟨[], .nil rfl, .poll hp⟩
  | expire now => exact honly { s with queue := _ } _ rfl (.expire now)
  | forget =>
    exact honly { s with queue := _ } _ rfl (.removeSession _)

/-- Whatever is done to the queue, its reports are strides. -/
theorem Operates.strides (h : Sound l s) (ht : Timed s)
    {rs : List Reservation} {q : Queue} (ho : Operates s rs q) :
    s.queue.Strides rs q := by
  cases ho with
  | none => exact .refl _
  | rescan now skip =>
    exact Queue.rescan_strides h.queue h.inventory _ skip now
  | invalidate removed => exact Queue.invalidate_strides h.queue removed
  | convert session bound now =>
    exact Queue.convert_strides h.queue session bound now
  | create hc => exact Queue.create_strides ht.fresh hc
  | cancel hc => exact Queue.cancel_strides h.queue hc
  | poll hp => exact Queue.poll_strides hp
  | expire now => exact Queue.expire_strides h.queue h.allotted.sound now
  | removeSession session =>
    exact Queue.removeSession_strides h.queue session

-- ================================================================== lives

/-- What has been logged of every reservation is its life. -/
def Recorded (log : List Change) (s : State) : Prop :=
  ∀ id, s.queue.Lived id (reportsOf id (reported log))

theorem Recorded.move (h : Sound l s) (ht : Timed s)
    (hm : Move k l s l' s') : Carried Recorded s s' := by
  obtain ⟨cs, hcs, ho⟩ := hm.operates
  refine ⟨cs, hcs, fun log hlog id => ?_⟩
  rw [reported_append, reportsOf_append]
  exact (hlog id).strides (ho.strides h ht)

theorem Recorded.reached (settings : Settings) (inputs : List Input) :
    Recorded ((State.new settings).log inputs)
      ((State.new settings).run inputs) := by
  have hnew : Recorded [] (State.new settings) :=
    fun id => .new _ _ id
  have hrun := (Sound.new settings).run_carried
    (fun h ht input _ => h.step_carried ht input (fun _ hp => hp)
      fun h ht => Recorded.move h ht) (.new settings) inputs hnew
  rwa [List.nil_append] at hrun

-- ================================================================ answers

section Answers

variable {session : SessionId} {op : Operation} {now : Moment}
  {reply : Reply} {id : String}

/-- What an answer shows of reservations is stored once it is given. -/
theorem Granted.shown_stored (hg : Granted session now s op reply s')
    (hf : s'.queue.Filed) (id : String) :
    (∀ r ∈ reply.shown, s'.queue.stored? r.id = some r)
      ∧ (op.about? = some id →
          ∃ r, reply = .reservation r ∧ r.id = id) := by
  -- the one reservation that is read in the end
  have hone : ∀ {i : String} {r : Reservation},
      s'.queue.stored? i = some r → (op.about? = some id → i = id) →
      (∀ x ∈ (Reply.reservation r).shown, s'.queue.stored? x.id = some x)
        ∧ (op.about? = some id →
          ∃ x, Reply.reservation r = .reservation x ∧ x.id = id) := by
    intro i r hr hi
    have hid := Queue.id_of_stored? hf hr
    refine ⟨fun x hx => ?_, fun ha => ⟨r, rfl, hid.trans (hi ha)⟩⟩
    rw [List.mem_singleton.1 hx, hid]
    exact hr
  cases hg with
  | answered h =>
    cases op with
    | listReservations | snapshot =>
      cases h
      exact ⟨fun r hr => Queue.stored?_of_mem_list hf hr, nofun⟩
    | heartbeat | listPlaces | listResources | listSessions =>
      cases h
      exact ⟨nofun, nofun⟩
    | _ => cases h
  | disconnected | published | withdrawn | created | deleted | acquired
  | released => exact ⟨nofun, nofun⟩
  | edited hop =>
    have hnot : op.about? = none := by
      cases op <;> first | rfl | cases hop
    exact ⟨nofun, fun ha => nomatch hnot.symm.trans ha⟩
  | reserved _ _ hr => exact hone (Queue.stored?_of_get hr) nofun
  | cancelled _ hr | finished _ hr =>
    exact hone (Queue.stored?_of_get hr) Option.some.inj
  | polled h =>
    refine hone ?_ Option.some.inj
    obtain ⟨e, he, -, rfl, -⟩ := Queue.poll_ok h
    rw [Queue.poll_stored? h]
    exact Queue.stored?_of_get? he

/-- An operation that is answered was granted, in a state in which the
session was just heard. -/
theorem granted_of_ok
    (hok : ((Action.execute session op now).apply s).1 = .ok reply) :
    ∃ roster, s.roster.heartbeat session now = .ok roster
      ∧ Granted session now { s with roster } op reply
          (s.step (.execute session op now)) := by
  rcases Action.execute_outcome s session op now with
    ⟨e, -, he⟩ | ⟨roster, hr, ho⟩
  · rw [he] at hok
    cases hok
  · refine ⟨roster, hr, ?_⟩
    show Granted session now { s with roster } op reply
      ((Action.execute session op now).apply s).2
    generalize (Action.execute session op now).apply s = out at ho hok
    cases ho with
    | refused => cases hok
    | done hg =>
      cases hok
      exact hg

/-- Every listing shows what is stored. -/
theorem listed_of_ok
    (hok : ((Action.execute session .listReservations now).apply s).1
      = .ok reply) {r : Reservation} (hr : s.queue.stored? id = some r) :
    r ∈ reply.shown := by
  obtain ⟨roster, -, hg⟩ := granted_of_ok hok
  generalize s.step _ = t at hg
  cases hg with
  | answered h =>
    cases h
    exact Queue.mem_list_of_stored? hr
  | edited hop => cases hop

/-- A live session is heard, and what it asks for is done as it is. -/
theorem execute_ok {α : Type} {roster : Roster} {a : Action α} {v : α}
    {t : State} {f : α → Reply}
    (hr : s.roster.heartbeat session now = .ok roster)
    (ha : a.apply { s with roster } = (.ok v, t))
    (hop : Action.execute session op now
      = (do Action.heartbeat session now; return f (← a))) :
    ((Action.execute session op now).apply s).1 = .ok (f v) := by
  have hbeat := Action.heartbeat_apply s session now
  rw [hr] at hbeat
  rw [hop, Action.apply_bind_ok hbeat, Action.apply_bind_ok ha]
  rfl

end Answers

namespace Sound

variable {e : QueueEntry} {id : String}

/-- Whoever owns a reservation that is stored is live. -/
theorem owner_heard (h : Sound none s)
    (he : s.queue.entries.get? id = some e) (now : Moment) :
    ∃ roster, s.roster.heartbeat e.reservation.owner.session now
      = .ok roster := by
  obtain ⟨o, ho, -, -⟩ :=
    (h.attended.tenants id e he).resolve_left (Option.some_ne_none _).symm
  exact Roster.heartbeat_of_live ho now

/-- Whoever owns a reservation that is stored may poll it. -/
theorem poll_answered (h : Sound none s)
    (he : s.queue.entries.get? id = some e) (now : Moment) :
    ∃ reply, ((Action.execute e.reservation.owner.session
      (.pollReservation id) now).apply s).1 = .ok reply := by
  obtain ⟨roster, hr⟩ := h.owner_heard he now
  obtain ⟨q, hq⟩ := Queue.poll_of_get? he now
  have happly : (Action.pollReservation e.reservation.owner.session id
      now).apply { s with roster }
        = (.ok e.reservation, { s with roster, queue := q }) := by
    unfold Action.pollReservation
    rw [Action.apply_bind_ok (Action.apply_get _), hq,
      Action.apply_bind_ok (Action.apply_ofExcept _ _)]
    rfl
  exact ⟨_, execute_ok (f := .reservation) hr happly rfl⟩

/-- And may cancel it, finished or not. -/
theorem cancel_answered (h : Sound none s)
    (he : s.queue.entries.get? id = some e) (now : Moment) :
    ∃ reply, ((Action.execute e.reservation.owner.session
      (.cancelReservation id) now).apply s).1 = .ok reply := by
  obtain ⟨roster, hr⟩ := h.owner_heard he now
  obtain ⟨out, q, hq⟩ := Queue.cancel_of_get? he now
  have happly : ∃ r t, (Action.cancelReservation
      e.reservation.owner.session id now).apply { s with roster }
        = (.ok r, t) := by
    unfold Action.cancelReservation
    rw [Action.apply_bind_ok (Action.apply_get _), hq,
      Action.apply_bind_ok (Action.apply_ofExcept _ _)]
    obtain ⟨f, hf, -, ⟨-, rfl, rfl⟩ | ⟨-, rfl, rfl⟩⟩ := Queue.cancel_ok hq
    · refine ⟨f.reservation, { s with roster }, ?_⟩
      dsimp only
      rw [Action.apply_bind_ok (Action.apply_get _), Action.apply_ofExcept]
      exact congrArg (·, _) (Queue.get_of_get? hf)
    · dsimp only
      rw [Action.apply_bind_ok (Action.apply_modify _ _),
        Action.apply_bind_ok (Action.apply_get _), Action.apply_ofExcept]
      obtain ⟨r, hr'⟩ := Action.get_of_rescan (t := State.emit
        { s with roster, queue := { s.queue with
          entries := s.queue.entries.insert id
            { f.moved .cancelled with
              retireAt := some (now.ticks + s.queue.pollTimeout) } } }
        (.reservation (f.moved .cancelled).reservation))
        ((Table.get?_insert ..).trans (if_pos rfl)) now []
      exact ⟨r, _, congrArg (·, _) hr'⟩
  obtain ⟨r, t, ha⟩ := happly
  exact ⟨_, execute_ok (f := .reservation) hr ha rfl⟩

end Sound

-- ========================================================= the life cycle

/-- What is logged of a reservation. -/
def State.reports (s : State) (id : String) (inputs : List Input) :
    List Reservation :=
  reportsOf id (reported (s.log inputs))

/-- The life cycle of reservations. The log of a run is what its calls
have appended to the journal. In it the reports of a reservation have the
versions from one on; the first finds it waiting with nothing set aside,
and the next report after one is that of a next state, for the same
owner with the same wishes; after a final one there is none. While the
reservation is stored, it is as it was reported last. So is whatever an
answer to any operation of any session shows of it, in the log that ends
with the call; an operation about the reservation shows it, the owner's
polls and cancellations are answered while it is stored, and every
listing shows it then. -/
theorem reservation_life (settings : Settings) (inputs : List Input)
    (id : String) :
    let start := State.new settings
    let s := start.run inputs
    let told := start.reports id inputs
    s.journal = start.journal.extend (start.log inputs)
    ∧ told.map (·.version) = List.range' 1 told.length
    ∧ (∀ r, told.head? = some r →
        r.state = .waiting ∧ r.allocations = [])
    ∧ (∀ before r r' after, told = before ++ r :: r' :: after →
        (r.state, r'.state) ∈ ReservationState.steps
        ∧ r'.owner = r.owner ∧ r'.filters = r.filters
        ∧ r'.priority = r.priority)
    ∧ (∀ before r after, told = before ++ r :: after →
        r.state.isFinal = true → after = [])
    ∧ (∀ session op now reply,
        ((Action.execute session op now).apply s).1 = .ok reply →
        (∀ r ∈ reply.shown, r.id = id →
          (start.reports id (inputs ++ [.execute session op now])).getLast?
            = some r)
        ∧ (op.about? = some id →
          ∃ r, reply = .reservation r ∧ r.id = id))
    ∧ ∀ e, s.queue.entries.get? id = some e →
        told.getLast? = some e.reservation
        ∧ ∀ now,
          (∃ reply, ((Action.execute e.reservation.owner.session
              (.pollReservation id) now).apply s).1 = .ok reply)
          ∧ (∃ reply, ((Action.execute e.reservation.owner.session
              (.cancelReservation id) now).apply s).1 = .ok reply)
          ∧ ∀ session reply, ((Action.execute session .listReservations
              now).apply s).1 = .ok reply → e.reservation ∈ reply.shown := by
  intro start s told
  have h : Sound none s := .reached settings inputs
  have hlife : s.queue.Lived id told := Recorded.reached settings inputs id
  refine ⟨(Sound.new settings).run_log inputs, hlife.versions, ?_, ?_, ?_,
    ?_, ?_⟩
  · intro r hr
    have hfirst := hlife.first r hr
    exact ⟨hfirst.waiting, hfirst.allocations⟩
  · intro before r r' after heq
    have hnext := (heq ▸ hlife).next
    exact ⟨hnext.step, hnext.owner, hnext.filters, hnext.priority⟩
  · intro before r after heq
    exact (heq ▸ hlife).last_of_final
  · intro session op now reply hok
    obtain ⟨roster, hr, hg⟩ := granted_of_ok hok
    have hafter := Recorded.reached settings
      (inputs ++ [.execute session op now]) id
    have hsound := Sound.reached settings
      (inputs ++ [.execute session op now])
    rw [State.run_append] at hafter hsound
    obtain ⟨hshown, habout⟩ := hg.shown_stored hsound.queue id
    refine ⟨fun r hr hid => ?_, habout⟩
    exact hafter.stored r (hid ▸ hshown r hr)
  · intro e he
    have hstored := Queue.stored?_of_get? he
    refine ⟨hlife.stored _ hstored, fun now => ⟨h.poll_answered he now,
      h.cancel_answered he now, fun session reply hok => ?_⟩⟩
    exact listed_of_ok hok hstored

/-- A booking whose place is acquired. -/
def usedBooking : List Input :=
  booking ++ [.execute 2 (.acquire "board") late]

/-- The reservation waits, is served and ends with the acquisition, and
its owner can still poll it. -/
theorem reservation_life_booking :
    (((State.new {}).reports (Reservation.idOf 1) usedBooking).map
        (·.version) = [1, 2, 3])
    ∧ (∃ first r r',
      (State.new {}).reports (Reservation.idOf 1) usedBooking
        = [first, r, r']
      ∧ r.state = .allocated ∧ r'.state = .acquired
      ∧ r'.owner = r.owner)
    ∧ ∃ e, ((State.new {}).run usedBooking).queue.entries.get?
        (Reservation.idOf 1) = some e
      ∧ ((State.new {}).reports (Reservation.idOf 1) usedBooking).getLast?
        = some e.reservation
      ∧ ∃ r op, op = .pollReservation (Reservation.idOf 1)
        ∧ ((Action.execute e.reservation.owner.session op late).apply
            ((State.new {}).run usedBooking)).1 = .ok (.reservation r)
        ∧ ((State.new {}).reports (Reservation.idOf 1) (usedBooking
            ++ [.execute e.reservation.owner.session op late])).getLast?
          = some r := by
  have hstates : ((State.new {}).reports (Reservation.idOf 1)
      usedBooking).map (·.state) = [.waiting, .allocated, .acquired] := by
    decide +kernel
  obtain ⟨e, he⟩ : ∃ e, ((State.new {}).run usedBooking).queue.entries.get?
      (Reservation.idOf 1) = some e :=
    Option.isSome_iff_exists.1 (by decide +kernel)
  obtain ⟨-, hversions, -, hsteps, -, hanswers, hstored⟩ :=
    reservation_life {} usedBooking (Reservation.idOf 1)
  obtain ⟨first, rest, htold, -, hrest⟩ := List.map_eq_cons_iff.1 hstates
  obtain ⟨r, rest', rfl, hr, hrest'⟩ := List.map_eq_cons_iff.1 hrest
  obtain ⟨r', none, rfl, hr', hnone⟩ := List.map_eq_cons_iff.1 hrest'
  rw [List.map_eq_nil_iff] at hnone
  subst hnone
  refine ⟨?_, ⟨first, r, r', htold, hr, hr', ?_⟩, e, he, ?_⟩
  · rw [hversions, htold]
    rfl
  · exact (hsteps [first] r r' [] htold).2.1
  · obtain ⟨hlast, hfor⟩ := hstored e he
    obtain ⟨⟨reply, hreply⟩, -⟩ := hfor late
    obtain ⟨hlatest, habout⟩ := hanswers _ _ _ _ hreply
    obtain ⟨x, rfl, hx⟩ := habout rfl
    exact ⟨hlast, x, _, rfl, hreply,
      hlatest x List.mem_cons_self hx⟩

end Coordinator

end LabLease
