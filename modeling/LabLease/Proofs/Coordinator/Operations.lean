/-
What the sessions of the coordinator can have it do: every operation is
refused and has done nothing, or is granted and has done what `Granted`
says.

The sign of life at the start of an operation is apart: it stays even
when the operation is refused.
-/
import LabLease.Proofs.Coordinator.Grant
import LabLease.Proofs.Coordinator.Outcome

namespace LabLease.Coordinator

/-- The state once whoever uses a name is gone. -/
def State.cleared (s : State) (name : String) (now : Moment) : State :=
  match s.roster.named? name with
  | none => s
  | some old =>
    (s.notify old.id "replaced by a new session").endSession old.id now

namespace Action

variable {s s' : State} {session : SessionId}

-- ============================================================= sessions

/-- A registration: whoever has the name is gone first, and that stays
even if the registration is refused. -/
theorem register_apply (s : State) (name : String) (role : Role)
    (now : Moment) :
    (register name role now).apply s
      = match (s.cleared name now).roster.register name role now with
        | .ok (id, roster) => (.ok id, { s.cleared name now with roster })
        | .error e => (.error e, s.cleared name now) := by
  have hjoin : ∀ t : State,
      (do
        let out ← ofExcept ((← get).roster.register name role now)
        modify fun s => { s with roster := out.2 }
        return out.1 : Action SessionId).apply t
      = match t.roster.register name role now with
        | .ok (id, roster) => (.ok id, { t with roster })
        | .error e => (.error e, t) := by
    intro t
    rw [apply_bind_ok (apply_get t)]
    cases hr : t.roster.register name role now with
    | error e => rw [apply_bind_error (apply_ofExcept _ t)]
    | ok out =>
      rw [apply_bind_ok (apply_ofExcept _ t),
        apply_bind_ok (apply_modify _ t), apply_pure]
  unfold register State.cleared
  rw [apply_bind_ok (apply_get s)]
  cases s.roster.named? name with
  | none => exact hjoin s
  | some old =>
    dsimp only
    rw [apply_bind_ok (apply_modify _ s)]
    exact hjoin _

theorem disconnect_apply (s : State) (session : SessionId)
    (now : Moment) :
    (disconnect session now).apply s
      = match s.roster.get session with
        | .ok _ => (.ok (), s.endSession session now)
        | .error e => (.error e, s) := by
  unfold disconnect
  rw [apply_bind_ok (apply_get s)]
  cases s.roster.get session with
  | error e => rw [apply_bind_error (apply_ofExcept _ s)]
  | ok o => rw [apply_bind_ok (apply_ofExcept _ s), apply_modify]

-- ============================================================ resources

/-- A publication by an exporter is that of its inventory and what
follows. -/
theorem setResources_apply {o : Session}
    (ho : s.roster.sessions.get? session = some o)
    (hrole : o.role = .exporter) (specs : List ResourceSpec)
    (now : Moment) :
    (setResources session specs now).apply s
      = match s.inventory.publish o.name session specs with
        | .ok (changes, inventory) => (.ok changes.length,
          { s with inventory }.applyChanges session changes now)
        | .error e => (.error e, s) := by
  unfold setResources
  rw [apply_bind, require_apply, Roster.get_eq_ok.2 ho]
  dsimp only
  rw [if_pos hrole]
  dsimp only
  rw [apply_bind_ok (apply_get s)]
  cases s.inventory.publish o.name session specs with
  | error e => rw [apply_bind_error (apply_ofExcept _ s)]
  | ok out =>
    rw [apply_bind_ok (apply_ofExcept _ s),
      apply_bind_ok (apply_modify _ s), apply_pure]

section Granting

variable {o : Session} (ho : s.roster.sessions.get? session = some o)
include ho

theorem disconnect_outcome (now : Moment) :
    Outcome (fun _ => Granted session now s .disconnect .ack) s
      ((disconnect session now).apply s) := by
  rw [disconnect_apply, Roster.get_eq_ok.2 ho]
  exact .done .disconnected

theorem setResources_outcome (specs : List ResourceSpec) (now : Moment) :
    Outcome (fun n => Granted session now s (.setResources specs)
      (.published n)) s ((setResources session specs now).apply s) := by
  unfold setResources
  refine .require ho fun hr => ?_
  rw [apply_bind_ok (apply_get s)]
  refine .check (Inventory.publish_refuses ..) (by decide)
    fun out hp => ?_
  rw [apply_bind_ok (apply_modify _ s)]
  exact .done (.published ⟨o, ho, rfl, hr⟩ hp)

theorem withdraw_outcome (ids : List ResourceId) (now : Moment) :
    Outcome (fun n => Granted session now s (.withdraw ids)
      (.published n)) s ((withdraw session ids now).apply s) := by
  unfold withdraw
  refine .require ho fun hr => ?_
  rw [apply_bind_ok (apply_get s)]
  refine .check (Inventory.withdraw_refuses ..) (by decide)
    fun out hp => ?_
  rw [apply_bind_ok (apply_modify _ s)]
  exact .done (.withdrawn ⟨o, ho, rfl, hr⟩ hp)

end Granting

-- =============================================================== places

/-- The view of a place that is there is emitted. -/
theorem placeChanged_apply {name : String} {p : Place}
    (hp : s.places.entries.get? name = some p) :
    (placeChanged name).apply s
      = (.ok (p.view s.inventory),
        s.emitAll [.place (p.view s.inventory)]) := by
  unfold placeChanged
  rw [apply_bind_ok (apply_get s), State.view_eq_of_get? hp,
    apply_bind_ok (apply_ofExcept _ s), apply_bind_ok (apply_set s _)]
  rfl

/-- An edit of a place is one revision of it. -/
theorem editPlace_outcome {op : Operation} {o : Session} {name : String}
    {edit : Places → Except Refusal Places} {now : Moment}
    {kinds : List RefusalKind} (hop : op.edited? = some name)
    (ho : s.roster.sessions.get? session = some o)
    (hr : Refuses kinds (edit s.places)) (hk : .staleSession ∉ kinds)
    (he : ∀ ps', edit s.places = .ok ps' →
      ∃ p p', s.places.entries.get? name = some p ∧ p'.Revises p
        ∧ ps' = ⟨s.places.entries.insert name p'⟩) :
    Outcome (fun v => Granted session now s op (.place v)) s
      ((editPlace session name edit).apply s) := by
  unfold editPlace
  refine .require ho fun _ => ?_
  rw [apply_bind_ok (apply_get s)]
  refine .check hr hk fun ps' hps => ?_
  obtain ⟨p, p', hp, hrevises, rfl⟩ := he ps' hps
  rw [apply_bind_ok (apply_modify _ s),
    placeChanged_apply (p := p') (by simp)]
  exact .done (.edited hop hp hrevises)

theorem createPlace_outcome {o : Session}
    (ho : s.roster.sessions.get? session = some o) (name : String)
    (patterns : List ResourcePattern) (tags : Table String String)
    (now : Moment) :
    Outcome (fun v => Granted session now s
        (.createPlace name patterns tags) (.place v)) s
      ((createPlace session name patterns tags now).apply s) := by
  unfold createPlace
  refine .require ho fun _ => ?_
  rw [apply_bind_ok (apply_get s)]
  refine .check (Places.create_refuses ..) (by decide) fun out hc => ?_
  rw [apply_bind_ok (apply_set s _)]
  exact .done (.created hc)

theorem deletePlace_outcome {o : Session}
    (ho : s.roster.sessions.get? session = some o) (name : String)
    (now : Moment) :
    Outcome (fun _ => Granted session now s (.deletePlace name) .ack) s
      ((deletePlace session name).apply s) := by
  unfold deletePlace
  refine .require ho fun _ => ?_
  rw [apply_bind_ok (apply_get s)]
  refine .check (Places.delete_refuses ..) (by decide) fun ps' hd => ?_
  rw [apply_modify]
  exact .done (.deleted hd)

/-- The steps of an acquisition up to the view of the place. -/
theorem grant_apply {α : Type} {t : State} {place : String} {p : Place}
    (hp : t.places.entries.get? place = some p)
    (bound : List ResourceId) (f : PlaceView → Action α) :
    (do
        modify fun s => { s with roster := s.roster.edit session fun o =>
          { o with places := o.places.insert place () } }
        let view ← placeChanged place
        f view : Action α).apply (t.markAcquired bound true)
      = (f (p.view (t.inventory.flag bound true))).apply
          (t.granted place session bound) := by
  have hplaces : (t.markAcquired bound true).places = t.places := by
    rw [State.markAcquired_eq, State.emitAll_places]
  have hinv : (t.markAcquired bound true).inventory
      = t.inventory.flag bound true := by
    rw [State.markAcquired_eq, State.emitAll_inventory]
  have hshown : State.shown t.places (t.inventory.flag bound true) [place]
      = [.place (p.view (t.inventory.flag bound true))] := by
    unfold State.shown
    rw [List.filterMap_cons, hp]
    rfl
  rw [apply_bind_ok (apply_modify _ _),
    apply_bind_ok (placeChanged_apply (p := p) (hplaces ▸ hp))]
  dsimp only
  rw [hinv]
  congr 1
  unfold State.granted
  dsimp only
  rw [hshown, State.markAcquired_eq]
  simp only [State.emitAll_eq, Journal.extend_append, Journal.extend_last,
    numbered_append, List.append_assoc]

/-- The last steps: allocations that are used are finished, and only if
there were any the queue is looked through again. -/
theorem convert_apply {α : Type} (t : State) (place : String)
    (bound : List ResourceId) (now : Moment) (v : α) :
    (do
        let (converted, queue) := (← get).queue.convert session bound now
        if !converted.isEmpty then
          modify fun s =>
            ({ s with queue }.emitReservations converted).rescan now []
        return v : Action α).apply (t.granted place session bound)
      = (.ok v, t.leased place session bound now) := by
  have hqueue : (t.granted place session bound).queue = t.queue :=
    State.emitAll_queue _ _
  have hnone := t.queue.convert_of_nil session bound now
  unfold State.leased
  rw [apply_bind_ok (apply_get _), State.occupied_eq, hqueue]
  cases hconv : t.queue.convert session bound now with
  | mk converted queue =>
    rw [hconv] at hnone
    cases converted with
    | nil =>
      dsimp only at hnone ⊢
      rw [hnone rfl, ← hqueue]
      rfl
    | cons r rs =>
      have hcond : (!(r :: rs).isEmpty) = true := rfl
      dsimp only
      rw [if_pos hcond, apply_bind_ok (apply_modify _ _)]
      rfl

/-- Once the places grant an acquisition nothing keeps it from being
done. -/
theorem acquire_apply {o : Session} {place : String} {now : Moment}
    {bound : List ResourceId} {places : Places} {p : Place}
    (ho : s.roster.sessions.get? session = some o)
    (hr : o.role = .client)
    (ha : s.places.acquire place ⟨o.name, session⟩ s.inventory
      (isAvailable s session) now.date = .ok (bound, places))
    (hp : places.entries.get? place = some p) :
    (acquire session place now).apply s
      = (.ok (p.view (s.inventory.flag bound true)),
        { s with places }.leased place session bound now) := by
  unfold acquire
  rw [apply_bind_ok (holder_apply _ ho hr), apply_bind_ok (apply_get s),
    ha, apply_bind_ok (apply_ofExcept _ s)]
  dsimp only
  rw [apply_bind_ok (apply_modify _ s),
    grant_apply (t := { s with places }) hp, convert_apply]

theorem acquire_outcome {o : Session}
    (ho : s.roster.sessions.get? session = some o) (place : String)
    (now : Moment) :
    Outcome (fun v => Granted session now s (.acquire place) (.place v)) s
      ((acquire session place now).apply s) := by
  by_cases hr : o.role = .client
  · cases ha : s.places.acquire place ⟨o.name, session⟩ s.inventory
        (isAvailable s session) now.date with
    | error e =>
      unfold acquire
      rw [apply_bind_ok (holder_apply _ ho hr), apply_bind_ok (apply_get s)]
      refine .check (Places.acquire_refuses ..) (by decide)
        fun out hout => ?_
      rw [ha] at hout
      cases hout
    | ok out =>
      obtain ⟨p, hp, -⟩ := Places.get?_of_acquire ha
      rw [acquire_apply ho hr ha hp]
      exact .done (.acquired ⟨o, ho, rfl, hr⟩ ha hp)
  · unfold acquire
    exact .holder ho fun hclient => absurd hclient hr

theorem release_outcome {o : Session}
    (ho : s.roster.sessions.get? session = some o) (place : String)
    (force : Bool) (now : Moment) :
    Outcome (fun v => Granted session now s (.release place force)
      (.place v)) s ((release session place force now).apply s) := by
  unfold release
  refine .require ho fun _ => ?_
  rw [apply_bind_ok (apply_get s)]
  refine .check (s.places.get_refuses place) (by decide) fun p hget => ?_
  refine .check (Places.release_refuses ..) (by decide) fun out hr => ?_
  obtain ⟨freed, places⟩ := out
  obtain ⟨p', held, hp, hh, hmay, -⟩ := Places.release_ok hr
  rw [Places.get_eq_ok.1 hget] at hp
  cases hp
  have hplaces := State.finishRelease_places (s := { s with places }) place
    p.holder freed now
  obtain ⟨q, hq, -⟩ := Places.get?_of_release hr
  dsimp only
  rw [apply_bind_ok (apply_set s _), apply_bind_ok (apply_get _),
    apply_ofExcept, hplaces, State.view_eq_of_get? hq, hh]
  rw [Bool.and_eq_true] at hmay
  exact .done (.released (Places.get_eq_ok.1 hget) hh hmay hr hq)

-- ========================================================= reservations

/-- A reservation that is stored can be read after a rescan. -/
theorem get_of_rescan {t : State} {id : String} {e : QueueEntry}
    (he : t.queue.entries.get? id = some e) (now : Moment)
    (skip : List String) :
    ∃ r, (t.rescan now skip).queue.get id = .ok r := by
  obtain ⟨e', he'⟩ := t.queue.rescan_isSome t.inventory t.isFree skip
    now ⟨e, he⟩
  rw [State.rescan_queue]
  exact ⟨_, Queue.get_of_get? he'⟩

theorem createReservation_outcome {o : Session}
    (ho : s.roster.sessions.get? session = some o)
    (filters : List ResourcePattern) (priority : Int) (now : Moment) :
    Outcome (fun r => Granted session now s
        (.createReservation filters priority) (.reservation r)) s
      ((createReservation session filters priority now).apply s) := by
  unfold createReservation
  refine .holder ho fun hr => ?_
  rw [apply_bind_ok (apply_get s)]
  refine .check (Queue.create_refuses ..) (by decide) fun out hc => ?_
  obtain ⟨r, queue⟩ := out
  have hstored : ∃ e, queue.entries.get? r.id = some e := by
    obtain ⟨-, rfl, rfl⟩ := Queue.create_ok hc
    exact ⟨_, (Table.get?_insert ..).trans (if_pos rfl)⟩
  obtain ⟨e, he⟩ := hstored
  obtain ⟨r', hr'⟩ := get_of_rescan
    (t := State.emit { s with queue } (.reservation r)) he now []
  dsimp only
  rw [apply_bind_ok (apply_modify _ s), apply_bind_ok (apply_get _),
    apply_ofExcept, hr']
  exact .done (.reserved ⟨o, ho, rfl, hr⟩ hc hr')

theorem cancelReservation_outcome (id : String) (now : Moment) :
    Outcome (fun r => Granted session now s (.cancelReservation id)
      (.reservation r)) s ((cancelReservation session id now).apply s) := by
  unfold cancelReservation
  rw [apply_bind_ok (apply_get s)]
  refine .check (Queue.cancel_refuses ..) (by decide) fun out hc => ?_
  obtain ⟨cancelled, queue⟩ := out
  obtain ⟨e, he, -, ⟨-, rfl, rfl⟩ | ⟨-, rfl, rfl⟩⟩ := Queue.cancel_ok hc
  · have hget := Queue.get_of_get? he
    dsimp only
    rw [apply_bind_ok (apply_get _), apply_ofExcept, hget]
    exact .done (.finished hc hget)
  · obtain ⟨r', hr'⟩ := get_of_rescan
      (t := State.emit { s with queue := { s.queue with
          entries := s.queue.entries.insert id
            { e.moved .cancelled with
              retireAt := some (now.ticks + s.queue.pollTimeout) } } }
        (.reservation (e.moved .cancelled).reservation))
      ((Table.get?_insert ..).trans (if_pos rfl)) now []
    dsimp only
    rw [apply_bind_ok (apply_modify _ s), apply_bind_ok (apply_get _),
      apply_ofExcept, hr']
    exact .done (.cancelled hc hr')

theorem pollReservation_outcome (id : String) (now : Moment) :
    Outcome (fun r => Granted session now s (.pollReservation id)
      (.reservation r)) s ((pollReservation session id now).apply s) := by
  unfold pollReservation
  rw [apply_bind_ok (apply_get s)]
  refine .check (Queue.poll_refuses ..) (by decide) fun out hp => ?_
  rw [apply_bind_ok (apply_modify _ s)]
  exact .done (.polled hp)

-- ============================================================ operations

theorem heartbeat_apply (s : State) (session : SessionId)
    (now : Moment) :
    (heartbeat session now).apply s
      = match s.roster.heartbeat session now with
        | .ok roster => (.ok (), { s with roster })
        | .error e => (.error e, s) := by
  unfold heartbeat
  rw [apply_bind_ok (apply_get s)]
  cases s.roster.heartbeat session now <;> rfl

/-- To ask for something is a sign of life, and else the same. -/
theorem apply_heard {α : Type} {roster : Roster}
    (hr : s.roster.heartbeat session now = .ok roster) (act : Action α)
    (reply : α → Reply) :
    (do heartbeat session now; return reply (← act) : Action Reply).apply s
      = ((act.apply { s with roster }).1.map reply,
        (act.apply { s with roster }).2) := by
  have hbeat := heartbeat_apply s session now
  rw [hr] at hbeat
  rw [apply_bind_ok hbeat]
  cases hout : act.apply { s with roster } with
  | mk out t =>
    cases out with
    | error e => rw [apply_bind_error hout]; rfl
    | ok a => rw [apply_bind_ok hout]; rfl

theorem execute_setResources_apply {roster : Roster}
    (hr : s.roster.heartbeat session now = .ok roster)
    (specs : List ResourceSpec) :
    (execute session (.setResources specs) now).apply s
      = (((setResources session specs now).apply { s with roster }).1.map
          .published,
        ((setResources session specs now).apply { s with roster }).2) :=
  apply_heard hr (setResources session specs now) .published

theorem execute_release_apply {roster : Roster}
    (hr : s.roster.heartbeat session now = .ok roster) (place : String)
    (force : Bool) :
    (execute session (.release place force) now).apply s
      = (((release session place force now).apply { s with roster }).1.map
          .place,
        ((release session place force now).apply { s with roster }).2) :=
  apply_heard hr (release session place force now) .place

/-- A session that is not live is refused as stale and nothing happens;
anybody else's operation is refused for another reason or granted, once
the sign of life is noted. -/
theorem execute_outcome (s : State) (session : SessionId)
    (op : Operation) (now : Moment) :
    (∃ e, s.roster.heartbeat session now = .error e
      ∧ (execute session op now).apply s = (.error e, s))
    ∨ ∃ roster, s.roster.heartbeat session now = .ok roster
      ∧ Outcome (Granted session now { s with roster } op)
          { s with roster } ((execute session op now).apply s) := by
  have hbeat := heartbeat_apply s session now
  cases hr : s.roster.heartbeat session now with
  | error e =>
    rw [hr] at hbeat
    exact Or.inl ⟨e, rfl, apply_bind_error hbeat _⟩
  | ok roster =>
    rw [hr] at hbeat
    refine Or.inr ⟨roster, rfl, ?_⟩
    obtain ⟨o, ho⟩ := Roster.get?_of_heartbeat hr
    unfold execute
    rw [apply_bind_ok hbeat]
    cases op with
    | register => exact .refused (by simp [Refusal.kind])
    | heartbeat => exact .done (.answered rfl)
    | disconnect =>
      exact .map (fun _ => Reply.ack) (disconnect_outcome ho now)
    | setResources specs =>
      exact .map _ (setResources_outcome ho specs now)
    | withdraw ids => exact .map _ (withdraw_outcome ho ids now)
    | listPlaces filter => exact .done (.answered rfl)
    | listResources pattern => exact .done (.answered rfl)
    | listReservations => exact .done (.answered rfl)
    | listSessions => exact .done (.answered rfl)
    | createPlace name patterns tags =>
      exact .map _ (createPlace_outcome ho name patterns tags now)
    | deletePlace name =>
      exact .map (fun _ => Reply.ack) (deletePlace_outcome ho name now)
    | addMatch name pattern =>
      exact .map _ (editPlace_outcome rfl ho (Places.addMatch_refuses ..)
        (by decide) fun _ => Places.addMatch_ok)
    | deleteMatch name pattern =>
      exact .map _ (editPlace_outcome rfl ho
        (Places.deleteMatch_refuses ..) (by decide)
        fun _ => Places.deleteMatch_ok)
    | setTags name tags =>
      exact .map _ (editPlace_outcome rfl ho (Places.setTags_refuses ..)
        (by decide) fun _ => Places.setTags_ok)
    | setComment name comment =>
      exact .map _ (editPlace_outcome rfl ho
        (Places.setComment_refuses ..) (by decide)
        fun _ => Places.setComment_ok)
    | acquire place => exact .map _ (acquire_outcome ho place now)
    | release place force =>
      exact .map _ (release_outcome ho place force now)
    | createReservation filters priority =>
      exact .map _ (createReservation_outcome ho filters priority now)
    | cancelReservation id =>
      exact .map _ (cancelReservation_outcome id now)
    | pollReservation id => exact .map _ (pollReservation_outcome id now)
    | subscribe lastEvent => exact .refused (by simp [Refusal.kind])
    | unsubscribe => exact .refused (by simp [Refusal.kind])
    | snapshot => exact .done (.answered rfl)

end Action

end LabLease.Coordinator
