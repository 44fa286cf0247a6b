/-
To whom allocations are announced: whoever owns a reservation that is
reported as allocated is live at that time, unless it is just being torn
down.

# Who is served

Only what is stored is served, and behind everything that is stored stands
a client that is live or the session that is on its way out. So as long as
a session does not leave, what is announced to it finds it live
(`Moves.reaches`).

# The session on its way out

A session that ends is struck off the roster first. Its places are given
back next, with a look through the queue after each, and its reservations
are forgotten last. So what its places had bound may be set aside for a
reservation of its own that waits for it, which is announced when the
session is not there any more. The same teardown takes this back, and
nothing is left of it (`Sound.endSession_retracts`).

A session that holds no place is not served on its way out, because
without places to give back its reservations are forgotten first.
-/
import LabLease.Proofs.Coordinator.LifeCycle
import LabLease.Proofs.Coordinator.Teardown

namespace LabLease.Coordinator

variable {k : Kind} {kinds : Kind → Prop} {l l' : Option SessionId}
  {s s' t : State} {x : SessionId} {r : Reservation} {now : Moment}
  {cs : List Change}

-- =========================================================== who is served

/-- Who is served waited before. -/
theorem Move.allocated_was (h : Sound l s) (ht : Timed s)
    (hm : Move k l s l' s') (hcs : Emits s s' cs) (hr : r ∈ reported cs)
    (ha : r.state = .allocated) :
    ∃ e, s.queue.entries.get? r.id = some e
      ∧ r.owner = e.reservation.owner := by
  obtain ⟨ds, hds, ho⟩ := hm.operates
  have hsame : cs = ds := hcs.emitted_eq.symm.trans hds.emitted_eq
  subst hsame
  have hstride := (ho.strides h ht).stride r.id
  have hmem : r ∈ reportsOf r.id (reported cs) :=
    List.mem_filter.2 ⟨hr, decide_eq_true rfl⟩
  generalize reportsOf r.id (reported cs) = rs at hstride hmem
  generalize hbefore : s.queue.stored? r.id = a at hstride
  generalize s'.queue.stored? r.id = b at hstride
  cases hstride with
  | quiet | forgotten => cases hmem
  | begun _ hfirst =>
    cases List.mem_singleton.1 hmem
    rw [hfirst.waiting] at ha
    cases ha
  | changed hnext =>
    cases List.mem_singleton.1 hmem
    obtain ⟨e, he, rfl⟩ := Queue.stored?_eq_some.1 hbefore
    exact ⟨e, he, hnext.owner⟩
  | ended _ hfinal =>
    cases List.mem_singleton.1 hmem
    rw [ha] at hfinal
    cases hfinal

/-- Whatever is set aside for a session between two states, it is live in
both as the client that it is set aside for. -/
def Reaches (x : SessionId) (s s' : State) : Prop :=
  ∀ r ∈ reported (s.emitted s'), r.state = .allocated →
    r.owner.session = x →
    s.roster.Live x r.owner.name .client
      ∧ s'.roster.Live x r.owner.name .client

theorem Reaches.of_quiet (h : s.emitted s' = []) : Reaches x s s' := by
  unfold Reaches
  rw [h]
  exact nofun

/-- Only a session that leaves is on its way out. -/
theorem Move.leaving (hm : Move k l s l' s') (hk : k ≠ .leave x)
    (hl : l ≠ some x) : l' ≠ some x := by
  cases hm with
  | leave session =>
    rintro heq
    cases heq
    exact hk rfl
  | forget => exact nofun
  | _ => exact hl

/-- Unless it leaves or joins meanwhile, what is announced to a session
finds it live. -/
theorem Moves.reaches (h : Sound l s) (ht : Timed s)
    (hm : Moves kinds l s l' s') (hl : l ≠ some x)
    (hleave : ¬ kinds (.leave x)) (hjoin : ¬ kinds (.join x)) :
    l' ≠ some x ∧ Reaches x s s' := by
  induction hm with
  | refl => exact ⟨hl, .of_quiet (State.emitted_self _)⟩
  | @tail k l l' l'' s u s' hrun hkind step ih =>
    obtain ⟨hlu, hreach⟩ := ih h ht hl
    have hu := h.moves hrun
    obtain ⟨htu, cs, hcs⟩ := hrun.emits h ht
    obtain ⟨ds, hds, -⟩ := step.operates
    have hk : k ≠ .leave x := by
      rintro rfl
      exact hleave hkind
    refine ⟨step.leaving hk hlu, ?_⟩
    unfold Reaches at hreach ⊢
    rw [hcs.emitted_eq] at hreach
    rw [(hcs.trans hds).emitted_eq, reported_append]
    intro r hr ha hx
    rcases List.mem_append.1 hr with hr | hr
    · obtain ⟨hlive, hlive'⟩ := hreach r hr ha hx
      exact ⟨hlive, step.live_stays hu hk hlive'⟩
    · obtain ⟨e, he, howner⟩ := step.allocated_was hu htu hds hr ha
      have hlive : Tenant _ _ _ := howner ▸ hu.attended.tenants _ e he
      rcases hlive with hout | hlive
      · exact absurd (hx ▸ hout) hlu
      · rw [hx] at hlive
        exact ⟨hrun.live_was (fun hj => absurd hj hjoin) hlive,
          step.live_stays hu hk hlive⟩

-- =========================================== the session on its way out

/-- A departure brings nobody into the queue. -/
theorem Departure.descends (hd : Departure x now k) (h : Sound l s)
    (hm : Move k l s l' s') : s'.queue.Descends s.queue := by
  cases hd with
  | leave =>
    cases hm
    unfold State.restocked
    rw [State.emitAll_queue]
    exact Queue.invalidate_descends _ _
  | rescan =>
    cases hm with
    | rescan _ skip =>
      rw [State.rescan_queue]
      exact Queue.rescan_descends h.queue h.inventory _ skip now
  | vacate =>
    cases hm
    unfold State.vacated
    rw [State.emitAll_queue]
    exact .refl _
  | forget =>
    cases hm
    rw [State.emitAll_queue]
    exact Queue.removeSession_descends _ _

/-- Who is served while a session ends was in the queue before. -/
theorem Moves.departing_was (h : Sound l s) (ht : Timed s)
    (hm : Moves (Departure x now) l s l' s') :
    (∀ i e', s'.queue.entries.get? i = some e' →
      ∃ e, s.queue.entries.get? i = some e
        ∧ e'.reservation.owner = e.reservation.owner)
    ∧ ∀ r ∈ reported (s.emitted s'), r.state = .allocated →
      ∃ e, s.queue.entries.get? r.id = some e
        ∧ r.owner = e.reservation.owner := by
  induction hm with
  | refl =>
    rw [State.emitted_self]
    exact ⟨fun _ e he => ⟨e, he, rfl⟩, nofun⟩
  | tail hrun hkind step ih =>
    obtain ⟨hwas, hserved⟩ := ih h ht
    have hu := h.moves hrun
    obtain ⟨htu, cs, hcs⟩ := hrun.emits h ht
    obtain ⟨ds, hds, -⟩ := step.operates
    constructor
    · intro i e' he'
      obtain ⟨e, he, hc⟩ := hkind.descends hu step i e' he'
      obtain ⟨e₀, he₀, howner⟩ := hwas i e he
      exact ⟨e₀, he₀, hc.owner.trans howner⟩
    · rw [hcs.emitted_eq] at hserved
      rw [(hcs.trans hds).emitted_eq, reported_append]
      intro r hr ha
      rcases List.mem_append.1 hr with hr | hr
      · exact hserved r hr ha
      · obtain ⟨e, he, howner⟩ := step.allocated_was hu htu hds hr ha
        obtain ⟨e₀, he₀, howner'⟩ := hwas _ e he
        exact ⟨e₀, he₀, howner.trans howner'⟩

/-- The kinds of moves by which places are given back. -/
inductive Returns (now : Moment) : Kind → Prop
  | rescan : Returns now (.rescan now)
  | vacate (place : String) (held : Holder) :
    Returns now (.vacate place held)

/-- Between two states all that becomes of reservations is that some are
served, once each. -/
def Offered (s s' : State) (cs : List Change) : Prop :=
  Emits s s' cs ∧ ∀ i, Offer (s.queue.stored? i)
    (reportsOf i (reported cs)) (s'.queue.stored? i)

theorem State.rescan_offered (hq : s.queue.Filed) (hf : s.inventory.Filed)
    (now : Moment) (skip : List String) :
    ∃ cs, Offered s (s.rescan now skip) cs := by
  rw [State.rescan_eq]
  refine ⟨_, .emitAll rfl _, fun i => ?_⟩
  rw [State.emitAll_queue, reported_reservations]
  exact Queue.rescan_offer hq hf _ skip now i

theorem Moves.offered (h : Sound l s) (hm : Moves (Returns now) l s l' s') :
    ∃ cs, Offered s s' cs := by
  induction hm with
  | refl => exact ⟨[], .nil rfl, fun _ => .quiet⟩
  | @tail k l l' l'' s u t hrun hkind step ih =>
    obtain ⟨cs, hcs, hoffer⟩ := ih h
    have hu := h.moves hrun
    have hone : ∃ ds, Offered u t ds := by
      cases hkind with
      | rescan =>
        cases step with
        | rescan _ skip => exact u.rescan_offered hu.queue hu.inventory _ skip
      | vacate =>
        cases step
        refine ⟨_, .emitAll rfl _, fun i => ?_⟩
        unfold State.vacated
        rw [State.emitAll_queue, reported_append, reported_changes,
          reported_shown]
        exact .quiet
    obtain ⟨ds, hds, hoffer'⟩ := hone
    refine ⟨cs ++ ds, hcs.trans hds, fun i => ?_⟩
    rw [reported_append, reportsOf_append]
    exact (hoffer i).trans (hoffer' i)

/-- An allocation that is announced to a session while it is torn down:
the session was a client, with a place to give back; the report is
followed by the one that the reservation is cancelled, and nothing is
stored of it in the end. -/
structure Retracted (x : SessionId) (s t : State) (r : Reservation) :
    Prop where
  live : s.roster.Live x r.owner.name .client
  holding : s.places.heldBy x ≠ []
  reports : reportsOf r.id (reported (s.emitted t))
    = [r, r.transition .cancelled]
  forgotten : t.queue.stored? r.id = none

namespace Sound

/-- What a client had when only its reservations are left of it. -/
theorem stripped_offered (h : Sound none s) {o : Session}
    (ho : s.roster.sessions.get? x = some o) (hrole : o.role = .client)
    (now : Moment) :
    Sound (some x) (s.stripped x now)
      ∧ (∃ cs, Offered s (s.stripped x now) cs)
      ∧ (s.places.heldBy x = [] →
        s.stripped x now = { s with roster := s.roster.remove x }) := by
  let gone : State := { s with roster := s.roster.remove x }
  have hnone := h.removeOwner_client ho hrole
  have heq : s.stripped x now = (s.places.heldBy x).foldl
      (fun s place => s.releaseFrom place x none now) gone := by
    unfold State.stripped
    rw [hnone]
    rfl
  have hgone : Sound (some x) gone := by
    have hleave := h.leave x
    rw [hnone, State.restocked_nil] at hleave
    exact hleave
  have hmoves : Moves (Returns now) (some x) gone (some x)
      (s.stripped x now) := by
    rw [heq]
    refine .giveBack now .rescan (fun place held _ => .vacate place held)
      ?_ fun _ hn _ _ => h.places.session_of_heldBy hn
    show (s.roster.remove x).sessions.get? x = none
    rw [Roster.get?_remove, if_pos rfl]
  have hoffered : ∃ cs, Offered gone (s.stripped x now) cs :=
    hmoves.offered hgone
  refine ⟨hgone.moves hmoves, hoffered, fun hheld => ?_⟩
  rw [heq, hheld]
  rfl

/-- The end of a teardown: what a session has in the queue is reported as
cancelled if it was pending, and is forgotten. -/
theorem forget_reports (hq : s.queue.Filed) (hf : s.inventory.Filed)
    {i : String} {r : Reservation} (hr : s.queue.stored? i = some r)
    (hx : r.owner.session = x) (now : Moment) :
    let t := ({ s with queue := (s.queue.removeSession x).2
      }.emitReservations (s.queue.removeSession x).1).rescan now []
    (∃ cs, Emits s t cs ∧ reportsOf i (reported cs)
        = if r.state.isPending then [r.transition .cancelled] else [])
      ∧ t.queue.stored? i = none := by
  obtain ⟨e, he, rfl⟩ := Queue.stored?_eq_some.1 hr
  have hown : e.isOwnedBy x = true := QueueEntry.isOwnedBy_iff.2 hx
  let u := { s with queue := (s.queue.removeSession x).2
    }.emitReservations (s.queue.removeSession x).1
  have hqueue : u.queue = (s.queue.removeSession x).2 :=
    State.emitAll_queue _ _
  have hgone : u.queue.stored? i = none := by
    rw [hqueue]
    refine Queue.stored?_of_none ?_
    rw [Queue.get?_entries_removeSession, he, Option.filter_some, hown]
    rfl
  obtain ⟨cs, hcs, hoffer⟩ := u.rescan_offered
    (hqueue ▸ hq.descends (Queue.removeSession_descends _ _))
    (by rw [show u.inventory = _ from State.emitAll_inventory _ _]
        exact hf) now []
  have hnone := hoffer i
  rw [hgone] at hnone
  generalize hreports : reportsOf i (reported cs) = rs at hnone
  generalize hafter : (u.rescan now []).queue.stored? i = b at hnone
  cases hnone
  have hcancel : Emits s u _ :=
    .emitAll (t := { s with queue := (s.queue.removeSession x).2 }) rfl _
  refine ⟨⟨_, hcancel.trans hcs, ?_⟩, hafter⟩
  rw [reported_append, reportsOf_append, hreports, List.append_nil,
    reported_reservations, Queue.reportsOf_removeSession hq, he,
    Option.filter_some, hown, Bool.true_and]
  split <;> rfl

/-- What is announced to a session while it is torn down is taken back
before that is over. -/
theorem endSession_retracts (h : Sound none s) (ht : Timed s)
    (hr : r ∈ reported (s.emitted (s.endSession x now)))
    (ha : r.state = .allocated) (hx : r.owner.session = x) :
    Retracted x s (s.endSession x now) r := by
  have hdeparts : Moves (Departure x now) none s none _ :=
    .of_endSession h x now fun _ hk => hk
  obtain ⟨e, he, howner⟩ := (hdeparts.departing_was h ht).2 r hr ha
  have hlive : s.roster.Live x r.owner.name .client := by
    have htenant := h.attended.tenants _ e he
    rw [← howner, Tenant, hx] at htenant
    exact htenant.resolve_left nofun
  obtain ⟨o, ho, hname, hrole⟩ := hlive
  obtain ⟨hstripped, ⟨cs, hcs, hoffer⟩, hidle⟩ :=
    h.stripped_offered ho hrole now
  rw [State.endSession_eq] at hr ⊢
  generalize s.stripped x now = w at hr hstripped hcs hoffer hidle ⊢
  have hone := hoffer r.id
  rw [Queue.stored?_of_get? he] at hone
  -- it is still in the queue, and is served at most once
  obtain ⟨r', hr', howner', hserved⟩ := hone.of_some
  have hx' : r'.owner.session = x := by rw [howner', ← howner, hx]
  obtain ⟨⟨ds, hds, hlast⟩, hgone⟩ :=
    forget_reports hstripped.queue hstripped.inventory hr' hx' now
  rw [(hcs.trans hds).emitted_eq] at hr
  have hall : r ∈ reportsOf r.id (reported (cs ++ ds)) :=
    List.mem_filter.2 ⟨hr, decide_eq_true rfl⟩
  have hcancelled : r ∉ reportsOf r.id (reported ds) := by
    rw [hlast]
    split
    · intro hmem
      rw [List.mem_singleton.1 hmem] at ha
      cases ha
    · exact List.not_mem_nil
  rw [reported_append, reportsOf_append] at hall
  have hfirst := (List.mem_append.1 hall).resolve_right hcancelled
  rcases hserved with hnone | ⟨hsome, hpending⟩
  · rw [hnone] at hfirst
    cases hfirst
  · rw [hsome] at hfirst
    cases List.mem_singleton.1 hfirst
    refine ⟨⟨o, ho, hname, hrole⟩, fun hheld => ?_, ?_, hgone⟩
    · -- without a place nothing comes before the cancellations
      have hquiet : s.emitted s = cs := by
        rw [← hcs.emitted_eq, hidle hheld]
        rfl
      rw [← hquiet, State.emitted_self] at hsome
      cases hsome
    · rw [(hcs.trans hds).emitted_eq, reported_append, reportsOf_append,
        hsome, hlast, hpending]
      rfl

end Sound

-- ============================================================== one call

/-- How a call ends a live session, with the states right before and
right after the end. In a sweep others may end before and after it. -/
inductive Parting (s : State) (x : SessionId) :
    Input → State → State → Prop
  | alone {input : Input} (h : EndsSession s x input)
      (hone : ∀ now, input ≠ .sweep now) :
    Parting s x input s (s.step input)
  | swept {now : Moment} {before after : List SessionId}
      (h : s.roster.expired now = before ++ x :: after) :
    Parting s x (.sweep now)
      (before.foldl (fun s id => s.evict id now) s)
      ((before.foldl (fun s id => s.evict id now) s).evict x now)

/-- Nothing is set aside for a session that is gone. -/
theorem Reaches.of_gone (h : Reaches x s s')
    (hgone : s.roster.sessions.get? x = none) :
    ∀ r ∈ reported (s.emitted s'), r.state = .allocated →
      r.owner.session ≠ x := by
  intro r hr ha hx
  obtain ⟨⟨o, ho, -⟩, -⟩ := h r hr ha hx
  rw [hgone] at ho
  cases ho

/-- It is read off the roster, the places, the queue and the events to be
sent, so nothing else matters. -/
theorem Retracted.of_same {n t' : State} (h : Retracted x n t r)
    (hlive : n.roster.Live x r.owner.name .client →
      s.roster.Live x r.owner.name .client)
    (hplaces : n.places = s.places) (hpending : n.pending = s.pending)
    (hpending' : t'.pending = t.pending) (hqueue : t'.queue = t.queue) :
    Retracted x s t' r := by
  have hemitted : s.emitted t' = n.emitted t := by
    unfold State.emitted
    rw [hpending, hpending']
  refine ⟨hlive h.live, ?_, ?_, ?_⟩
  · rw [← hplaces]
    exact h.holding
  · rw [hemitted]
    exact h.reports
  · rw [hqueue]
    exact h.forgotten

namespace Sound

/-- What a call announces to a session that it does not end finds it
live. -/
theorem step_reaches (h : Sound none s) (ht : Timed s) {input : Input}
    (hends : ¬ EndsSession s x input) : Reaches x s (s.step input) := by
  have hleave : ¬ Takes s input (.leave x) := fun hk => hends hk.asks
  by_cases hreg : ∃ name role now, input = .register name role now
  · obtain ⟨name, role, now, rfl⟩ := hreg
    have hclear := h.cleared_moves name now
    have hreach := (hclear.reaches (x := x) h ht nofun
      (fun hk => hleave (.clear hk)) fun hk => hk.not_greets .join).2
    unfold State.step
    dsimp only
    rw [Action.register_apply]
    cases hr : (s.cleared name now).roster.register name role now with
    | error e => exact hreach
    | ok out =>
      intro r hr' ha hx
      obtain ⟨hlive, hlive'⟩ := hreach r hr' ha hx
      exact ⟨hlive,
        hlive'.register (h.moves hclear).attended.roster hr⟩
  · rcases h.step_moves input with hm | hdrained
    · exact (hm.reaches h ht nofun hleave fun hk => hreg hk.joins).2
    · rw [hdrained]
      exact .of_quiet s.emitted_drained

/-- A session that is not live is not ended by any call, and a call that
would end it announces nothing. -/
theorem step_reaches_stranger (h : Sound none s) {input : Input}
    (hlive : ¬ s.isLive x = true) (hends : EndsSession s x input) :
    Reaches x s (s.step input) := by
  have hnone : s.roster.sessions.get? x = none := by
    rw [Option.eq_none_iff_forall_ne_some]
    exact fun o ho => hlive (Option.isSome_iff_exists.2 ⟨o, ho⟩)
  have hget : ∃ e, s.roster.get x = .error e := by
    unfold Roster.get
    rw [hnone]
    exact ⟨_, rfl⟩
  obtain ⟨e, he⟩ := hget
  cases hends with
  | disconnected now =>
    unfold State.step
    dsimp only
    rw [Action.disconnect_apply, he]
    exact .of_quiet s.emitted_self
  | asked now =>
    unfold State.step
    dsimp only
    rcases Action.execute_outcome s x .disconnect now with
      ⟨e, -, happly⟩ | ⟨roster, hr, -⟩
    · rw [happly]
      exact .of_quiet s.emitted_self
    · obtain ⟨o, ho, -⟩ := Roster.heartbeat_ok hr
      rw [hnone] at ho
      cases ho
  | replaced role now hn hx =>
    have hold := (h.attended.roster.named?_eq_some.1 hn).1
    rw [hx, hnone] at hold
    cases hold
  | evicted hx =>
    obtain ⟨o, ho, -⟩ := h.attended.roster.mem_expired.1 hx
    rw [hnone] at ho
    cases ho

/-- Every call that ends a session but the sweep ends it at once. -/
theorem step_retracts (h : Sound none s) (ht : Timed s) {input : Input}
    (hlive : s.isLive x = true) (hends : EndsSession s x input)
    (hone : ∀ now, input ≠ .sweep now)
    (hr : r ∈ reported (s.emitted (s.step input)))
    (ha : r.state = .allocated) (hx : r.owner.session = x) :
    Retracted x s (s.step input) r := by
  obtain ⟨o, ho⟩ := Option.isSome_iff_exists.1 hlive
  cases hends with
  | evicted => exact absurd rfl (hone _)
  | disconnected now =>
    have hstep : s.step (.disconnect x now) = s.endSession x now := by
      unfold State.step
      dsimp only
      rw [Action.disconnect_apply, Roster.get_eq_ok.2 ho]
    rw [hstep] at hr ⊢
    exact h.endSession_retracts ht hr ha hx
  | asked now =>
    obtain ⟨roster, hbeat⟩ := Roster.heartbeat_of_live ho now
    rw [State.step_asked hbeat] at hr ⊢
    have hheard : Move (.heard x now) none s none { s with roster } :=
      .heard hbeat
    have hretracts := (h.move hheard).endSession_retracts
      (ht.move h hheard) hr ha hx
    exact hretracts.of_same (hheard.live_was nofun) rfl rfl rfl rfl
  | @replaced name old role now hn hid =>
    subst hid
    let n := s.notify old.id "replaced by a new session"
    have hnote : Move .aside none s none n :=
      .aside _ s.incompleteSince s.evictions
    have hcleared : s.cleared name now = n.endSession old.id now := by
      unfold State.cleared
      rw [hn]
    have hjoin : (s.step (.register name role now)).pending
          = (n.endSession old.id now).pending
        ∧ (s.step (.register name role now)).queue
          = (n.endSession old.id now).queue := by
      unfold State.step
      dsimp only
      rw [Action.register_apply, hcleared]
      split <;> exact ⟨rfl, rfl⟩
    have hsame : s.emitted (s.step (.register name role now))
        = n.emitted (n.endSession old.id now) := by
      unfold State.emitted
      rw [hjoin.1]
      rfl
    rw [hsame] at hr
    exact ((h.move hnote).endSession_retracts (ht.move h hnote) hr ha
      hx).of_same id rfl rfl hjoin.1 hjoin.2

theorem evict_retracts (h : Sound none s) (ht : Timed s)
    (hlive : s.isLive x = true)
    (hr : r ∈ reported (s.emitted (s.evict x now)))
    (ha : r.state = .allocated) (hx : r.owner.session = x) :
    Retracted x s (s.evict x now) r := by
  let n := State.notify { s with evictions := s.evictions + 1 } x
    "heartbeat timeout"
  have hcount : Move .aside none s none n :=
    .aside _ s.incompleteSince _
  have hevict : s.evict x now = n.endSession x now := if_pos hlive
  rw [hevict] at hr ⊢
  exact ((h.move hcount).endSession_retracts (ht.move h hcount) hr ha
    hx).of_same id rfl rfl rfl rfl

/-- A sweep, before and after it ends one of the sessions. -/
theorem sweep_spares (h : Sound none s) {before after : List SessionId}
    (heq : s.roster.expired now = before ++ x :: after) :
    let kinds := fun k => k ≠ .leave x ∧ k ≠ .join x
    let u := before.foldl (fun s id => s.evict id now) s
    Moves kinds none s none u
      ∧ Moves kinds none (u.evict x now) none (s.sweep now) := by
  intro kinds u
  obtain ⟨hbefore, hafter⟩ := h.attended.roster.expired_once heq
  have hother : ∀ ids : List SessionId, x ∉ ids → ∀ s, Sound none s →
      Moves kinds none s none (ids.foldl (fun s id => s.evict id now) s) := by
    intro ids hx s hs
    refine .foldl (fun y hy s hs => ?_) hs
    refine .evict hs now ⟨nofun, nofun⟩ fun k hk => ⟨?_, ?_⟩
    · rintro rfl
      cases hk
      exact hx hy
    · rintro rfl
      cases hk
  have hfirst := hother before hbefore s h
  have hu : Sound none u := h.moves hfirst
  have hevict : Moves (fun _ => True) none u none (u.evict x now) :=
    .evict hu now trivial fun _ _ => trivial
  have hlast := hother after hafter _ (hu.moves hevict)
  have hsilent : after.foldl (fun s id => s.evict id now) (u.evict x now)
      = s.evictSilent now := by
    unfold State.evictSilent
    rw [heq, List.foldl_append, List.foldl_cons]
  rw [hsilent] at hlast
  have hexpire : Moves kinds none (s.evictSilent now) none
      (s.inspected now) :=
    .expireReservations none _ now ⟨nofun, nofun⟩ ⟨nofun, nofun⟩
  have hseen := hlast.trans hexpire
  refine ⟨hfirst, hseen.trans ?_⟩
  exact .releaseOrphans ((hu.moves hevict).moves hseen) now
    ⟨nofun, nofun⟩ ⟨nofun, nofun⟩ fun _ _ _ => ⟨nofun, nofun⟩

end Sound

/-- How a call announces allocations to a session that ends between `u`
and `t`: before, while the session is live; meanwhile, only such as are
taken back; and none after that. -/
structure Dismissal (x : SessionId) (s u t s' : State) : Prop where
  changes : s.emitted s' = s.emitted u ++ u.emitted t ++ t.emitted s'
  before : Reaches x s u
  meanwhile : ∀ r ∈ reported (u.emitted t), r.state = .allocated →
    r.owner.session = x → Retracted x u t r
  after : ∀ r ∈ reported (t.emitted s'), r.state = .allocated →
    r.owner.session ≠ x

namespace Sound

theorem step_parts (h : Sound none s) (ht : Timed s) {input : Input}
    (hlive : s.isLive x = true) (hends : EndsSession s x input) :
    ∃ u t, Parting s x input u t
      ∧ Dismissal x s u t (s.step input) := by
  by_cases hsweep : ∃ now, input = .sweep now
  · obtain ⟨now, rfl⟩ := hsweep
    cases hends with
    | evicted hx =>
      obtain ⟨o, ho⟩ := Option.isSome_iff_exists.1 hlive
      obtain ⟨before, after, heq⟩ := List.append_of_mem hx
      obtain ⟨hfirst, hlast⟩ := h.sweep_spares heq
      obtain ⟨hnot, -⟩ := h.attended.roster.expired_once heq
      obtain ⟨hu, hou⟩ := h.foldl_evict ho now before hnot
      refine ⟨_, _, .swept heq, ?_⟩
      generalize before.foldl (fun s id => s.evict id now) s = u at *
      have hlive' : u.isLive x = true :=
        Option.isSome_iff_exists.2 ⟨o, hou⟩
      have hevict : Moves (fun _ => True) none u none (u.evict x now) :=
        .evict hu now trivial fun _ _ => trivial
      obtain ⟨htu, cs, hcs⟩ := hfirst.emits h ht
      obtain ⟨htt, ds, hds⟩ := hevict.emits hu htu
      have hgone : Sound none (u.evict x now) := hu.moves hevict
      obtain ⟨-, es, hes⟩ := hlast.emits hgone htt
      refine ⟨?_, ?_, fun r => hu.evict_retracts htu hlive', ?_⟩
      · show s.emitted (s.sweep now) = _
        rw [((hcs.trans hds).trans hes).emitted_eq, hcs.emitted_eq,
          hds.emitted_eq]
        exact congrArg (cs ++ ds ++ ·) hes.emitted_eq.symm
      · exact (hfirst.reaches h ht nofun (fun hk => hk.1 rfl)
          fun hk => hk.2 rfl).2
      · refine (hlast.reaches hgone htt nofun (fun hk => hk.1 rfl)
          fun hk => hk.2 rfl).2.of_gone ?_
        rw [show u.evict x now = _ from if_pos hlive']
        exact State.endSession_gone _ _ _
  · have hone : ∀ now, input ≠ .sweep now :=
      fun now heq => hsweep ⟨now, heq⟩
    refine ⟨s, s.step input, .alone hends hone, ?_,
      .of_quiet s.emitted_self,
      fun r => h.step_retracts ht hlive hends hone, ?_⟩
    · rw [State.emitted_self, State.emitted_self, List.nil_append,
        List.append_nil]
    · rw [State.emitted_self]
      exact nofun

/-- The state at every call of a run is one that is reached. -/
theorem at_call (h : Sound none s) (ht : Timed s) {inputs : List Input}
    {c : Call} (hc : c ∈ s.calls inputs) :
    Sound none c.before ∧ Timed c.before := by
  induction inputs generalizing s with
  | nil => cases hc
  | cons input inputs ih =>
    rcases List.mem_cons.1 hc with rfl | hc
    · exact ⟨h, ht⟩
    · exact ih (h.step input) (h.step_timed ht input) hc

end Sound

/-- Every call of a run is made where the calls before it have led. -/
theorem State.mem_calls (s : State) (before : List Input) (input : Input)
    (after : List Input) :
    ⟨s.run before, input⟩ ∈ s.calls (before ++ input :: after) := by
  induction before generalizing s with
  | nil => exact List.mem_cons_self
  | cons b before ih => exact List.mem_cons_of_mem _ (ih (s.step b))

/-- Allocations are announced to clients that are live. What is logged is
what the calls emit, and whatever a call reports as allocated to a session
finds the session live before the call and after it, unless the call ends
the session. A call that does announces allocations to the session before
the end, while it is live, and in the course of its teardown, but not
after that. In the teardown this happens only if the session held a place;
the next report is that the reservation is cancelled, and in the end
nothing is stored of it. -/
theorem allocations_reach_owners (settings : Settings)
    (inputs : List Input) :
    let start := State.new settings
    (start.run inputs).journal
        = start.journal.extend ((start.calls inputs).flatMap (·.changes))
    ∧ ∀ c ∈ start.calls inputs, ∀ x,
      let s := c.before
      let s' := s.step c.input
      (¬ (s.isLive x = true ∧ EndsSession s x c.input) → Reaches x s s')
      ∧ (s.isLive x = true → EndsSession s x c.input →
        ∃ u t, Parting s x c.input u t ∧ Dismissal x s u t s') := by
  intro start
  have hstart : Sound none start := .new settings
  refine ⟨?_, fun c hc x => ?_⟩
  · rw [← State.log_eq_calls]
    exact hstart.run_log inputs
  · obtain ⟨h, ht⟩ := hstart.at_call (.new settings) hc
    refine ⟨fun hnot => ?_, h.step_parts ht⟩
    by_cases hends : EndsSession c.before x c.input
    · exact h.step_reaches_stranger (fun hlive => hnot ⟨hlive, hends⟩)
        hends
    · exact h.step_reaches ht hends

/-- A client has a place, and reserves what it has bound. -/
def bookedAgain : List Input :=
  let any : ResourcePattern := ⟨everything, everything, everything, none⟩
  let noon : Moment := ⟨0, ⟨2024, 1, 1, 12, 0, 0, 0⟩⟩
  [.register "bench" .exporter noon,
    .execute 1 (.setResources [⟨"rack", "led", .sysfsGpio 7⟩]) noon,
    .register "alice" .client noon,
    .execute 2 (.createPlace "board" [any] .empty) noon,
    .execute 2 (.acquire "board") noon,
    .execute 2 (.createReservation [any] 0) noon]

/-- What is announced to the client when it leaves, and when somebody
joins instead. -/
theorem allocations_reach_owners_again :
    let s := (State.new {}).run bookedAgain
    Reaches 2 s (s.step (.register "bob" .client late))
    ∧ ∃ u t, Parting s 2 (.disconnect 2 late) u t
      ∧ Dismissal 2 s u t (s.step (.disconnect 2 late)) := by
  have hcall : ∀ input, ⟨(State.new {}).run bookedAgain, input⟩
      ∈ (State.new {}).calls (bookedAgain ++ [input]) :=
    fun input => (State.new {}).mem_calls bookedAgain input []
  have hlive : ((State.new {}).run bookedAgain).isLive 2 = true := by
    decide +kernel
  have hfree : (((State.new {}).run bookedAgain).roster.named?
      "bob").isNone = true := by decide +kernel
  constructor
  · refine ((allocations_reach_owners {} _).2 _ (hcall _) 2).1
      fun hends => ?_
    cases hends.2 with
    | replaced _ _ hn =>
      rw [hn] at hfree
      cases hfree
  · exact ((allocations_reach_owners {} _).2 _ (hcall _) 2).2 hlive
      (.disconnected late)

/-- The client is not live any more, before and after its place is given
back, and yet an allocation is announced to it. -/
theorem departed_served :
    let s := (State.new {}).run bookedAgain
    let gone : State := { s with roster := s.roster.remove 2 }
    let freed := gone.releaseFrom "board" 2 none late
    s.step (.disconnect 2 late) = gone.teardown 2 late
    ∧ gone.isLive 2 = false ∧ freed.isLive 2 = false
    ∧ ∃ r ∈ reported (gone.emitted freed), r.state = .allocated
      ∧ r.owner.session = 2
      ∧ r ∈ reported (s.emitted (s.step (.disconnect 2 late))) := by
  decide +kernel

end LabLease.Coordinator
