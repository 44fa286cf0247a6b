/-
Whom a sweep evicts and in which order, and what else ends a session.

# One after the other

A sweep lists the sessions that were silent for too long when it begins
and ends them in turn. Each end is a cascade, but a cascade strikes
nobody off except the session that it is about
(`State.endSession_roster`). So whoever is listed is still live at its
turn, and is counted and told once.

# Why the calls decide

The list is made from the times in the records. A record is renewed by
whatever lets its session be heard and by nothing else
(`Sound.lastHeard_eq`), so the list can be read off the calls.
-/
import LabLease.Proofs.Coordinator.Grace
import LabLease.Proofs.Coordinator.Teardown

namespace LabLease.Coordinator

variable {k : Kind} {kinds : Kind → Prop} {l l' : Option SessionId}
  {s s' : State} {x y : SessionId} {name : String} {role : Role}

-- ================================================================ the tally

namespace State

/-- What a state tells of the sessions that it has ended on its own:
whom it has to tell why, and how many it has evicted. -/
def tally (s : State) : List (SessionId × String) × Nat :=
  (s.notices, s.evictions)

@[simp] theorem emitAll_tally (s : State) (cs : List Change) :
    (s.emitAll cs).tally = s.tally := by
  unfold tally
  rw [emitAll_notices, emitAll_evictions]

@[simp] theorem rescan_tally (s : State) (now : Moment)
    (skip : List String) : (s.rescan now skip).tally = s.tally :=
  emitAll_tally _ _

end State

/-- Nothing that is done to a registry changes the tally. -/
theorem Move.tally (hm : Move k l s l' s') (hk : k ≠ .aside) :
    s'.tally = s.tally := by
  cases hm with
  | aside => exact absurd rfl hk
  | heard | join | poll => rfl
  | rescan => exact State.rescan_tally _ _ _
  | restock | leave | vacate | create | revise | delete | acquire
  | reserve | cancel | expire | forget => exact State.emitAll_tally _ _

theorem Moves.tally (hm : Moves kinds l s l' s') (hk : ¬ kinds .aside) :
    s'.tally = s.tally := by
  induction hm with
  | refl => rfl
  | tail _ hkind step ih =>
    exact (step.tally fun heq => hk (heq ▸ hkind)).trans ih

theorem Sound.endSession_tally (h : Sound none s) (x : SessionId)
    (now : Moment) : (s.endSession x now).tally = s.tally := by
  have hm : Moves (Departure x now) none s none (s.endSession x now) :=
    .of_endSession h x now fun _ hk => hk
  exact hm.tally nofun

namespace State

theorem releaseFrom_tally (s : State) (place : String)
    (session : SessionId) (holder : Option Holder) (now : Moment) :
    (s.releaseFrom place session holder now).tally = s.tally := by
  unfold releaseFrom
  cases s.places.release place session true now.date with
  | error e => rfl
  | ok out =>
    dsimp only
    rw [finishRelease_eq, rescan_tally]
    exact emitAll_tally _ _

theorem checkOrphan_tally (s : State) (limit : Nat) (now : Moment)
    (name : String) : (s.checkOrphan limit now name).tally = s.tally := by
  unfold checkOrphan
  dsimp only
  split
  · rfl
  · split
    · split
      · exact releaseFrom_tally _ _ _ _ _
      · rfl
    · rfl

theorem releaseOrphans_tally (s : State) (now : Moment) :
    (s.releaseOrphans now).tally = s.tally := by
  have hloop : ∀ (limit : Nat) (names : List String) (t : State),
      (names.foldl (checkOrphan limit now) t).tally = t.tally := by
    intro limit names
    induction names with
    | nil => exact fun _ => rfl
    | cons name names ih =>
      intro t
      rw [List.foldl_cons, ih, checkOrphan_tally]
  cases hlimit : s.settings.orphanLimit with
  | none => rw [releaseOrphans_none hlimit]
  | some limit =>
    rw [releaseOrphans_eq hlimit, hloop]
    rfl

/-- A sweep tells and counts what its evictions do. -/
theorem sweep_tally (s : State) (now : Moment) :
    (s.sweep now).tally = (s.evictSilent now).tally := by
  have hcheck : Moves (· ≠ .aside) none (s.evictSilent now) none
      (s.inspected now) := .expireReservations none _ now nofun nofun
  rw [sweep_eq, releaseOrphans_tally, hcheck.tally fun hne => hne rfl]

-- ============================================================== evictions

theorem isLive_iff :
    s.isLive x = true ↔ ∃ o, s.roster.sessions.get? x = some o :=
  Option.isSome_iff_exists

/-- An eviction strikes off the session that it is about. -/
theorem evict_roster (s : State) (x : SessionId) (now : Moment)
    (y : SessionId) : (s.evict x now).roster.sessions.get? y
      = if x = y then none else s.roster.sessions.get? y := by
  unfold evict
  split
  · rw [endSession_roster, Roster.get?_remove]
    rfl
  · next hgone =>
    split
    · next heq =>
      subst heq
      exact Option.eq_none_iff_forall_ne_some.2 fun o ho =>
        hgone (isLive_iff.2 ⟨o, ho⟩)
    · rfl

theorem foldl_evict_roster (s : State) (now : Moment)
    (ids : List SessionId) (y : SessionId) :
    (ids.foldl (fun s x => s.evict x now) s).roster.sessions.get? y
      = if y ∈ ids then none else s.roster.sessions.get? y := by
  induction ids generalizing s with
  | nil => rw [if_neg List.not_mem_nil, List.foldl_nil]
  | cons x ids ih =>
    rw [List.foldl_cons, ih, evict_roster]
    by_cases hy : y ∈ ids
    · rw [if_pos hy, if_pos (List.mem_cons_of_mem x hy)]
    · rw [if_neg hy]
      simp only [List.mem_cons, hy, or_false, eq_comm]

/-- Who is left once some sessions were evicted. -/
theorem foldl_evict_isLive (s : State) (now : Moment)
    (ids : List SessionId) (y : SessionId) :
    (ids.foldl (fun s x => s.evict x now) s).isLive y = true
      ↔ s.isLive y = true ∧ y ∉ ids := by
  rw [isLive_iff, isLive_iff, foldl_evict_roster]
  by_cases hy : y ∈ ids <;> simp [hy]

end State

namespace Sound

theorem evict_tally (h : Sound none s) (hlive : s.isLive x = true)
    (now : Moment) : (s.evict x now).tally
      = (s.notices ++ [(x, "heartbeat timeout")], s.evictions + 1) := by
  have hcount : Sound none (State.notify { s with
      evictions := s.evictions + 1 } x "heartbeat timeout") :=
    h.move (.aside _ s.incompleteSince _)
  rw [show s.evict x now = _ from if_pos hlive, hcount.endSession_tally]
  rfl

/-- Sessions that are evicted in turn are each counted and told once. -/
theorem foldl_evict_tally (h : Sound none s) (now : Moment)
    {ids : List SessionId} (hnd : ids.Nodup)
    (hlive : ∀ x ∈ ids, s.isLive x = true) :
    (ids.foldl (fun s x => s.evict x now) s).tally
      = (s.notices ++ ids.map fun x => (x, "heartbeat timeout"),
          s.evictions + ids.length) := by
  induction ids generalizing s with
  | nil => rw [List.map_nil, List.append_nil]; rfl
  | cons x ids ih =>
    obtain ⟨hnot, hnd⟩ := List.nodup_cons.1 hnd
    have hm : Moves (fun _ => True) none s none (s.evict x now) :=
      .evict h now trivial fun _ _ => trivial
    have hrest : ∀ y ∈ ids, (s.evict x now).isLive y = true := by
      intro y hy
      have hone := State.foldl_evict_isLive s now [x] y
      refine hone.2 ⟨hlive y (List.mem_cons_of_mem x hy), ?_⟩
      rw [List.mem_singleton]
      rintro rfl
      exact hnot hy
    have hfirst := h.evict_tally (hlive x List.mem_cons_self) now
    unfold State.tally at hfirst ih
    rw [Prod.mk.injEq] at hfirst
    rw [List.foldl_cons, State.tally, ih (h.moves hm) hnd hrest, hfirst.1,
      hfirst.2]
    rw [List.map_cons, List.length_cons, List.append_assoc,
      Nat.add_assoc, Nat.add_comm 1]
    rfl

end Sound

-- ======================================================= who is live after

/-- The moves in which nobody leaves or joins. -/
def Kind.Seated (k : Kind) : Prop :=
  (∀ x, k ≠ .leave x) ∧ ∀ x, k ≠ .join x

/-- Whoever is live stays so unless it leaves. -/
theorem Moves.live_stays (h : Sound l s) (hm : Moves kinds l s l' s')
    (hk : ¬ kinds (.leave x)) (hl : s.roster.Live x name role) :
    s'.roster.Live x name role := by
  induction hm with
  | refl => exact hl
  | tail hrun hkind step ih =>
    exact step.live_stays (h.moves hrun) (fun heq => hk (heq ▸ hkind))
      (ih h hl)

theorem State.isLive_iff_live :
    s.isLive x = true ↔ ∃ name role, s.roster.Live x name role := by
  rw [State.isLive_iff]
  exact ⟨fun ⟨o, ho⟩ => ⟨_, _, o, ho, rfl, rfl⟩,
    fun ⟨_, _, o, ho, _⟩ => ⟨o, ho⟩⟩

namespace Sound

/-- A sweep ends the sessions that it has listed and no others. -/
theorem sweep_isLive (h : Sound none s) (now : Moment) (x : SessionId) :
    (s.sweep now).isLive x = true
      ↔ s.isLive x = true ∧ x ∉ s.roster.expired now := by
  rw [← State.foldl_evict_isLive s now]
  have hu := h.moves (Moves.evictSilent h now)
  -- once they are gone nobody leaves or joins
  have hrest : Moves Kind.Seated none (s.evictSilent now) none
      (s.sweep now) := by
    have hcheck : Moves Kind.Seated none (s.evictSilent now) none
        (s.inspected now) :=
      .expireReservations none _ now ⟨nofun, nofun⟩ ⟨nofun, nofun⟩
    exact hcheck.trans (.releaseOrphans (hu.moves hcheck) now
      ⟨nofun, nofun⟩ ⟨nofun, nofun⟩ fun _ _ _ => ⟨nofun, nofun⟩)
  show _ ↔ (s.evictSilent now).isLive x = true
  rw [State.isLive_iff_live, State.isLive_iff_live]
  refine ⟨fun ⟨name, role, hl⟩ => ⟨name, role, ?_⟩,
    fun ⟨name, role, hl⟩ => ⟨name, role, ?_⟩⟩
  · exact hrest.live_was (fun hj => absurd rfl (hj.2 x)) hl
  · exact hrest.live_stays hu (fun hk => hk.1 x rfl) hl

/-- Whatever is said to end a session does. -/
theorem ends_session (h : Sound none s) {input : Input}
    (hlive : s.isLive x = true) (hends : EndsSession s x input) :
    (s.step input).isLive x = false := by
  obtain ⟨o, ho⟩ := State.isLive_iff.1 hlive
  rw [Bool.eq_false_iff]
  cases hends with
  | disconnected now =>
    have hgone := State.endSession_gone s x now
    rw [ne_eq, State.isLive_iff]
    unfold State.step
    dsimp only
    rw [Action.disconnect_apply, Roster.get_eq_ok.2 ho]
    show ¬ ∃ o, (s.endSession x now).roster.sessions.get? x = some o
    rw [hgone]
    exact nofun
  | asked now =>
    rw [ne_eq, State.isLive_iff, (h.departed_asked ho now).gone]
    exact nofun
  | replaced role now hn hx =>
    subst hx
    rw [ne_eq, State.isLive_iff, (h.departed_replaced role hn now).2.gone]
    exact nofun
  | @evicted now hx =>
    exact fun hstays => ((h.sweep_isLive now x).1 hstays).2 hx

/-- A session ends in no other call. -/
theorem step_isLive (h : Sound none s) {input : Input}
    (hlive : s.isLive x = true) :
    (s.step input).isLive x = false ↔ EndsSession s x input := by
  refine ⟨fun hgone => ?_, h.ends_session hlive⟩
  by_contra hnot
  rw [Bool.eq_false_iff] at hgone
  refine hgone ?_
  rcases h.step_moves input with hm | hdrained
  · obtain ⟨name, role, hl⟩ := State.isLive_iff_live.1 hlive
    refine State.isLive_iff_live.2 ⟨name, role, ?_⟩
    exact hm.live_stays h (fun ht => hnot ht.asks) hl
  · rw [hdrained]
    exact hlive

end Sound

-- ============================================================= exactness

/-- A session was heard last before another one was, or at the same time
and has the smaller number. -/
def State.HeardBefore (s : State) (inputs : List Input)
    (x y : SessionId) : Prop :=
  ∃ t u, s.lastHeard x inputs = some t ∧ s.lastHeard y inputs = some u
    ∧ (t < u ∨ t = u ∧ x < y)

/-- Whom a sweep lists, by the calls so far. -/
theorem State.mem_expired (settings : Settings) (inputs : List Input)
    (now : Moment) (x : SessionId) :
    let s := (State.new settings).run inputs
    x ∈ s.roster.expired now ↔ s.isLive x = true
      ∧ ∃ t, (State.new settings).lastHeard x inputs = some t
        ∧ t + settings.sessionTimeout < now.ticks := by
  intro s
  have h : Sound none s := .reached settings inputs
  have htimeout : s.roster.timeout = settings.sessionTimeout :=
    (Sound.new settings).run_timeout inputs
  rw [h.attended.roster.mem_expired, State.isLive_iff, htimeout]
  unfold Moment.since
  constructor
  · rintro ⟨o, ho, hsilent⟩
    refine ⟨⟨o, ho⟩, o.lastSeen, Sound.lastHeard_eq settings inputs ho, ?_⟩
    omega
  · rintro ⟨⟨o, ho⟩, t, ht, hsilent⟩
    rw [Sound.lastHeard_eq settings inputs ho] at ht
    cases ht
    exact ⟨o, ho, by omega⟩

/-- Eviction is exact. A sweep ends those live sessions whose last sign of
life is longer ago than the timeout allows, one after the other in the
order of that last sign and then of their numbers, and counts and tells
each of them once. And in every state a call ends a live session iff it
is one of those: the session's own good-bye or the loss of its
connection, a registration under its name, or such a sweep. -/
theorem evictions_exact (settings : Settings) (inputs : List Input) :
    let start := State.new settings
    let s := start.run inputs
    (∀ now,
      let ended := s.roster.expired now
      (∀ x, x ∈ ended ↔ s.isLive x = true
          ∧ ∃ t, start.lastHeard x inputs = some t
            ∧ t + settings.heartbeatIntervalMs * max settings.graceFactor 1
              < now.ticks)
        ∧ ended.Pairwise (start.HeardBefore inputs)
        ∧ (∀ before after, ended = before ++ after → ∀ x,
          (before.foldl (fun s x => s.evict x now) s).isLive x = true
            ↔ s.isLive x = true ∧ x ∉ before)
        ∧ (∀ x, (s.sweep now).isLive x = true
          ↔ s.isLive x = true ∧ x ∉ ended)
        ∧ (s.sweep now).evictions = s.evictions + ended.length
        ∧ (s.sweep now).notices
          = s.notices ++ ended.map fun x => (x, "heartbeat timeout"))
      ∧ ∀ input x, s.isLive x = true →
        ((s.step input).isLive x = false ↔ EndsSession s x input) := by
  intro start s
  have h : Sound none s := .reached settings inputs
  refine ⟨fun now => ?_, fun input x hlive => h.step_isLive hlive⟩
  intro ended
  have hmem : ∀ x, x ∈ ended ↔ _ :=
    State.mem_expired settings inputs now
  have hsweep : (s.sweep now).tally = _ :=
    (State.sweep_tally s now).trans (h.foldl_evict_tally now
      (h.attended.roster.nodup_expired now)
      fun x hx => ((hmem x).1 hx).1)
  unfold State.tally at hsweep
  rw [Prod.mk.injEq] at hsweep
  refine ⟨hmem, ?_, fun before _ _ => State.foldl_evict_isLive s now before,
    h.sweep_isLive now, hsweep.2, hsweep.1⟩
  refine (h.attended.roster.pairwise_expired now).imp ?_
  rintro x y ⟨o, o', ho, ho', hbefore⟩
  exact ⟨_, _, Sound.lastHeard_eq settings inputs ho,
    Sound.lastHeard_eq settings inputs ho', hbefore⟩

/-- An exporter and two clients, each heard at a time of its own. -/
def quietHouse : List Input :=
  let clock (ms : Nat) : Moment := ⟨ms, ⟨2024, 1, 1, 12, 0, 0, 0⟩⟩
  [.register "bench" .exporter (clock 0),
    .register "alice" .client (clock 0),
    .register "bob" .client (clock 0),
    .execute 2 .heartbeat (clock 5000),
    -- a request that is refused is a sign of life, too
    .execute 1 (.acquire "board") (clock 9000),
    .execute 3 .heartbeat (clock 15000)]

/-- Of the three the client that was heard first goes first, and the one
that has been silent for just as long as it may be stays. -/
theorem evictions_exact_house :
    let s := (State.new {}).run quietHouse
    let late : Moment := ⟨45000, ⟨2024, 1, 1, 12, 0, 45, 0⟩⟩
    s.roster.expired late = [2, 1]
      ∧ (s.sweep late).isLive 3 = true
      ∧ (s.step (.sweep late)).isLive 1 = false
      ∧ (s.sweep late).notices
        = [(2, "heartbeat timeout"), (1, "heartbeat timeout")] := by
  intro s late
  obtain ⟨hlive, hlive', hnone⟩ : s.isLive 3 = true
      ∧ s.isLive 1 = true ∧ s.notices = [] := by
    decide +kernel +revert
  let bench : Session :=
    ⟨1, "bench", .exporter, ⟨2024, 1, 1, 12, 0, 0, 0⟩, 9000, .empty, .empty⟩
  let alice : Session :=
    ⟨2, "alice", .client, ⟨2024, 1, 1, 12, 0, 0, 0⟩, 5000, .empty, .empty⟩
  have hsilent : (s.roster.all.filter fun o =>
      s.roster.timeout < late.since o.lastSeen) = [bench, alice] := by
    decide +kernel +revert
  have hended : s.roster.expired late = [2, 1] := by
    unfold Roster.expired
    dsimp only
    rw [hsilent]
    simp [List.mergeSort, bench, alice]
  obtain ⟨hsweeps, hends⟩ := evictions_exact {} quietHouse
  obtain ⟨-, -, -, hstay, -, hnotices⟩ := hsweeps late
  have hfirst : 1 ∈ s.roster.expired late := by
    rw [hended]
    exact List.mem_cons_of_mem _ List.mem_cons_self
  refine ⟨hended, (hstay 3).2 ⟨hlive, ?_⟩,
    (hends _ 1 hlive').2 (.evicted hfirst), ?_⟩
  · show 3 ∉ s.roster.expired late
    rw [hended]
    decide
  · refine hnotices.trans ?_
    show s.notices ++ (s.roster.expired late).map _ = _
    rw [hnone, hended]
    rfl

end LabLease.Coordinator
