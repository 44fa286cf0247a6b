/-
A lease cannot be taken away: what ends it, and that it outlasts
everything else that can happen.

# The argument

Of all moves only one touches a place that is held, and that is the one
that takes it from its holder (`Move.leases`): a held place is neither
deleted nor created anew nor acquired, and an edit of it leaves the
patterns. So it remains to say which calls take a place from its holder,
and `Ends` is the list. Most of it is read off `Takes`; that a sweep ends
the holder's session only if the holder was silent for too long needs the
time in the holder's record, which is the time of its last call
(`Sound.lastHeard_eq`).
-/
import LabLease.Proofs.Coordinator.Leasing
import LabLease.Proofs.Coordinator.Presence

namespace LabLease.Coordinator

namespace State

/-- A place is held by a client, with these patterns and these resources
bound to them. -/
def Leases (s : State) (place : String) (client : Holder)
    (patterns : List ResourcePattern) (bound : List ResourceId) : Prop :=
  ∃ p, s.places.entries.get? place = some p ∧ p.holder = some client
    ∧ p.patterns = patterns ∧ p.bound = bound

/-- A lease that nobody else has a share in: its resources are bound to
no other place and set aside for no reservation. -/
structure Keeps (s : State) (place : String) (client : Holder)
    (patterns : List ResourcePattern) (bound : List ResourceId) :
    Prop where
  leases : s.Leases place client patterns bound
  unbound : ∀ id ∈ bound, ∀ p ∈ s.places.all, p.name ≠ place →
    id ∉ p.bound
  unallocated : ∀ id ∈ bound, ∀ e ∈ s.queue.all,
    id ∉ e.reservation.allocations

/-- The calls that end the lease of a client, who was last heard at
`heard`. -/
inductive Ends (s : State) (heard : Option Nat) (place : String)
    (client : Holder) : Input → Prop
  | released (force : Bool) (now : Moment) {reply : Reply}
      (h : ((Action.execute client.session (.release place force)
        now).apply s).1 = .ok reply) :
    Ends s heard place client
      (.execute client.session (.release place force) now)
  | disconnected (now : Moment) :
    Ends s heard place client (.disconnect client.session now)
  | quit (now : Moment) :
    Ends s heard place client (.execute client.session .disconnect now)
  | replaced (role : Role) (now : Moment) :
    Ends s heard place client (.register client.name role now)
  /-- The client has been silent for too long. -/
  | silent {now : Moment} {t : Nat} (ht : heard = some t)
      (h : s.settings.sessionTimeout < now.since t) :
    Ends s heard place client (.sweep now)
  | forced {other : SessionId} {now : Moment} {reply : Reply}
      (hother : other ≠ client.session)
      (hallow : s.settings.allowForceRelease = true)
      (h : ((Action.execute other (.release place true) now).apply s).1
        = .ok reply) :
    Ends s heard place client (.execute other (.release place true) now)
  /-- The place has missed resources for too long. -/
  | orphaned {now : Moment} (h : (s.inspected now).Overdue now place) :
    Ends s heard place client (.sweep now)

end State

variable {k : Kind} {kinds : Kind → Prop} {l l' : Option SessionId}
  {s s' : State} {place : String} {client : Holder}
  {patterns : List ResourcePattern} {bound : List ResourceId}

-- ================================================================= moves

/-- A lease outlasts every move but the one that takes the place from its
holder. -/
theorem Move.leases (hm : Move k l s l' s')
    (hk : k ≠ .vacate place client)
    (hl : s.Leases place client patterns bound) :
    s'.Leases place client patterns bound := by
  have hsame : ∀ t : State, t.places = s.places →
      t.Leases place client patterns bound := by
    intro t ht
    unfold State.Leases
    rw [ht]
    exact hl
  obtain ⟨p, hp, hh, hpat, hb⟩ := hl
  -- another place is put in or taken out
  have hput : ∀ (t : State) (name : String) (q : Place), name ≠ place →
      t.places = ⟨s.places.entries.insert name q⟩ →
      t.Leases place client patterns bound := by
    intro t name q hne ht
    refine ⟨p, ?_, hh, hpat, hb⟩
    rw [ht, Table.get?_insert, if_neg hne, hp]
  cases hm with
  | aside | heard | join | poll => exact hsame _ rfl
  | rescan => exact hsame _ (State.rescan_places _ _ _)
  | restock | leave | reserve | cancel | expire | forget =>
    exact hsame _ (State.emitAll_places _ _)
  | @vacate _ _ name _ _ _ _ _ q held _ hq hheld _ hr =>
    obtain ⟨q', -, -, -, -, -, rfl⟩ := Places.release_ok hr
    refine hput _ name _ (fun heq => ?_) (State.emitAll_places _ _)
    subst heq
    rw [hp] at hq
    cases hq
    rw [hh] at hheld
    cases hheld
    exact hk rfl
  | create hc =>
    obtain ⟨hnew, -, rfl⟩ := Places.create_ok hc
    refine hput _ _ _ (fun heq => ?_) (State.emitAll_places _ _)
    rw [heq, hp] at hnew
    cases hnew
  | @revise _ _ name q q' hq hr =>
    by_cases heq : name = place
    · subst heq
      rw [hp] at hq
      cases hq
      refine ⟨q', ?_, hr.holder.trans hh, ?_, hr.bound.trans hb⟩
      · rw [State.emitAll_places]
        exact (Table.get?_insert ..).trans (if_pos rfl)
      · have hheld : p.holder ≠ none := by rw [hh]; exact nofun
        exact (hr.patterns hheld).trans hpat
    · exact hput _ _ _ heq (State.emitAll_places _ _)
  | @delete _ _ name _ hd =>
    obtain ⟨q, hq, hfree, rfl⟩ := Places.delete_ok hd
    have hne : name ≠ place := by
      intro heq
      rw [heq, hp] at hq
      cases hq
      rw [hh] at hfree
      cases hfree
    refine ⟨p, ?_, hh, hpat, hb⟩
    rw [State.emitAll_places]
    exact (Table.get?_erase ..).trans ((if_neg hne).trans hp)
  | acquire _ _ _ ha =>
    obtain ⟨q, hq, hfree, -, -, rfl⟩ := Places.acquire_ok ha
    refine hput _ _ _ (fun heq => ?_) (State.emitAll_places _ _)
    rw [heq, hp] at hq
    cases hq
    rw [hh] at hfree
    cases hfree

theorem Moves.leases (hm : Moves kinds l s l' s')
    (hk : ¬ kinds (.vacate place client))
    (hl : s.Leases place client patterns bound) :
    s'.Leases place client patterns bound := by
  induction hm with
  | refl => exact hl
  | tail _ hkind step ih =>
    exact step.leases (fun heq => hk (heq ▸ hkind)) (ih hl)

namespace Sound

-- ================================================================= calls

/-- The holder of a place is a live client. -/
theorem holder_live (h : Sound none s)
    (hl : s.Leases place client patterns bound) :
    s.roster.Live client.session client.name .client := by
  obtain ⟨p, hp, hh, -⟩ := hl
  exact (h.attended.holders place p client hp hh).resolve_left nofun

/-- A call that may take a place from its holder ends the lease. -/
theorem ends_of_takes (h : Sound none s) {input : Input}
    {heard : Option Nat}
    (hheard : ∀ o, s.roster.sessions.get? client.session = some o →
      heard = some o.lastSeen)
    (htimeout : s.roster.timeout = s.settings.sessionTimeout)
    (hl : s.Leases place client patterns bound)
    (ht : Takes s input (.vacate place client)) :
    s.Ends heard place client input := by
  obtain ⟨o, ho, hname, -⟩ := h.holder_live hl
  cases ht with
  | clear hc =>
    cases hc with
    | replace hn hd =>
      cases hd with
      | vacate _ hs =>
        -- whoever is replaced is the holder, and has its name
        obtain ⟨hold, hold'⟩ := h.attended.roster.named?_eq_some.1 hn
        rw [← hs, ho] at hold
        cases hold
        rw [← hold', hname]
        exact .replaced _ _
  | @serve session _ _ _ _ hok hserve =>
    cases hserve with
    | disconnect hd =>
      cases hd with
      | vacate _ hs => exact hs ▸ .quit _
    | @release _ force _ hmay =>
      by_cases hs : client.session = session
      · subst hs
        exact .released force _ hok
      · obtain ⟨rfl, hallow⟩ := hmay.resolve_left hs
        exact .forced (Ne.symm hs) hallow hok
  | disconnect hd =>
    cases hd with
    | vacate _ hs => exact hs ▸ .disconnected _
  | sweep hsweep =>
    cases hsweep with
    | evict hmem hd =>
      cases hd with
      | vacate _ hs =>
        subst hs
        obtain ⟨o', ho', hsilent⟩ :=
          h.attended.roster.mem_expired.1 hmem
        exact .silent (hheard o' ho') (htimeout ▸ hsilent)
    | reclaim _ hdue => exact .orphaned hdue

/-- A call that does not end a lease keeps it. -/
theorem step_leases (h : Sound none s) {input : Input}
    {heard : Option Nat}
    (hheard : ∀ o, s.roster.sessions.get? client.session = some o →
      heard = some o.lastSeen)
    (htimeout : s.roster.timeout = s.settings.sessionTimeout)
    (hl : s.Leases place client patterns bound)
    (hends : ¬ s.Ends heard place client input) :
    (s.step input).Leases place client patterns bound := by
  rcases h.step_moves input with hm | hdrained
  · refine hm.leases (fun ht => hends ?_) hl
    exact h.ends_of_takes hheard htimeout hl ht
  · rw [hdrained]
    exact hl

-- ================================================================== runs

/-- No resource of a lease is bound elsewhere or set aside. -/
theorem keeps (h : Sound none s)
    (hl : s.Leases place client patterns bound) :
    s.Keeps place client patterns bound := by
  refine ⟨hl, ?_, ?_⟩
  all_goals obtain ⟨p, hp, hh, -, rfl⟩ := hl
  · intro id hid q hq hne hin
    obtain ⟨n, hn⟩ := Places.mem_all.1 hq
    rw [h.places n q hn] at hne
    exact h.leased.exclusive.apart n place q p hne hn hp id hin hid
  · intro id hid e he hin
    obtain ⟨i, hi⟩ := Queue.mem_all.1 he
    obtain ⟨_, _, -, -, hfree, -⟩ := h.set_aside hi hin
    rw [h.leased.exclusive.isBound_of_mem hp hid] at hfree
    cases hfree

end Sound

/-- A lease outlasts any calls none of which ends it. -/
theorem State.run_leases (settings : Settings) (before after : List Input)
    (hl : ((State.new settings).run before).Leases place client patterns
      bound)
    (hends : ∀ pre input post, after = pre ++ input :: post →
      ¬ ((State.new settings).run (before ++ pre)).Ends
        ((State.new settings).lastHeard client.session (before ++ pre))
        place client input) :
    ((State.new settings).run (before ++ after)).Leases place client
      patterns bound := by
  induction after generalizing before with
  | nil =>
    rw [List.append_nil]
    exact hl
  | cons input after ih =>
    have hsplit : before ++ input :: after = (before ++ [input]) ++ after :=
      (List.append_assoc before [input] after).symm
    rw [hsplit]
    have hfirst := hends [] input after rfl
    rw [List.append_nil] at hfirst
    refine ih _ ?_ fun pre input' post hpost => ?_
    · rw [State.run_append]
      refine Sound.step_leases (.reached settings before)
        (fun o ho => Sound.lastHeard_eq settings before ho) ?_ hl hfirst
      rw [(Sound.new settings).run_timeout,
        (Sound.new settings).run_settings]
      rfl
    · have hrest := hends (input :: pre) input' post
        (congrArg (input :: ·) hpost)
      rw [List.append_cons] at hrest
      exact hrest

-- =========================================================== reclamation

namespace State

variable {name n : String} {p : Place}

/-- A release frees its place, if that is held, and leaves the others. -/
theorem get?_releaseFrom (session : SessionId) (holder : Option Holder)
    (now : Moment) (hne : n ≠ place) :
    (s.releaseFrom place session holder now).places.entries.get? n
      = s.places.entries.get? n := by
  unfold releaseFrom
  cases hr : s.places.release place session true now.date with
  | error e => rfl
  | ok out =>
    obtain ⟨q, -, -, -, -, -, hps⟩ := Places.release_ok hr
    rw [finishRelease_places]
    show out.2.entries.get? n = _
    rw [hps, Table.get?_insert, if_neg (Ne.symm hne)]

theorem releaseFrom_frees {held : Holder} (session : SessionId)
    (holder : Option Holder) (now : Moment)
    (hp : s.places.entries.get? place = some p)
    (hh : p.holder = some held) :
    ∃ q, (s.releaseFrom place session holder now).places.entries.get? place
        = some q ∧ q.holder = none := by
  unfold releaseFrom
  rw [Places.release_of_held session now.date hp hh]
  dsimp only
  rw [finishRelease_places, Table.get?_insert, if_pos rfl]
  exact ⟨_, rfl, rfl⟩

theorem get?_checkOrphan (limit : Nat) (now : Moment) (hne : n ≠ place) :
    (s.checkOrphan limit now place).places.entries.get? n
      = s.places.entries.get? n := by
  unfold checkOrphan
  dsimp only
  split
  · rfl
  · split
    · split
      · exact get?_releaseFrom _ _ now hne
      · rfl
    · rfl

theorem checkOrphan_frees {limit : Nat} {now : Moment} {held : Holder}
    (hp : s.places.entries.get? place = some p)
    (hh : p.holder = some held)
    (hdue : limit ≤ now.since
      ((s.incompleteSince.get? place).getD now.ticks)) :
    ∃ q, (s.checkOrphan limit now place).places.entries.get? place
        = some q ∧ q.holder = none := by
  unfold checkOrphan
  dsimp only
  rw [if_neg (Nat.not_lt.2 hdue), Places.get_eq_ok.2 hp]
  dsimp only
  rw [hh]
  exact releaseFrom_frees _ _ now hp hh

/-- Whoever is due is freed in the loop at its own turn, and nobody else's
turn matters. -/
theorem checkOrphans_frees {limit : Nat} {now : Moment} {held : Holder}
    {names : List String} (hnd : names.Nodup) (hmem : place ∈ names)
    (hp : s.places.entries.get? place = some p)
    (hh : p.holder = some held)
    (hdue : limit ≤ now.since
      ((s.incompleteSince.get? place).getD now.ticks)) :
    ∃ q, (names.foldl (checkOrphan limit now) s).places.entries.get? place
        = some q ∧ q.holder = none := by
  have hrest : ∀ (names : List String) (t : State), place ∉ names →
      (names.foldl (checkOrphan limit now) t).places.entries.get? place
        = t.places.entries.get? place := by
    intro names
    induction names with
    | nil => exact fun _ _ => rfl
    | cons m names ih =>
      intro t hnot
      rw [List.mem_cons, not_or] at hnot
      exact (ih _ hnot.2).trans (get?_checkOrphan limit now hnot.1)
  induction names generalizing s with
  | nil => cases hmem
  | cons m names ih =>
    obtain ⟨hnot, hnd⟩ := List.nodup_cons.1 hnd
    rw [List.foldl_cons]
    by_cases hm : place = m
    · subst hm
      rw [hrest names _ hnot]
      exact checkOrphan_frees hp hh hdue
    · refine ih hnd ((List.mem_cons.1 hmem).resolve_left hm) ?_ ?_
      · rw [get?_checkOrphan limit now hm, hp]
      · rw [checkOrphan_incompleteSince limit now hm]
        exact hdue

end State

/-- A place that is held when a sweep inspects the places is free after
that iff it was overdue. -/
theorem Sound.overdue_iff (h : Sound none s) (now : Moment)
    (hl : s.Leases place client patterns bound) :
    s.Overdue now place ↔
      ∃ q, (s.releaseOrphans now).places.entries.get? place = some q
        ∧ q.holder = none := by
  constructor
  · intro hdue
    obtain ⟨limit, p, hlimit, hp, hmiss, hsince⟩ := hdue
    obtain ⟨p', hp', hh, -⟩ := hl
    rw [hp] at hp'
    cases hp'
    have hmem := (State.mem_incomplete h.places).2 ⟨p, hp, hmiss⟩
    rw [State.releaseOrphans_eq hlimit]
    refine State.checkOrphans_frees (State.nodup_incomplete h.places) hmem
      hp hh ?_
    rw [State.get?_keptTimers hmem]
    exact hsince
  · intro hfree
    obtain ⟨q, hq, hnone⟩ := hfree
    by_contra hdue
    have hm : Moves (· ≠ .vacate place client) none s none
        (s.releaseOrphans now) :=
      Moves.releaseOrphans h now nofun nofun fun n hn held heq => by
        cases heq
        exact hdue hn
    obtain ⟨p, hp, hh, -⟩ := hm.leases (fun hne => hne rfl) hl
    rw [hq] at hp
    cases hp
    rw [hnone] at hh
    cases hh

-- ================================================= requests of others

/-- A call that is not a request of the client or under its name. A sweep
and taking out what is to be sent are nobody's requests. -/
def Input.Foreign (client : Holder) : Input → Prop
  | .register name _ _ => name ≠ client.name
  | .execute session _ _ => session ≠ client.session
  | .disconnect session _ => session ≠ client.session
  | .sweep _ | .takeEvents | .takeNotices => True

/-- Where no place is released by force or for want of resources, only a
sweep that finds the client silent ends a lease without the client. -/
theorem State.Ends.silent_of_foreign {heard : Option Nat} {input : Input}
    (hends : s.Ends heard place client input)
    (hforeign : input.Foreign client)
    (hforce : s.settings.allowForceRelease = false)
    (hlimit : ∀ now, (s.inspected now).settings.orphanLimit = none) :
    ∃ now t, input = .sweep now ∧ heard = some t
      ∧ s.settings.sessionTimeout < now.since t := by
  cases hends with
  | released => exact absurd rfl hforeign
  | disconnected => exact absurd rfl hforeign
  | quit => exact absurd rfl hforeign
  | replaced => exact absurd rfl hforeign
  | @silent now t ht hlate => exact ⟨now, t, rfl, ht, hlate⟩
  | forced _ hallow _ =>
    rw [hforce] at hallow
    cases hallow
  | @orphaned now hdue =>
    obtain ⟨_, _, hsome, -⟩ := hdue
    rw [hlimit] at hsome
    cases hsome

/-- A lease cannot be taken away. Whatever calls follow, none of which
ends it, the place is held by the same client, with the same patterns and
the same resources bound to it in the same order, and nobody else has
these bound or set aside. In particular no requests of others end a lease
where places are released neither by force nor for want of resources,
with whatever sweeps come before the client has been silent for too
long. -/
theorem lease_endures (settings : Settings) (before after : List Input)
    (place : String) (client : Holder) (patterns : List ResourcePattern)
    (bound : List ResourceId)
    (hl : ((State.new settings).run before).Leases place client patterns
      bound) :
    let start := State.new settings
    ((∀ pre input post, after = pre ++ input :: post →
          ¬ (start.run (before ++ pre)).Ends
            (start.lastHeard client.session (before ++ pre))
            place client input) →
        (start.run (before ++ after)).Keeps place client patterns bound)
      ∧ (settings.allowForceRelease = false →
        settings.orphanLimit = none →
        (∀ input ∈ after, input.Foreign client) →
        (∀ pre now post, after = pre ++ .sweep now :: post →
          ∀ t, start.lastHeard client.session (before ++ pre) = some t →
            now.since t ≤ settings.sessionTimeout) →
        (start.run (before ++ after)).Keeps place client patterns
          bound) := by
  intro start
  have hfirst : (∀ pre input post, after = pre ++ input :: post →
      ¬ (start.run (before ++ pre)).Ends
        (start.lastHeard client.session (before ++ pre))
        place client input) →
      (start.run (before ++ after)).Keeps place client patterns bound :=
    fun hends => (Sound.reached settings (before ++ after)).keeps
      (State.run_leases settings before after hl hends)
  refine ⟨hfirst, fun hforce hlimit hforeign hawake => ?_⟩
  refine hfirst fun pre input post hafter hends => ?_
  have hsound : Sound none (start.run (before ++ pre)) :=
    .reached settings _
  have hset : (start.run (before ++ pre)).settings = settings :=
    (Sound.new settings).run_settings _
  have hmem : input ∈ after := by
    rw [hafter]
    exact List.mem_append_right pre List.mem_cons_self
  obtain ⟨now, t, rfl, ht, hlate⟩ := hends.silent_of_foreign
    (hforeign input hmem) (hset ▸ hforce)
    fun now => by rw [(Moves.inspected hsound now).settings, hset, hlimit]
  rw [hset] at hlate
  exact Nat.not_lt.2 (hawake pre now post hafter t ht) hlate

/-- A client keeps its place while the silent exporter of the resource
goes, having shown a sign of life itself, and while somebody else tries
to release the place by force. -/
theorem lease_endures_board :
    let any : ResourcePattern := ⟨everything, everything, everything, none⟩
    let clock (ms : Nat) : Moment := ⟨ms, ⟨2024, 1, 1, 12, 0, 0, 0⟩⟩
    let start := State.new { allowForceRelease := false }
    let before := booking ++ [.execute 2 (.acquire "board") (clock 0),
      .register "bob" .client (clock 0)]
    let bound := [⟨"bench", "rack", "SysfsGPIO", "led"⟩]
    (start.run (before ++ [.execute 2 .heartbeat (clock 20000),
        .sweep (clock 45000)])).Keeps "board" ⟨"alice", 2⟩ [any] bound
      ∧ (start.run (before ++ [.execute 3 (.release "board" true) (clock 9),
        .sweep (clock 30000)])).Keeps "board" ⟨"alice", 2⟩ [any]
          bound := by
  intro any clock start before bound
  obtain ⟨hheard, hheard', hsome⟩ : start.lastHeard 2
        (before ++ [.execute 2 .heartbeat (clock 20000)]) = some 20000
      ∧ start.lastHeard 2 (before
        ++ [.execute 3 (.release "board" true) (clock 9)]) = some 0
      ∧ ((start.run before).places.entries.get? "board").isSome
        = true := by
    decide +kernel +revert
  have hl : (start.run before).Leases "board" ⟨"alice", 2⟩ [any] bound := by
    refine ⟨Option.get _ hsome, (Option.some_get hsome).symm, ?_⟩
    clear hheard hheard'
    decide +kernel +revert
  have hlimit : ((start.run (before
      ++ [.execute 2 .heartbeat (clock 20000)])).inspected
        (clock 45000)).settings.orphanLimit = none := by
    rw [(Moves.inspected (.reached _ _) _).settings,
      (Sound.new _).run_settings]
    rfl
  refine ⟨(lease_endures _ before _ _ _ _ _ hl).1 ?_,
    (lease_endures _ before _ _ _ _ _ hl).2 rfl rfl ?_ ?_⟩
  · intro pre input post hafter hends
    rcases pre with _ | ⟨_, _ | ⟨_, pre⟩⟩
    · cases hafter
      cases hends
    · cases hafter
      cases hends with
      | silent ht hlate =>
        cases hheard.symm.trans ht
        rw [(Sound.new _).run_settings] at hlate
        exact absurd hlate (by decide)
      | orphaned hdue =>
        obtain ⟨_, _, hlim, -⟩ := hdue
        cases hlimit.symm.trans hlim
    · cases pre <;> cases hafter
  · intro input hinput
    simp only [List.mem_cons, List.not_mem_nil, or_false] at hinput
    obtain rfl | rfl := hinput
    · exact (by decide : (3 : Nat) ≠ 2)
    · exact trivial
  · intro pre now post hafter t ht
    rcases pre with _ | ⟨_, _ | ⟨_, pre⟩⟩
    · cases hafter
    · cases hafter
      cases hheard'.symm.trans ht
      decide
    · cases pre <;> cases hafter

end LabLease.Coordinator
