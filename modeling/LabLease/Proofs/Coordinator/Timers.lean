/-
The timers of places: how long each has missed resources, as far as the
sweeps have seen.

# What a timer is about

A sweep notes when it first finds that a place misses resources, drops
the note of every place that misses none, and whatever takes a place back
stops its timer. So a timer runs only for a place that is held.

# Why no move may be aside

The moves of a registry leave the timers alone, apart from that of a
place that is taken back, but what is done aside may set them at will. So
calls are followed move by move only where nothing is done aside
(`Moves.subsides`). What a call notes aside is seen not to be a timer,
and the loop of a sweep is looked at itself
(`State.releaseOrphans_of_mem`).
-/
import LabLease.Proofs.Coordinator.Grace
import LabLease.Proofs.Coordinator.Tenure

namespace LabLease.Coordinator

variable {k : Kind} {kinds : Kind → Prop} {l l' : Option SessionId}
  {s s' s'' : State} {place : String} {p : Place} {now : Moment}
  {limit : Nat} {input : Input} {inputs : List Input}

namespace State

/-- A place is there and somebody holds it. -/
def Held (s : State) (place : String) : Prop :=
  ∃ p, s.places.entries.get? place = some p ∧ p.isAcquired = true

instance : Decidable (s.Held place) :=
  decidable_of_iff ((s.places.entries.get? place).any (·.isAcquired) = true)
    (Option.any_eq_true _ _)

/-- Since when a place has missed resources, as far as is noted. -/
def timer (s : State) (place : String) : Option Nat :=
  s.incompleteSince.get? place

/-- A place is as before, or it was taken back and its timer stopped. -/
def Subsides (s s' : State) (place : String) : Prop :=
  (s'.Held place ↔ s.Held place) ∧ s'.timer place = s.timer place
    ∨ s.Held place ∧ ¬ s'.Held place ∧ s'.timer place = none

/-- The timer runs only while the place is held. -/
def Wound (s : State) (place : String) : Prop :=
  ∀ t, s.timer place = some t → s.Held place

end State

-- ========================================================== held and wound

namespace State

theorem held_iff : s.Held place ↔ ∃ client patterns bound,
    s.Leases place client patterns bound := by
  constructor
  · rintro ⟨p, hp, hacq⟩
    obtain ⟨client, hh⟩ := Option.isSome_iff_exists.1 hacq
    exact ⟨client, _, _, p, hp, hh, rfl, rfl⟩
  · rintro ⟨client, -, -, p, hp, hh, -⟩
    exact ⟨p, hp, Option.isSome_iff_exists.2 ⟨client, hh⟩⟩

theorem held_congr (h : s'.places.entries.get? place
    = s.places.entries.get? place) : s'.Held place ↔ s.Held place := by
  unfold Held
  rw [h]

namespace Subsides

theorem refl (s : State) (place : String) : s.Subsides s place :=
  Or.inl ⟨Iff.rfl, rfl⟩

theorem of_same (hp : s'.places.entries.get? place
      = s.places.entries.get? place)
    (ht : s'.timer place = s.timer place) : s.Subsides s' place :=
  Or.inl ⟨held_congr hp, ht⟩

theorem trans (h : s.Subsides s' place) (h' : s'.Subsides s'' place) :
    s.Subsides s'' place := by
  obtain ⟨hheld, htimer⟩ | ⟨hwas, hnot, hstop⟩ := h
  · obtain ⟨hheld', htimer'⟩ | ⟨hwas', hnot', hstop'⟩ := h'
    · exact Or.inl ⟨hheld'.trans hheld, htimer'.trans htimer⟩
    · exact Or.inr ⟨hheld.1 hwas', hnot', hstop'⟩
  · obtain ⟨hheld', htimer'⟩ | ⟨hwas', -, -⟩ := h'
    · exact Or.inr ⟨hwas, mt hheld'.1 hnot, htimer'.trans hstop⟩
    · exact absurd hwas' hnot

theorem held_was (h : s.Subsides s' place) (hheld : s'.Held place) :
    s.Held place := by
  obtain ⟨hiff, -⟩ | ⟨hwas, -, -⟩ := h
  · exact hiff.1 hheld
  · exact hwas

/-- Whatever was noted of a place that is still held still is. -/
theorem timer_eq (h : s.Subsides s' place) (hheld : s'.Held place) :
    s'.timer place = s.timer place := by
  obtain ⟨-, ht⟩ | ⟨-, hnot, -⟩ := h
  · exact ht
  · exact absurd hheld hnot

end Subsides

end State

-- ================================================================== moves

/-- Only an acquisition gives a place to somebody. -/
theorem Move.held_was (hm : Move k l s l' s')
    (hk : ∀ client, k ≠ .acquire place client) (hheld : s'.Held place) :
    s.Held place := by
  have hsame : ∀ t : State, s'.places = t.places → t.places = s.places →
      s.Held place := by
    intro t ht ht'
    exact (State.held_congr (by rw [ht, ht'])).1 hheld
  -- another place is put in, or one that is free
  have hput : ∀ (name : String) (q : Place),
      s'.places = ⟨s.places.entries.insert name q⟩ →
      (name = place → q.isAcquired = true → s.Held place) →
      s.Held place := by
    intro name q hplaces hnew
    obtain ⟨p, hp, hacq⟩ := hheld
    rw [hplaces, Table.get?_insert] at hp
    split at hp
    · next heq =>
      cases hp
      exact hnew heq hacq
    · exact ⟨p, hp, hacq⟩
  cases hm with
  | aside | heard | join | poll => exact hsame s rfl rfl
  | rescan => exact hsame s (State.rescan_places _ _ _) rfl
  | restock | leave | reserve | cancel | expire | forget =>
    exact hsame _ (State.emitAll_places _ _) rfl
  | @vacate _ _ name _ _ _ _ _ q held _ hq hheld' _ hr =>
    obtain ⟨q', -, hq', -, -, -, hplaces⟩ := Places.release_ok hr
    refine hput name _ ((State.emitAll_places _ _).trans hplaces) ?_
    rintro - hacq
    cases hacq
  | create hc =>
    obtain ⟨-, hnew, hplaces⟩ := Places.create_ok hc
    refine hput _ _ ((State.emitAll_places _ _).trans hplaces) ?_
    rintro - hacq
    simp [hnew, Place.isAcquired, Place.new] at hacq
  | @revise _ _ name q q' hq hr =>
    refine hput name q' (State.emitAll_places _ _) ?_
    rintro rfl hacq
    refine ⟨q, hq, ?_⟩
    rw [Place.isAcquired, ← hr.holder]
    exact hacq
  | @delete _ _ name _ hd =>
    obtain ⟨q, -, -, hplaces⟩ := Places.delete_ok hd
    obtain ⟨p, hp, hacq⟩ := hheld
    rw [State.emitAll_places, show _ = _ from hplaces,
      Table.get?_erase] at hp
    split at hp
    · cases hp
    · exact ⟨p, hp, hacq⟩
  | @acquire _ _ name _ _ client _ _ ha =>
    obtain ⟨q, -, -, -, -, hplaces⟩ := Places.acquire_ok ha
    refine hput name _ ((State.emitAll_places _ _).trans hplaces) ?_
    rintro rfl -
    exact absurd rfl (hk client)

theorem Moves.held_was (hm : Moves kinds l s l' s')
    (hk : ∀ client, ¬ kinds (.acquire place client))
    (hheld : s'.Held place) : s.Held place := by
  induction hm with
  | refl => exact hheld
  | tail _ hkind step ih =>
    exact ih (step.held_was (fun client heq => hk client (heq ▸ hkind))
      hheld)

/-- The timer of a place stops when the place is taken back. -/
theorem Move.timer_eq (hm : Move k l s l' s') (haside : k ≠ .aside)
    (hk : ∀ held, k ≠ .vacate place held) :
    s'.timer place = s.timer place := by
  have hemit : ∀ (t : State) (cs : List Change), s' = t.emitAll cs →
      t.incompleteSince = s.incompleteSince →
      s'.timer place = s.timer place := by
    intro t cs hs ht
    unfold State.timer
    rw [hs, State.emitAll_incompleteSince, ht]
  cases hm with
  | aside => exact absurd rfl haside
  | heard | join | poll => rfl
  | rescan => exact hemit _ _ rfl rfl
  | @vacate _ _ name _ _ _ _ _ _ held =>
    have hne : name ≠ place := fun heq => hk held (heq ▸ rfl)
    show (State.vacated _ name _ _).incompleteSince.get? place = _
    unfold State.vacated
    rw [State.emitAll_incompleteSince]
    exact (Table.get?_erase ..).trans (if_neg hne)
  | restock | leave | create | revise | delete | acquire | reserve
  | cancel | expire | forget => exact hemit _ _ rfl rfl

/-- What is taken back is free, and its timer is stopped. -/
theorem Move.vacates {held : Holder}
    (hm : Move (.vacate place held) l s l' s') :
    s.Held place ∧ ¬ s'.Held place ∧ s'.timer place = none := by
  cases hm with
  | @vacate _ _ _ _ _ _ _ places p _ _ hp hh _ hr =>
    obtain ⟨q, -, -, -, -, -, rfl⟩ := Places.release_ok hr
    refine ⟨⟨p, hp, Option.isSome_iff_exists.2 ⟨held, hh⟩⟩, ?_, ?_⟩
    · rintro ⟨q', hq', hacq⟩
      unfold State.vacated at hq'
      rw [State.emitAll_places] at hq'
      cases ((Table.get?_insert ..).trans (if_pos rfl)).symm.trans hq'
      cases hacq
    · unfold State.timer State.vacated
      rw [State.emitAll_incompleteSince]
      exact (Table.get?_erase ..).trans (if_pos rfl)

theorem Move.subsides (hm : Move k l s l' s') (haside : k ≠ .aside)
    (hk : ∀ client, k ≠ .acquire place client) :
    s.Subsides s' place := by
  by_cases hv : ∃ held, k = .vacate place held
  · obtain ⟨held, rfl⟩ := hv
    exact Or.inr hm.vacates
  · push Not at hv
    refine Or.inl ⟨⟨hm.held_was hk, fun hheld => ?_⟩,
      hm.timer_eq haside hv⟩
    obtain ⟨client, patterns, bound, hl⟩ := State.held_iff.1 hheld
    exact State.held_iff.2 ⟨_, _, _, hm.leases (hv client) hl⟩

theorem Moves.timer_eq (hm : Moves kinds l s l' s')
    (haside : ¬ kinds .aside) (hk : ∀ held, ¬ kinds (.vacate place held)) :
    s'.timer place = s.timer place := by
  induction hm with
  | refl => rfl
  | tail _ hkind step ih =>
    refine (step.timer_eq ?_ ?_).trans ih
    · exact fun heq => haside (heq ▸ hkind)
    · exact fun held heq => hk held (heq ▸ hkind)

theorem Moves.subsides (hm : Moves kinds l s l' s')
    (haside : ¬ kinds .aside)
    (hk : ∀ client, ¬ kinds (.acquire place client)) :
    s.Subsides s' place := by
  induction hm with
  | refl => exact .refl _ _
  | tail _ hkind step ih =>
    refine ih.trans (step.subsides ?_ ?_)
    · exact fun heq => haside (heq ▸ hkind)
    · exact fun client heq => hk client (heq ▸ hkind)

-- ================================================================== calls

/-- After a call that is no sweep, a timer runs for whatever is held if it
has run before. -/
def State.Winds (s s' : State) (place : String) : Prop :=
  (s'.Held place → s'.timer place = s.timer place)
    ∧ (¬ s'.Held place → s'.timer place = none)

namespace State

theorem Subsides.winds (h : s.Subsides s' place) (hw : s.Wound place) :
    s.Winds s' place := by
  refine ⟨h.timer_eq, fun hnot => ?_⟩
  obtain ⟨hiff, heq⟩ | ⟨-, -, hstop⟩ := h
  · rw [heq]
    exact Option.eq_none_iff_forall_ne_some.2 fun t ht =>
      hnot (hiff.2 (hw t ht))
  · exact hstop

theorem Winds.wound (h : s.Winds s' place) : s'.Wound place := by
  intro t ht
  by_contra hnot
  rw [h.2 hnot] at ht
  cases ht

/-- A session that ends gives its places back. -/
theorem endSession_subsides (h : Sound none s) (x : SessionId)
    (now : Moment) : s.Subsides (s.endSession x now) place := by
  have hm : Moves (Departure x now) none s none (s.endSession x now) :=
    .of_endSession h x now fun _ hk => hk
  exact hm.subsides nofun fun _ => nofun

theorem evict_subsides (h : Sound none s) (x : SessionId)
    (now : Moment) : s.Subsides (s.evict x now) place := by
  unfold evict
  split
  · have hcount : Sound none (State.notify { s with
        evictions := s.evictions + 1 } x "heartbeat timeout") :=
      h.move (.aside _ s.incompleteSince _)
    exact (Subsides.of_same rfl rfl).trans
      (endSession_subsides hcount x now)
  · exact .refl _ _

/-- Up to the inspection of the places a sweep only takes places back. -/
theorem inspected_subsides (h : Sound none s) (now : Moment) :
    s.Subsides (s.inspected now) place := by
  have hloop : ∀ (ids : List SessionId) (t : State), Sound none t →
      t.Subsides (ids.foldl (fun s x => s.evict x now) t) place := by
    intro ids
    induction ids with
    | nil => exact fun t _ => .refl t place
    | cons x ids ih =>
      intro t ht
      have hm : Moves (fun _ => True) none t none (t.evict x now) :=
        .evict ht now trivial fun _ _ => trivial
      exact (evict_subsides ht x now).trans (ih _ (ht.moves hm))
  have hcheck : Moves (fun k => k = .expire now ∨ k = .rescan now) none
      (s.evictSilent now) none (s.inspected now) :=
    .expireReservations none _ now (Or.inr rfl) (Or.inl rfl)
  exact (hloop _ s h).trans (hcheck.subsides (by simp) (by simp))

end State

namespace Sound

theorem register_subsides (h : Sound none s) (name : String) (role : Role)
    (now : Moment) :
    s.Subsides (s.step (.register name role now)) place := by
  have hclear : s.Subsides (s.cleared name now) place := by
    unfold State.cleared
    split
    · exact .refl _ _
    · next old _ =>
      have hnote : Sound none
          (s.notify old.id "replaced by a new session") :=
        h.move (.aside _ s.incompleteSince s.evictions)
      exact (State.Subsides.of_same rfl rfl).trans
        (State.endSession_subsides hnote old.id now)
  unfold State.step
  dsimp only
  rw [Action.register_apply]
  cases (s.cleared name now).roster.register name role now with
  | error e => exact hclear
  | ok out => exact hclear.trans (.of_same rfl rfl)

/-- An acquisition starts no timer and takes no place back. -/
theorem acquire_winds (h : Sound none s) (hw : s.Wound place)
    (session : SessionId) (name : String) (now : Moment) :
    s.Winds (s.step (.execute session (.acquire name) now)) place := by
  have hm : Moves (Takes s (.execute session (.acquire name) now)) none s
      none (s.step (.execute session (.acquire name) now)) :=
    h.execute_moves session (.acquire name) now
  have haside : ¬ Takes s (.execute session (.acquire name) now) .aside := by
    rintro (_ | _ | _ | _ | ⟨-, ⟨⟩⟩)
  have hvacate : ∀ held, ¬ Takes s (.execute session (.acquire name) now)
      (.vacate place held) := by
    rintro held (_ | _ | _ | _ | ⟨-, ⟨⟩⟩)
  have htimer := hm.timer_eq haside hvacate
  refine ⟨fun _ => htimer, fun hnot => htimer.trans ?_⟩
  refine Option.eq_none_iff_forall_ne_some.2 fun t ht => hnot ?_
  obtain ⟨client, patterns, bound, hl⟩ := State.held_iff.1 (hw t ht)
  exact State.held_iff.2 ⟨_, _, _, hm.leases (hvacate client) hl⟩

theorem execute_winds (h : Sound none s) (hw : s.Wound place)
    (session : SessionId) (op : Operation) (now : Moment) :
    s.Winds (s.step (.execute session op now)) place := by
  by_cases hop : ∃ name, op = .acquire name
  · obtain ⟨name, rfl⟩ := hop
    exact h.acquire_winds hw session name now
  · have hm : Moves (Takes s (.execute session op now)) none s none
        (s.step (.execute session op now)) :=
      h.execute_moves session op now
    refine (hm.subsides ?_ ?_).winds hw
    · rintro (_ | _ | _ | _ | ⟨-, hserves⟩)
      cases hserves with
      | disconnect hd => cases hd
    · rintro client (_ | _ | _ | _ | ⟨-, hserves⟩)
      cases hserves with
      | disconnect hd => cases hd
      | acquire => exact hop ⟨_, rfl⟩

/-- What the calls do to timers, the sweeps apart. -/
theorem step_winds (h : Sound none s) (hw : s.Wound place)
    (hother : ∀ now, input ≠ .sweep now) :
    s.Winds (s.step input) place := by
  cases input with
  | register name role now =>
    exact (h.register_subsides name role now).winds hw
  | execute session op now => exact h.execute_winds hw session op now
  | disconnect session now =>
    have hm : Moves (Takes s (.disconnect session now)) none s none
        (s.step (.disconnect session now)) := h.disconnect_moves session now
    refine (hm.subsides ?_ ?_).winds hw
    · rintro (_ | _ | _ | _ | _ | ⟨⟨⟩⟩)
    · rintro client (_ | _ | _ | _ | _ | ⟨⟨⟩⟩)
  | sweep now => exact absurd rfl (hother now)
  | takeEvents => exact (State.Subsides.of_same rfl rfl).winds hw
  | takeNotices => exact (State.Subsides.of_same rfl rfl).winds hw

/-- What is held after a call was so before, or is acquired by it. -/
theorem step_held_was (h : Sound none s)
    (hheld : (s.step input).Held place) :
    s.Held place ∨ ∃ session t,
      input = .execute session (.acquire place) t := by
  rcases h.step_moves input with hm | hdrained
  · by_cases hacquires : ∃ client, Takes s input (.acquire place client)
    · obtain ⟨client, htakes⟩ := hacquires
      obtain ⟨t, rfl⟩ := htakes.asks
      exact Or.inr ⟨_, t, rfl⟩
    · exact Or.inl (hm.held_was (not_exists.1 hacquires) hheld)
  · rw [hdrained] at hheld
    exact Or.inl hheld

/-- A place that is free at first and held in the end is acquired in
between. -/
theorem run_acquires (h : Sound none s) (hfree : ¬ s.Held place)
    (hheld : (s.run inputs).Held place) :
    ∃ session t, .execute session (.acquire place) t ∈ inputs := by
  induction inputs generalizing s with
  | nil => exact absurd hheld hfree
  | cons input inputs ih =>
    by_cases hnext : (s.step input).Held place
    · obtain hwas | ⟨session, t, rfl⟩ := h.step_held_was hnext
      · exact absurd hwas hfree
      · exact ⟨session, t, List.mem_cons_self⟩
    · obtain ⟨session, t, hmem⟩ := ih (h.step input) hnext hheld
      exact ⟨session, t, List.mem_cons_of_mem input hmem⟩

end Sound

-- =============================================================== the loop

namespace State

/-- A release stops the timer of its place. -/
theorem releaseFrom_timer {held : Holder} (session : SessionId)
    (holder : Option Holder) (now : Moment)
    (hp : s.places.entries.get? place = some p)
    (hh : p.holder = some held) :
    (s.releaseFrom place session holder now).timer place = none := by
  unfold releaseFrom timer
  rw [Places.release_of_held session now.date hp hh]
  dsimp only
  rw [finishRelease_eq, rescan_incompleteSince]
  unfold vacated
  rw [emitAll_incompleteSince]
  exact (Table.get?_erase ..).trans (if_pos rfl)

/-- Of what is not due it is noted since when it has missed resources. -/
theorem checkOrphan_same (h : ¬ limit ≤ now.since
      ((s.incompleteSince.get? place).getD now.ticks)) :
    s.checkOrphan limit now place = { s with
      incompleteSince := s.incompleteSince.insert place
        ((s.incompleteSince.get? place).getD now.ticks) } := by
  unfold checkOrphan
  dsimp only
  rw [if_pos (Nat.not_le.1 h)]

/-- Whoever is due at its turn is taken back, and of whoever is not it is
noted since when it has missed resources. -/
theorem checkOrphan_timer {held : Holder} (limit : Nat) (now : Moment)
    (hp : s.places.entries.get? place = some p)
    (hh : p.holder = some held) :
    let since := (s.timer place).getD now.ticks
    let t := s.checkOrphan limit now place
    (limit ≤ now.since since → ¬ t.Held place ∧ t.timer place = none)
      ∧ (¬ limit ≤ now.since since →
        t.places.entries.get? place = some p
          ∧ t.timer place = some since) := by
  intro since t
  constructor
  · intro hdue
    obtain ⟨q, hq, hfree⟩ := checkOrphan_frees hp hh hdue
    constructor
    · rintro ⟨q', hq', hacq⟩
      cases hq.symm.trans hq'
      simp [Place.isAcquired, hfree] at hacq
    · have hlate : ¬ now.since
          ((s.incompleteSince.get? place).getD now.ticks) < limit :=
        Nat.not_lt.2 hdue
      show (s.checkOrphan limit now place).timer place = none
      unfold checkOrphan
      dsimp only
      rw [if_neg hlate, Places.get_eq_ok.2 hp]
      dsimp only
      rw [hh]
      exact releaseFrom_timer _ _ now hp hh
  · intro hearly
    have ht : t = _ := checkOrphan_same hearly
    rw [ht]
    exact ⟨hp, (Table.get?_insert ..).trans (if_pos rfl)⟩

/-- The turns of others change nothing about a place. -/
theorem checkOrphans_other (limit : Nat) (now : Moment)
    {names : List String} (hnot : place ∉ names) :
    let t := names.foldl (checkOrphan limit now) s
    t.places.entries.get? place = s.places.entries.get? place
      ∧ t.timer place = s.timer place := by
  induction names generalizing s with
  | nil => exact ⟨rfl, rfl⟩
  | cons name names ih =>
    rw [List.mem_cons, not_or] at hnot
    obtain ⟨hplaces, htimer⟩ := ih (s := s.checkOrphan limit now name)
      hnot.2
    rw [List.foldl_cons]
    exact ⟨hplaces.trans (get?_checkOrphan limit now hnot.1),
      htimer.trans (checkOrphan_incompleteSince limit now hnot.1)⟩

/-- What becomes of a place that is found to miss resources. -/
theorem releaseOrphans_of_mem (hf : s.places.Filed)
    (hlimit : s.settings.orphanLimit = some limit)
    (hmem : place ∈ s.incomplete) (now : Moment) :
    let since := (s.timer place).getD now.ticks
    let t := s.releaseOrphans now
    (limit ≤ now.since since → ¬ t.Held place ∧ t.timer place = none)
      ∧ (¬ limit ≤ now.since since →
        t.places.entries.get? place = s.places.entries.get? place
          ∧ t.timer place = some since) := by
  obtain ⟨p, hp, hmiss⟩ := (mem_incomplete hf).1 hmem
  obtain ⟨held, hh⟩ := Option.isSome_iff_exists.1
    (Bool.and_eq_true_iff.1 hmiss).1
  obtain ⟨before, after, hsplit⟩ := List.append_of_mem hmem
  have hnd := nodup_incomplete hf
  rw [hsplit, List.perm_middle.nodup_iff, List.nodup_cons,
    List.mem_append, not_or] at hnd
  let u : State := { s with
    incompleteSince := s.incompleteSince.filter fun name _ =>
      s.incomplete.contains name }
  -- the place keeps its timer until its turn, and its outcome after that
  obtain ⟨hplaces, htimer⟩ :=
    checkOrphans_other (s := u) limit now hnd.1.1
  obtain ⟨hdue, hearly⟩ := checkOrphan_timer limit now
    (hplaces.trans hp) hh
  obtain ⟨hplaces', htimer'⟩ := checkOrphans_other (s := checkOrphan limit
    now (before.foldl (checkOrphan limit now) u) place) limit now hnd.1.2
  have hsame : u.timer place = s.timer place := get?_keptTimers hmem
  have hloop : s.releaseOrphans now
      = (before ++ place :: after).foldl (checkOrphan limit now) u := by
    rw [releaseOrphans_eq hlimit, ← hsplit]
  rw [hloop, List.foldl_append, List.foldl_cons]
  rw [htimer, hsame] at hdue hearly
  intro since t
  refine ⟨fun h => ?_, fun h => ?_⟩
  · exact ⟨mt (held_congr hplaces').1 (hdue h).1, htimer'.trans (hdue h).2⟩
  · exact ⟨(hplaces'.trans (hearly h).1).trans hp.symm,
      htimer'.trans (hearly h).2⟩

/-- What misses nothing is left alone, and no timer runs for it. -/
theorem releaseOrphans_of_notMem
    (hlimit : s.settings.orphanLimit = some limit)
    (hnot : place ∉ s.incomplete) (now : Moment) :
    let t := s.releaseOrphans now
    t.places.entries.get? place = s.places.entries.get? place
      ∧ t.timer place = none := by
  have hother := checkOrphans_other (s := { s with
    incompleteSince := s.incompleteSince.filter fun name _ =>
      s.incomplete.contains name }) limit now hnot
  rw [releaseOrphans_eq hlimit]
  refine ⟨hother.1, hother.2.trans ?_⟩
  show (s.incompleteSince.filter _).get? place = none
  rw [Table.get?_filter]
  simp [hnot]

end State

-- =============================================================== a sweep

namespace State

/-- A sweep finds that a place misses resources. -/
def Misses (s : State) (now : Moment) (place : String) : Prop :=
  place ∈ (s.inspected now).incomplete

/-- A sweep takes a place back that was held when it looked at the
places. -/
def Reclaims (s : State) (now : Moment) (place : String) : Prop :=
  (s.inspected now).Held place ∧ ¬ (s.sweep now).Held place

instance : Decidable (s.Reclaims now place) :=
  inferInstanceAs (Decidable (_ ∧ ¬ _))

end State

namespace Sound

/-- What misses resources is held, and was so before the sweep. -/
theorem held_of_misses (h : Sound none s) (hm : s.Misses now place) :
    (s.inspected now).Held place ∧ s.Held place
      ∧ (s.inspected now).timer place = s.timer place := by
  have hseen := h.moves (Moves.inspected h now)
  obtain ⟨p, hp, hmiss⟩ := (State.mem_incomplete hseen.places).1 hm
  have hsub : s.Subsides (s.inspected now) place :=
    State.inspected_subsides h now
  have hheld : (s.inspected now).Held place :=
    ⟨p, hp, (Bool.and_eq_true_iff.1 hmiss).1⟩
  exact ⟨hheld, hsub.held_was hheld, hsub.timer_eq hheld⟩

/-- What a sweep does to a place that misses resources. -/
theorem sweep_of_misses (h : Sound none s)
    (hlimit : s.settings.orphanLimit = some limit)
    (hm : s.Misses now place) :
    let since := (s.timer place).getD now.ticks
    (limit ≤ now.since since →
        ¬ (s.sweep now).Held place ∧ (s.sweep now).timer place = none)
      ∧ (¬ limit ≤ now.since since → (s.sweep now).Held place
        ∧ (s.sweep now).timer place = some since) := by
  have hcourse := Moves.inspected h now
  obtain ⟨hheld, -, htimer⟩ := h.held_of_misses hm
  obtain ⟨hdue, hearly⟩ := State.releaseOrphans_of_mem
    (h.moves hcourse).places (hcourse.settings ▸ hlimit) hm now
  rw [htimer, ← State.sweep_eq] at hdue hearly
  exact ⟨hdue, fun hnot =>
    (hearly hnot).imp_left fun hsame => (State.held_congr hsame).2 hheld⟩

/-- What a sweep does to any other place. -/
theorem sweep_of_not_misses (h : Sound none s)
    (hlimit : s.settings.orphanLimit = some limit)
    (hm : ¬ s.Misses now place) :
    ((s.sweep now).Held place ↔ (s.inspected now).Held place)
      ∧ (s.sweep now).timer place = none := by
  have hcourse := Moves.inspected h now
  have hother := State.releaseOrphans_of_notMem
    (hcourse.settings ▸ hlimit) hm now
  exact hother.imp_left State.held_congr

/-- The loop of a sweep takes places back and changes none of the
others. -/
theorem sweep_places (h : Sound none s) (hheld : (s.sweep now).Held place) :
    (s.sweep now).places.entries.get? place
      = (s.inspected now).places.entries.get? place := by
  have hcourse := Moves.inspected h now
  cases hlimit : (s.inspected now).settings.orphanLimit with
  | none => rw [State.sweep_eq, State.releaseOrphans_none hlimit]
  | some limit =>
    by_cases hmiss : s.Misses now place
    · obtain ⟨hdue, hearly⟩ := State.releaseOrphans_of_mem
        (h.moves hcourse).places hlimit hmiss now
      exact (hearly fun hover => (hdue hover).1 hheld).1
    · exact (State.releaseOrphans_of_notMem hlimit hmiss now).1

theorem reclaims_iff (h : Sound none s) : s.Reclaims now place ↔
    ∃ limit, s.settings.orphanLimit = some limit
      ∧ s.Misses now place
      ∧ limit ≤ now.since ((s.timer place).getD now.ticks) := by
  constructor
  · rintro ⟨hheld, hfree⟩
    cases hlimit : s.settings.orphanLimit with
    | none =>
      have hsame := (Moves.inspected h now).settings
      rw [State.sweep_eq, State.releaseOrphans_none (hsame ▸ hlimit)] at hfree
      exact absurd hheld hfree
    | some limit =>
      by_cases hmiss : s.Misses now place
      · refine ⟨limit, rfl, hmiss, ?_⟩
        by_contra hearly
        exact hfree ((h.sweep_of_misses hlimit hmiss).2 hearly).1
      · have hsame := (h.sweep_of_not_misses hlimit hmiss).1
        exact absurd (hsame.2 hheld) hfree
  · rintro ⟨limit, hlimit, hmiss, hdue⟩
    exact ⟨(h.held_of_misses hmiss).1,
      ((h.sweep_of_misses hlimit hmiss).1 hdue).1⟩

/-- A place that a sweep takes back is free, nothing is bound to it, and
what was is free if it is still there. -/
theorem reclaimed_free (h : Sound none s) (hr : s.Reclaims now place) :
    ∃ p q, (s.inspected now).places.entries.get? place = some p
      ∧ (s.sweep now).places.entries.get? place = some q
      ∧ q.holder = none ∧ q.bound = []
      ∧ ∀ id ∈ p.bound, ∀ r, (s.sweep now).inventory.get? id = some r →
        r.acquired = false := by
  have hcourse := Moves.inspected h now
  have hseen := h.moves hcourse
  have hafter := h.moves (Moves.sweep h now)
  obtain ⟨limit, hlimit, hmiss, hdue⟩ := h.reclaims_iff.1 hr
  obtain ⟨p, hp, hview⟩ := (State.mem_incomplete hseen.places).1 hmiss
  obtain ⟨client, patterns, bound, hl⟩ := State.held_iff.1 hr.1
  obtain ⟨-, -, htimer⟩ := h.held_of_misses hmiss
  rw [← htimer] at hdue
  have hover : (s.inspected now).Overdue now place :=
    ⟨limit, p, hcourse.settings ▸ hlimit, hp, hview, hdue⟩
  obtain ⟨q, hq, hfree⟩ := (hseen.overdue_iff now hl).1 hover
  rw [← State.sweep_eq] at hq
  refine ⟨p, q, hp, hq, hfree,
    hafter.leased.exclusive.idle place q hq hfree, fun id hid r hget => ?_⟩
  rw [← Bool.not_eq_true, hafter.leased.flagged id r hget,
    Places.isBound_iff]
  rintro ⟨n, q', hq', hacq, hin⟩
  by_cases hn : n = place
  · subst hn
    exact hr.2 ⟨q', hq', hacq⟩
  · -- whoever else has it bound had it so before
    have hwas := h.sweep_places ⟨q', hq', hacq⟩
    rw [hq'] at hwas
    exact hseen.leased.exclusive.apart n place q' p hn hwas.symm hp id hin
      hid

end Sound

end LabLease.Coordinator
