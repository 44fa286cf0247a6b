/-
When a sweep takes a place back that misses resources: after it has
missed some in every sweep for as long as the limit says.

# Series

A series is a run of sweeps each of which finds that the place misses
resources, while it is held throughout. What a call does to the longest
series is what it does to the timer: a sweep begins one or prolongs it,
and whatever takes the place back breaks it (`Sound.tells_step`,
`Sound.tells_sweep`). So the timer tells when the longest series has
begun, and the sweep that goes by the timer goes by the series.
-/
import LabLease.Proofs.Coordinator.Timers
import Mathlib.Data.List.Induction

namespace LabLease.Coordinator

-- ================================================================= series

/-- An unbroken series of sweeps, the first of them made in the state `s`
and followed by some calls: each sweep finds that the place misses
resources, and in between the place is always held. -/
inductive State.Series (s : State) (place : String) (first : Moment) :
    List Input → Prop
  | begins (h : s.Misses first place) : Series s place first []
  | goesOn {after : List Input} {input : Input}
      (h : Series s place first after)
      (hheld : (s.run (.sweep first :: after)).Held place)
      (hmiss : ∀ now, input = .sweep now →
        (s.run (.sweep first :: after)).Misses now place) :
    Series s place first (after ++ [input])

/-- The longest series that some calls end with, by the instant of its
first sweep. -/
def State.Longest (s : State) (place : String) (inputs : List Input)
    (first : Moment) : Prop :=
  ∃ before after, inputs = before ++ .sweep first :: after
    ∧ (s.run before).Series place first after
    ∧ ∀ before' first' after',
      inputs = before' ++ .sweep first' :: after' →
      (s.run before').Series place first' after' →
        before.length ≤ before'.length

variable {s start : State} {place : String} {inputs after : List Input}
  {input : Input} {now first first' : Moment} {limit : Nat}

namespace State

namespace Series

theorem of_snoc (h : s.Series place first (after ++ [input])) :
    s.Series place first after
      ∧ (s.run (.sweep first :: after)).Held place
      ∧ ∀ now, input = .sweep now →
        (s.run (.sweep first :: after)).Misses now place := by
  generalize hcalls : after ++ [input] = calls at h
  cases h with
  | begins => simp at hcalls
  | goesOn h hheld hmiss =>
    obtain ⟨rfl, hinput⟩ := List.append_inj' hcalls rfl
    cases hinput
    exact ⟨h, hheld, hmiss⟩

theorem misses (h : s.Series place first after) :
    s.Misses first place := by
  induction h with
  | begins h => exact h
  | goesOn _ _ _ ih => exact ih

/-- The place is held before every call that comes after the first. -/
theorem held {mid rest : List Input}
    (h : s.Series place first (mid ++ input :: rest)) :
    (s.run (.sweep first :: mid)).Held place := by
  induction rest using List.reverseRecOn with
  | nil => exact h.of_snoc.2.1
  | append_singleton rest last ih =>
    rw [← List.cons_append, ← List.append_assoc] at h
    exact ih h.of_snoc.1

end Series

namespace Longest

theorem unique (h : start.Longest place inputs first)
    (h' : start.Longest place inputs first') : first = first' := by
  obtain ⟨before, after, heq, hseries, hleast⟩ := h
  obtain ⟨before', after', heq', hseries', hleast'⟩ := h'
  have hlength := Nat.le_antisymm (hleast _ _ _ heq' hseries')
    (hleast' _ _ _ heq hseries)
  obtain ⟨-, hrest⟩ := List.append_inj (heq.symm.trans heq') hlength
  cases hrest
  rfl

/-- If there is any series, there is a longest. -/
theorem of_series {before : List Input}
    (heq : inputs = before ++ .sweep first :: after)
    (h : (start.run before).Series place first after) :
    ∃ first', start.Longest place inputs first' := by
  induction hn : before.length using Nat.strongRecOn
    generalizing before first after with
  | ind n ih =>
    by_cases hlonger : ∃ before' first' after',
        inputs = before' ++ .sweep first' :: after'
          ∧ (start.run before').Series place first' after'
          ∧ before'.length < before.length
    · obtain ⟨before', first', after', heq', h', hlt⟩ := hlonger
      exact ih before'.length (hn ▸ hlt) heq' h' rfl
    · refine ⟨first, before, after, heq, h, fun _ _ _ heq' h' => ?_⟩
      exact Nat.le_of_not_lt fun hlt => hlonger ⟨_, _, _, heq', h', hlt⟩

/-- One more call that does not break the series. -/
theorem snoc (h : start.Longest place inputs first)
    (hheld : (start.run inputs).Held place)
    (hmiss : ∀ now, input = .sweep now →
      (start.run inputs).Misses now place) :
    start.Longest place (inputs ++ [input]) first := by
  obtain ⟨before, after, rfl, hseries, hleast⟩ := h
  have hrun : start.run (before ++ .sweep first :: after)
      = (start.run before).run (.sweep first :: after) :=
    run_append _ _ _
  rw [hrun] at hheld hmiss
  refine ⟨before, after ++ [input], by simp,
    .goesOn hseries hheld hmiss, ?_⟩
  intro before' first' after' heq hseries'
  obtain ⟨-, rfl, -⟩ | ⟨rest, rfl, heq'⟩ := snoc_eq_split heq
  · rw [List.length_append]
    exact Nat.le_add_right _ _
  · exact hleast before' first' rest heq' hseries'.of_snoc.1

/-- A sweep with which a series begins. -/
theorem begins (hmiss : (start.run inputs).Misses now place)
    (hnone : (start.run inputs).Held place →
      ∀ first', ¬ start.Longest place inputs first') :
    start.Longest place (inputs ++ [.sweep now]) now := by
  refine ⟨inputs, [], rfl, .begins hmiss, ?_⟩
  intro before' first' after' heq hseries'
  obtain ⟨-, rfl, -⟩ | ⟨rest, rfl, rfl⟩ := snoc_eq_split heq
  · exact Nat.le_refl _
  · obtain ⟨hseries, hheld, -⟩ := hseries'.of_snoc
    obtain ⟨first, hlongest⟩ := of_series rfl hseries
    rw [← run_append] at hheld
    exact absurd hlongest (hnone hheld first)

/-- The last call takes its part in the series, or is its beginning. -/
theorem of_snoc (h : start.Longest place (inputs ++ [input]) first) :
    ((start.run inputs).Held place
        ∧ start.Longest place inputs first
        ∧ ∀ now, input = .sweep now →
          (start.run inputs).Misses now place)
      ∨ (input = .sweep first ∧ (start.run inputs).Misses first place) := by
  obtain ⟨before, after, heq, hseries, hleast⟩ := h
  obtain ⟨-, rfl, rfl⟩ | ⟨rest, rfl, rfl⟩ := snoc_eq_split heq
  · exact Or.inr ⟨rfl, hseries.misses⟩
  · obtain ⟨hrest, hheld, hmiss⟩ := hseries.of_snoc
    rw [← run_append] at hheld hmiss
    refine Or.inl ⟨hheld, ⟨before, rest, rfl, hrest, ?_⟩, hmiss⟩
    intro before' first' after' heq' hseries'
    -- a longer series would be broken by the last call if at all
    rw [heq', run_append] at hheld hmiss
    refine hleast before' first' (after' ++ [input]) ?_
      (.goesOn hseries' hheld hmiss)
    rw [heq']
    simp

theorem misses (h : start.Longest place (inputs ++ [.sweep now]) first) :
    (start.run inputs).Misses now place := by
  obtain ⟨-, -, hmiss⟩ | ⟨heq, hmiss⟩ := h.of_snoc
  · exact hmiss now rfl
  · cases heq
    exact hmiss

end Longest

end State

-- =================================================================== runs

/-- The timer of a place says when the longest series has begun that the
calls so far end with, if the place is held. -/
def State.Tells (start : State) (inputs : List Input) (place : String) :
    Prop :=
  ∀ t, (start.run inputs).timer place = some t ↔
    (start.run inputs).Held place
      ∧ ∃ first, start.Longest place inputs first ∧ first.ticks = t

/-- A sweep that finds resources missing goes by the longest series that
ends with it. -/
theorem State.Tells.longest (h : start.Tells inputs place)
    (hheld : (start.run inputs).Held place)
    (hmiss : (start.run inputs).Misses now place) :
    ∃ first, start.Longest place (inputs ++ [.sweep now]) first
      ∧ first.ticks
        = ((start.run inputs).timer place).getD now.ticks := by
  cases htimer : (start.run inputs).timer place with
  | some t =>
    obtain ⟨-, first, hlongest, hticks⟩ := (h t).1 htimer
    refine ⟨first, hlongest.snoc hheld ?_, hticks⟩
    rintro now' ⟨⟩
    exact hmiss
  | none =>
    refine ⟨now, .begins hmiss fun _ first' hlongest => ?_, rfl⟩
    have hsome := (h first'.ticks).2 ⟨hheld, first', hlongest, rfl⟩
    rw [htimer] at hsome
    cases hsome

namespace Sound

/-- A call that is no sweep neither begins nor prolongs a series, and
breaks it if it takes the place back. -/
theorem tells_step (h : Sound none (start.run inputs))
    (htells : start.Tells inputs place)
    (hother : ∀ now, input ≠ .sweep now) :
    start.Tells (inputs ++ [input]) place := by
  have hw : (start.run inputs).Wound place := fun t ht => ((htells t).1 ht).1
  have hwinds : (start.run inputs).Winds (start.run (inputs ++ [input]))
      place := by
    rw [State.run_append]
    exact h.step_winds hw hother
  intro t
  constructor
  · intro ht
    have hheld := hwinds.wound t ht
    rw [hwinds.1 hheld] at ht
    obtain ⟨hwas, first, hlongest, hticks⟩ := (htells t).1 ht
    refine ⟨hheld, first, hlongest.snoc hwas ?_, hticks⟩
    exact fun now hsweep => absurd hsweep (hother now)
  · rintro ⟨hheld, first, hlongest, hticks⟩
    rw [hwinds.1 hheld]
    obtain ⟨hwas, hlongest', -⟩ | ⟨hsweep, -⟩ := hlongest.of_snoc
    · exact (htells t).2 ⟨hwas, first, hlongest', hticks⟩
    · exact absurd hsweep (hother first)

theorem tells_sweep (h : Sound none (start.run inputs))
    (hlimit : (start.run inputs).settings.orphanLimit = some limit)
    (htells : start.Tells inputs place) (now : Moment) :
    start.Tells (inputs ++ [.sweep now]) place := by
  have hrun : start.run (inputs ++ [.sweep now])
      = (start.run inputs).sweep now := State.run_append _ _ _
  intro t
  rw [hrun]
  by_cases hmiss : (start.run inputs).Misses now place
  · obtain ⟨-, hwas, -⟩ := h.held_of_misses hmiss
    obtain ⟨hdue, hearly⟩ := h.sweep_of_misses hlimit hmiss
    obtain ⟨first, hlongest, hticks⟩ := htells.longest hwas hmiss
    by_cases hover : limit ≤ now.since
        (((start.run inputs).timer place).getD now.ticks)
    · obtain ⟨hfree, hstop⟩ := hdue hover
      rw [hstop]
      exact ⟨nofun, fun hheld => absurd hheld.1 hfree⟩
    · obtain ⟨hheld, hnoted⟩ := hearly hover
      rw [hnoted, ← hticks, Option.some_inj]
      constructor
      · intro ht
        exact ⟨hheld, first, hlongest, ht⟩
      · rintro ⟨-, first', hlongest', ht⟩
        rw [hlongest.unique hlongest', ht]
  · rw [(h.sweep_of_not_misses hlimit hmiss).2]
    refine ⟨nofun, ?_⟩
    rintro ⟨-, first, hlongest, -⟩
    exact absurd hlongest.misses hmiss

/-- What the timers say in every state, if places are released at all for
what they miss. -/
theorem run_tells (h : Sound none start)
    (hstart : start.timer place = none)
    (hlimit : start.settings.orphanLimit = some limit)
    (inputs : List Input) : start.Tells inputs place := by
  induction inputs using List.reverseRecOn with
  | nil =>
    intro t
    rw [State.run_nil, hstart]
    refine ⟨nofun, ?_⟩
    rintro ⟨-, first, ⟨before, after, heq, -⟩, -⟩
    simp at heq
  | append_singleton inputs input ih =>
    have hsound := h.run inputs
    by_cases hsweep : ∃ now, input = .sweep now
    · obtain ⟨now, rfl⟩ := hsweep
      have hsame : (start.run inputs).settings.orphanLimit = some limit := by
        rw [h.run_settings inputs, hlimit]
      exact hsound.tells_sweep hsame ih now
    · exact hsound.tells_step ih fun now heq => hsweep ⟨now, heq⟩

/-- No series goes on over a sweep that takes the place back: those that
end later have begun after another acquisition. -/
theorem longest_afresh (h : Sound none start) {later : List Input}
    {last : Input}
    (hr : (start.run inputs).Reclaims now place)
    (hlongest : start.Longest place
      (inputs ++ .sweep now :: (later ++ [last])) first) :
    ∃ pre post, later ++ [last] = pre ++ .sweep first :: post
      ∧ ∃ session t, .execute session (.acquire place) t ∈ pre := by
  obtain ⟨before, after, heq, hseries, -⟩ := hlongest
  have hrun : start.run (inputs ++ [.sweep now])
      = (start.run inputs).sweep now := State.run_append _ _ _
  have hfree : ¬ (start.run (inputs ++ [.sweep now])).Held place := by
    rw [hrun]
    exact hr.2
  rw [List.append_cons] at heq
  obtain ⟨mid, hbefore, hmid⟩ | ⟨mid, hinputs, hafter⟩ :=
    List.append_eq_append_iff.1 heq
  · -- the series begins after the sweep
    refine ⟨mid, after, hmid, ?_⟩
    have hheld := ((h.run before).held_of_misses hseries.misses).2.1
    rw [hbefore, State.run_append] at hheld
    exact (h.run _).run_acquires hfree hheld
  · cases mid with
    | nil =>
      refine ⟨[], after, hafter.symm, ?_⟩
      have hheld := ((h.run before).held_of_misses hseries.misses).2.1
      rw [List.append_nil] at hinputs
      exact absurd (hinputs ▸ hheld) hfree
    | cons input mid =>
      -- the sweep would be in the middle of it
      obtain ⟨rfl, rfl⟩ := List.cons_eq_cons.1 hafter
      obtain ⟨next, rest, hrest⟩ := List.exists_cons_of_ne_nil
        (List.append_ne_nil_of_right_ne_nil later (List.cons_ne_nil last []))
      rw [hrest] at hseries
      rw [hinputs, State.run_append] at hfree
      exact absurd hseries.held hfree

end Sound

/-- The timing of orphans. A sweep takes a place back that was held when
it looked at the places iff the time for which places may miss resources
is limited and, in the longest unbroken series of sweeps that ends with
this one, each of which found that the place misses resources while it
was held throughout, the first was at least that long ago. Then the place
is free and so is what was bound to it, no timer runs for it, and no
series that ends with a later sweep begins before the place has been
acquired again. -/
theorem orphans_timed (settings : Settings) (inputs : List Input)
    (now : Moment) (place : String) :
    let start := State.new settings
    let s := start.run inputs
    (s.Reclaims now place ↔ ∃ secs first,
        settings.orphanedPlaceReleaseSecs = some secs
          ∧ start.Longest place (inputs ++ [.sweep now]) first
          ∧ secs * 1000 ≤ now.ticks - first.ticks)
      ∧ (s.Reclaims now place →
        (∃ p q, (s.inspected now).places.entries.get? place = some p
          ∧ (s.sweep now).places.entries.get? place = some q
          ∧ q.holder = none ∧ q.bound = []
          ∧ ∀ id ∈ p.bound, ∀ r,
            (s.sweep now).inventory.get? id = some r → r.acquired = false)
        ∧ (s.sweep now).timer place = none
        ∧ ∀ later now' first,
          start.Longest place
            (inputs ++ .sweep now :: (later ++ [.sweep now'])) first →
          ∃ pre post, later ++ [.sweep now'] = pre ++ .sweep first :: post
            ∧ ∃ session t, .execute session (.acquire place) t ∈ pre) := by
  intro start s
  have hstart : Sound none start := .new settings
  have h : Sound none s := .reached settings inputs
  have hset : s.settings = settings := hstart.run_settings inputs
  have hlimit : ∀ limit, s.settings.orphanLimit = some limit ↔
      ∃ secs, settings.orphanedPlaceReleaseSecs = some secs
        ∧ secs * 1000 = limit := by
    intro limit
    rw [hset]
    exact Option.map_eq_some_iff
  -- where places are released at all, the timers tell the series
  have hlongest : ∀ limit, s.settings.orphanLimit = some limit →
      s.Misses now place →
      ∃ first, start.Longest place (inputs ++ [.sweep now]) first
        ∧ first.ticks = (s.timer place).getD now.ticks := by
    intro limit hl hmiss
    have htells : start.Tells inputs place :=
      hstart.run_tells rfl (hset ▸ hl) inputs
    exact htells.longest (h.held_of_misses hmiss).2.1 hmiss
  refine ⟨?_, fun hr => ⟨h.reclaimed_free hr, ?_, fun later now' first =>
    hstart.longest_afresh hr⟩⟩
  · rw [h.reclaims_iff]
    constructor
    · rintro ⟨limit, hl, hmiss, hdue⟩
      obtain ⟨secs, hsecs, rfl⟩ := (hlimit limit).1 hl
      obtain ⟨first, hseries, hticks⟩ := hlongest _ hl hmiss
      exact ⟨secs, first, hsecs, hseries, hticks ▸ hdue⟩
    · rintro ⟨secs, first, hsecs, hseries, hdue⟩
      have hl := (hlimit _).2 ⟨secs, hsecs, rfl⟩
      have hmiss : s.Misses now place := hseries.misses
      obtain ⟨first', hseries', hticks⟩ := hlongest _ hl hmiss
      rw [hseries.unique hseries', hticks] at hdue
      exact ⟨_, hl, hmiss, hdue⟩
  · obtain ⟨limit, hl, hmiss, hdue⟩ := h.reclaims_iff.1 hr
    exact ((h.sweep_of_misses hl hmiss).1 hdue).2

/-- A client acquires a place, whose resource goes with its exporter. -/
def stranding : List Input :=
  let any : ResourcePattern := ⟨everything, everything, everything, none⟩
  let noon : Moment := ⟨0, ⟨2024, 1, 1, 12, 0, 0, 0⟩⟩
  [.register "bench" .exporter noon,
    .execute 1 (.setResources [⟨"io", "led", .sysfsGpio 7⟩]) noon,
    .register "alice" .client noon,
    .execute 2 (.createPlace "board" [any] .empty) noon,
    .execute 2 (.acquire "board") noon,
    .disconnect 1 noon]

/-- The third sweep comes a second after the first that has seen it, and
takes the place back. -/
theorem orphans_timed_stranding :
    let clock (ms : Nat) : Moment := ⟨ms, ⟨2024, 1, 1, 12, 0, 0, 0⟩⟩
    let start := State.new { orphanedPlaceReleaseSecs := some 1 }
    let inputs := stranding ++ [.sweep (clock 300), .sweep (clock 900)]
    (start.run inputs).Reclaims (clock 1300) "board"
      ∧ (∃ first, start.Longest "board" (inputs ++ [.sweep (clock 1300)])
          first ∧ 1000 ≤ 1300 - first.ticks)
      ∧ ((start.run inputs).sweep (clock 1300)).timer "board" = none
      ∧ ¬ (start.run inputs).Reclaims (clock 1299) "board" := by
  intro clock start inputs
  have hr : (start.run inputs).Reclaims (clock 1300) "board" := by
    decide +kernel +revert
  have hearly : ¬ (start.run inputs).Reclaims (clock 1299) "board" := by
    decide +kernel +revert
  obtain ⟨hiff, hafter⟩ := orphans_timed { orphanedPlaceReleaseSecs := some 1 }
    inputs (clock 1300) "board"
  obtain ⟨secs, first, hsecs, hlongest, hdue⟩ := hiff.1 hr
  cases hsecs
  exact ⟨hr, ⟨first, hlongest, hdue⟩, (hafter hr).2.1, hearly⟩

end LabLease.Coordinator
