/-
The log of a run: all changes that its calls append to the journal, and
what is known of them once each move is known.

# Records

A statement about a log is nearly always about the log beside the state
that was reached, such as "what is stored was reported last". `Carried P`
says that such a property survives from one state to another, with what
is emitted between added to the log, whatever the log was before. This is
closed under sequence, so a property that every move carries is carried
by every call and holds of the log of every run.

The log of a run is never shortened: the events of a call that are taken
out to be sent have been in the log since they were emitted.
-/
import LabLease.Proofs.Coordinator.Grace
import LabLease.Proofs.Coordinator.Stream

namespace LabLease.Coordinator

variable {kinds : Kind → Prop} {l l' : Option SessionId}
  {s s' s'' : State} {P : List Change → State → Prop}

-- =================================================================== logs

namespace State

/-- The changes that some calls in turn append to the journal. -/
def log (s : State) (inputs : List Input) : List Change :=
  (s.appendedAll inputs).map (·.change)

@[simp] theorem log_nil (s : State) : s.log [] = [] := rfl

theorem log_cons (s : State) (input : Input) (inputs : List Input) :
    s.log (input :: inputs)
      = s.emitted (s.step input) ++ (s.step input).log inputs :=
  List.map_append

theorem log_eq_calls (s : State) (inputs : List Input) :
    s.log inputs = (s.calls inputs).flatMap (·.changes) := by
  induction inputs generalizing s with
  | nil => rfl
  | cons input inputs ih =>
    rw [log_cons, ih]
    rfl

end State

/-- The journal is extended by the log, one event for each change. -/
theorem Sound.run_log (h : Sound none s) (inputs : List Input) :
    (s.run inputs).journal = s.journal.extend (s.log inputs) := by
  obtain ⟨cs, hj, hall, -⟩ := h.run_told inputs
  have hlog : s.log inputs = cs := by
    unfold State.log
    rw [hall, map_change_numbered]
  rw [hj, hlog]

-- ================================================================ records

/-- Whatever was logged before, a property of log and state survives what
is emitted between two states. -/
def Carried (P : List Change → State → Prop) (s s' : State) : Prop :=
  ∃ cs, Emits s s' cs ∧ ∀ log, P log s → P (log ++ cs) s'

namespace Carried

theorem refl (s : State) : Carried P s s :=
  ⟨[], .nil rfl, fun log hp => by rwa [List.append_nil]⟩

theorem trans (h : Carried P s s') (h' : Carried P s' s'') :
    Carried P s s'' := by
  obtain ⟨cs, hcs, hp⟩ := h
  obtain ⟨ds, hds, hp'⟩ := h'
  refine ⟨cs ++ ds, hcs.trans hds, fun log hlog => ?_⟩
  rw [← List.append_assoc]
  exact hp' _ (hp log hlog)

theorem emitted (h : Carried P s s') {log : List Change}
    (hp : P log s) : P (log ++ s.emitted s') s' := by
  obtain ⟨cs, hcs, hall⟩ := h
  rw [hcs.emitted_eq]
  exact hall log hp

end Carried

/-- What each of some moves carries they carry in a row. -/
theorem Moves.carried (hm : Moves kinds l s l' s') (h : Sound l s)
    (ht : Timed s)
    (hmove : ∀ {k : Kind} {l l' : Option SessionId} {s s' : State},
      kinds k → Sound l s → Timed s → Move k l s l' s' → Carried P s s') :
    Carried P s s' := by
  induction hm with
  | refl => exact .refl _
  | tail hrun hk step ih =>
    obtain ⟨htu, -⟩ := hrun.emits h ht
    exact (ih h ht).trans (hmove hk (h.moves hrun) htu step)

namespace Sound

theorem step_timed (h : Sound none s) (ht : Timed s) (input : Input) :
    Timed (s.step input) := by
  rcases h.step_moves input with hm | hdrained
  · exact (hm.emits h ht).1
  · rw [hdrained]
    exact ⟨ht.fresh, ht.grace⟩

theorem run_timed (h : Sound none s) (ht : Timed s)
    (inputs : List Input) : Timed (s.run inputs) := by
  induction inputs generalizing s with
  | nil => exact ht
  | cons input inputs ih => exact ih (h.step input) (h.step_timed ht input)

/-- What every call carries holds of the log of a run. -/
theorem run_carried
    (hstep : ∀ {s : State}, Sound none s → Timed s → ∀ input log,
      P log s → P (log ++ s.emitted (s.step input)) (s.step input))
    (h : Sound none s) (ht : Timed s) (inputs : List Input)
    {log : List Change} (hp : P log s) :
    P (log ++ s.log inputs) (s.run inputs) := by
  induction inputs generalizing s log with
  | nil =>
    rw [State.log_nil, List.append_nil]
    exact hp
  | cons input inputs ih =>
    rw [State.log_cons, ← List.append_assoc]
    exact ih (h.step input) (h.step_timed ht input)
      (hstep h ht input log hp)

/-- A call carries what its moves carry, if taking out the events to be
sent makes no difference. -/
theorem step_carried (h : Sound none s) (ht : Timed s) (input : Input)
    (hsent : ∀ log, P log s → P log { s with pending := [] })
    (hmove : ∀ {k : Kind} {l l' : Option SessionId} {s s' : State},
      Sound l s → Timed s → Move k l s l' s' → Carried P s s')
    {log : List Change} (hp : P log s) :
    P (log ++ s.emitted (s.step input)) (s.step input) := by
  rcases h.step_moves input with hm | hdrained
  · exact (hm.carried h ht fun _ => hmove).emitted hp
  · rw [hdrained, State.emitted_drained, List.append_nil]
    exact hsent log hp

end Sound

end LabLease.Coordinator
