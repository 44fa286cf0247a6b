/-
Runs of the coordinator: any calls in any order at any instants, what
each call is made of, and the invariant in every state that they reach.
-/
import LabLease.Proofs.Coordinator.Operations

namespace LabLease.Coordinator

/-- One call to the coordinator. The last two take out what is to be
sent. -/
inductive Input where
  | register (name : String) (role : Role) (now : Moment)
  | execute (session : SessionId) (op : Operation) (now : Moment)
  | disconnect (session : SessionId) (now : Moment)
  | sweep (now : Moment)
  | takeEvents
  | takeNotices

namespace State

/-- The state after a call. -/
def step (s : State) : Input → State
  | .register name role now =>
    ((Action.register name role now).apply s).2
  | .execute session op now =>
    ((Action.execute session op now).apply s).2
  | .disconnect session now =>
    ((Action.disconnect session now).apply s).2
  | .sweep now => s.sweep now
  | .takeEvents => { s with pending := [] }
  | .takeNotices => { s with notices := [] }

/-- The state after some calls in turn. -/
def run (s : State) (inputs : List Input) : State := inputs.foldl step s

@[simp] theorem run_nil (s : State) : s.run [] = s := rfl

@[simp] theorem run_cons (s : State) (input : Input)
    (inputs : List Input) :
    s.run (input :: inputs) = (s.step input).run inputs := rfl

/-- Calls can be cut in two at any point. -/
theorem run_append (s : State) (before after : List Input) :
    s.run (before ++ after) = (s.run before).run after :=
  List.foldl_append

end State

/-- Of some calls and one more each is the last or comes before it. -/
theorem snoc_eq_split {inputs before after : List Input}
    {input mid : Input}
    (h : inputs ++ [input] = before ++ mid :: after) :
    (after = [] ∧ before = inputs ∧ input = mid)
      ∨ ∃ rest, after = rest ++ [input]
        ∧ inputs = before ++ mid :: rest := by
  rcases List.eq_nil_or_concat after with rfl | ⟨rest, last, rfl⟩
  · obtain ⟨rfl, hinput⟩ := List.append_inj' h rfl
    exact Or.inl ⟨rfl, rfl, List.head_eq_of_cons_eq hinput⟩
  · rw [List.concat_eq_append, ← List.cons_append,
      ← List.append_assoc] at h
    obtain ⟨rfl, hinput⟩ := List.append_inj' h rfl
    cases hinput
    exact Or.inr ⟨rest, List.concat_eq_append, rfl⟩

/-- What may happen before somebody registers under a name. -/
inductive Clears (s : State) (name : String) (now : Moment) :
    Kind → Prop
  | aside : Clears s name now .aside
  | replace {old : Session} {k : Kind}
      (hn : s.roster.named? name = some old) (h : Departure old.id now k) :
    Clears s name now k

/-- The kinds of moves that a call may be made of. -/
inductive Takes (s : State) : Input → Kind → Prop
  | aside : Takes s .takeNotices .aside
  | clear {name : String} {role : Role} {now : Moment} {k : Kind}
      (h : Clears s name now k) : Takes s (.register name role now) k
  | join (name : String) (role : Role) (now : Moment)
      (session : SessionId) :
    Takes s (.register name role now) (.join session)
  | heard (session : SessionId) (op : Operation) (now : Moment) :
    Takes s (.execute session op now) (.heard session now)
  /-- Only an operation that is granted does more. -/
  | serve {session : SessionId} {op : Operation} {now : Moment}
      {reply : Reply} {k : Kind}
      (hok : ((Action.execute session op now).apply s).1 = .ok reply)
      (h : Serves session now s.settings op k) :
    Takes s (.execute session op now) k
  | disconnect {session : SessionId} {now : Moment} {k : Kind}
      (h : Departure session now k) : Takes s (.disconnect session now) k
  | sweep {now : Moment} {k : Kind} (h : Sweeps s now k) :
    Takes s (.sweep now) k

namespace Sound

variable {s : State}

/-- Whoever registers under a name that is taken ends the session that
has it. -/
theorem cleared_moves (h : Sound none s) (name : String)
    (now : Moment) :
    Moves (Clears s name now) none s none (s.cleared name now) := by
  unfold State.cleared
  cases hn : s.roster.named? name with
  | none => exact .refl
  | some old =>
    have hnote : Moves (Clears s name now) none s none
        (s.notify old.id "replaced by a new session") :=
      .single .aside (.aside _ s.incompleteSince s.evictions)
    exact hnote.trans (.of_endSession (h.moves hnote) old.id now
      fun _ => .replace hn)

/-- Room is made for the name even if the registration is refused then. -/
theorem register_moves (h : Sound none s) (name : String) (role : Role)
    (now : Moment) :
    Moves (Takes s (.register name role now)) none s none
      ((Action.register name role now).apply s).2 := by
  have hclear : Moves (Takes s (.register name role now)) none s none _ :=
    (h.cleared_moves name now).mono fun _ => .clear
  rw [Action.register_apply]
  cases hr : (s.cleared name now).roster.register name role now with
  | error e => exact hclear
  | ok out => exact hclear.tail (.join name role now out.1) (.join hr)

/-- A request that is refused for its session moves nothing, and one that
is refused later was heard. -/
theorem execute_moves (h : Sound none s) (session : SessionId)
    (op : Operation) (now : Moment) :
    Moves (Takes s (.execute session op now)) none s none
      ((Action.execute session op now).apply s).2 := by
  rcases Action.execute_outcome s session op now with
    ⟨e, -, he⟩ | ⟨roster, hr, ho⟩
  · rw [he]
    exact .refl
  · have hheard : Moves (Takes s (.execute session op now)) none s none
        { s with roster } :=
      .single (.heard session op now) (.heard hr)
    cases hout : (Action.execute session op now).apply s with
    | mk out s' =>
      rw [hout] at ho
      cases ho with
      | refused => exact hheard
      | done hg =>
        have hok := congrArg Prod.fst hout
        exact hheard.trans ((hg.moves (h.heard hr)).mono
          fun _ hk => .serve hok hk)

/-- A farewell of a session that is not live moves nothing. -/
theorem disconnect_moves (h : Sound none s) (session : SessionId)
    (now : Moment) :
    Moves (Takes s (.disconnect session now)) none s none
      ((Action.disconnect session now).apply s).2 := by
  rw [Action.disconnect_apply]
  cases s.roster.get session with
  | error e => exact .refl
  | ok o => exact .of_endSession h session now fun _ => .disconnect

/-- A call is a run of moves, or takes out the events. -/
theorem step_moves (h : Sound none s) (input : Input) :
    Moves (Takes s input) none s none (s.step input)
      ∨ s.step input = { s with pending := [] } := by
  cases input with
  | register name role now => exact Or.inl (h.register_moves name role now)
  | execute session op now =>
    exact Or.inl (h.execute_moves session op now)
  | disconnect session now => exact Or.inl (h.disconnect_moves session now)
  | sweep now =>
    exact Or.inl ((Moves.sweep h now).mono fun _ => .sweep)
  | takeEvents => exact Or.inr rfl
  | takeNotices =>
    exact Or.inl (.single .aside
      (.aside [] s.incompleteSince s.evictions))

/-- One call keeps the invariant, by the moves that it is made of. -/
theorem step (h : Sound none s) (input : Input) :
    Sound none (s.step input) := by
  rcases h.step_moves input with hm | hdrained
  · exact h.moves hm
  · rw [hdrained]
    exact ⟨h.inventory, h.places, h.queue, h.leased, h.allotted,
      h.attended⟩

/-- And so does any number of calls. -/
theorem run (h : Sound none s) (inputs : List Input) :
    Sound none (s.run inputs) := by
  induction inputs generalizing s with
  | nil => exact h
  | cons input inputs ih => exact ih (h.step input)

/-- The invariant holds in every state that is reached from the start. -/
theorem reached (settings : Settings) (inputs : List Input) :
    Sound none ((State.new settings).run inputs) :=
  (Sound.new settings).run inputs

end Sound

end LabLease.Coordinator
