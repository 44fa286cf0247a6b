/-
Who is live while the coordinator moves: a record stays, with its name,
its role and the time it was last heard, unless its session is heard or
leaves, and nobody comes in but by joining.

The lists in a record change with every lease and every publication.
Nothing here depends on them, so records are compared without them
(`Session.bare`).

# Last heard

The time in a record is state; `lastHeard` is read off the calls alone.
For a live session the two agree (`Sound.lastHeard_eq`), so what is said
about silence can be said about the calls.
-/
import LabLease.Proofs.Coordinator.Run

namespace LabLease

/-- A record without its lists. -/
def Session.bare (o : Session) : Session :=
  { o with resources := .empty, places := .empty }

namespace Roster

/-- The same sessions with the same records, but for what they list. -/
structure Same (r' r : Roster) : Prop where
  lastId : r'.lastId = r.lastId
  timeout : r'.timeout = r.timeout
  bare : ∀ i, (r'.sessions.get? i).map Session.bare
    = (r.sessions.get? i).map Session.bare

namespace Same

variable {r r' r'' : Roster} {i : SessionId} {o o' : Session}

/-- A roster that is left is the same. -/
theorem refl (r : Roster) : r.Same r := ⟨rfl, rfl, fun _ => rfl⟩

/-- What each of two changes keeps both of them keep. -/
theorem trans (h : r''.Same r') (h' : r'.Same r) : r''.Same r :=
  ⟨h.lastId.trans h'.lastId, h.timeout.trans h'.timeout,
    fun i => (h.bare i).trans (h'.bare i)⟩

/-- An edit of the lists in one record. -/
theorem edit (r : Roster) (session : SessionId) {f : Session → Session}
    (hf : ∀ o, (f o).bare = o.bare) : (r.edit session f).Same r := by
  refine ⟨rfl, rfl, fun i => ?_⟩
  unfold Roster.edit
  rw [Table.get?_adjust, Option.map_map]
  refine congrArg (fun g => (r.sessions.get? i).map g) (funext fun o => ?_)
  show (if i = session then f o else o).bare = o.bare
  split
  · exact hf o
  · rfl

/-- What a session offers is one of its lists. -/
theorem noteAll (r : Roster) (owner : SessionId)
    (changes : List ResourceChange) : (r.noteAll owner changes).Same r := by
  induction changes generalizing r with
  | nil => exact refl r
  | cons c changes ih =>
    refine (ih _).trans (edit r owner fun o => ?_)
    cases c <;> rfl

/-- What it holds is the other. -/
theorem vacated (r : Roster) (place : String) (holder : Option Holder) :
    (r.vacated place holder).Same r := by
  cases holder with
  | none => exact refl r
  | some o => exact edit r o.session fun _ => rfl

/-- A session that is live now was live then. -/
theorem was (h : r'.Same r) (ho : r'.sessions.get? i = some o') :
    ∃ o, r.sessions.get? i = some o ∧ o'.bare = o.bare := by
  have hbare := h.bare i
  rw [ho, Option.map_some] at hbare
  obtain ⟨o, ho, heq⟩ := Option.map_eq_some_iff.1 hbare.symm
  exact ⟨o, ho, heq.symm⟩

/-- And the other way round. -/
theorem stays (h : r'.Same r) (ho : r.sessions.get? i = some o) :
    ∃ o', r'.sessions.get? i = some o' ∧ o'.bare = o.bare := by
  have hbare := h.bare i
  rw [ho, Option.map_some] at hbare
  exact Option.map_eq_some_iff.1 hbare

end Same

end Roster

namespace Coordinator

/-- The kinds of moves in which a session registers or is heard. -/
inductive Greets (session : SessionId) : Kind → Prop
  | join : Greets session (.join session)
  | heard (now : Moment) : Greets session (.heard session now)

variable {k : Kind} {kinds : Kind → Prop} {l l' : Option SessionId}
  {s s' : State} {i : SessionId} {o o' : Session}

-- ============================================================== one move

/-- What a session leaves behind is noted in no record but its own, which
is gone. -/
theorem Move.roster_of_leave {session : SessionId}
    (hm : Move (.leave session) l s l' s') :
    s'.roster.Same (s.roster.remove session) := by
  cases hm
  unfold State.restocked
  rw [State.emitAll_roster]
  exact .noteAll _ _ _

/-- What a move does to the roster. -/
theorem Move.roster (hm : Move k l s l' s') :
    (∃ session now, k = .heard session now
        ∧ s.roster.heartbeat session now = .ok s'.roster)
      ∨ (∃ session name role now, k = .join session
        ∧ s.roster.register name role now = .ok (session, s'.roster))
      ∨ (∃ session, k = .leave session
        ∧ s'.roster.Same (s.roster.remove session))
      ∨ s'.roster.Same s.roster := by
  have hquiet : ∀ (t : State) (cs : List Change),
      t.roster.Same s.roster → (t.emitAll cs).roster.Same s.roster := by
    intro t cs ht
    rw [State.emitAll_roster]
    exact ht
  cases hm with
  | heard h => exact Or.inl ⟨_, _, rfl, h⟩
  | join h => exact Or.inr (Or.inl ⟨_, _, _, _, rfl, h⟩)
  | leave session =>
    exact Or.inr (Or.inr (Or.inl
      ⟨session, rfl, (Move.leave session).roster_of_leave⟩))
  | aside => exact Or.inr (Or.inr (Or.inr (.refl _)))
  | poll => exact Or.inr (Or.inr (Or.inr (.refl _)))
  | restock =>
    exact Or.inr (Or.inr (Or.inr (hquiet _ _ (.noteAll _ _ _))))
  | vacate holder =>
    exact Or.inr (Or.inr (Or.inr (hquiet _ _ (.vacated _ _ _))))
  | acquire =>
    exact Or.inr (Or.inr (Or.inr
      (hquiet _ _ (.edit _ _ fun _ => rfl))))
  | rescan | create | revise | delete | reserve | cancel | expire
  | forget =>
    exact Or.inr (Or.inr (Or.inr (hquiet _ _ (.refl _))))

/-- What is set about the coordinator never changes. -/
theorem Move.settings (hm : Move k l s l' s') :
    s'.settings = s.settings := by
  cases hm <;> first | rfl | exact State.emitAll_settings _ _

/-- How long a session may stay silent never changes. -/
theorem Move.timeout (hm : Move k l s l' s') :
    s'.roster.timeout = s.roster.timeout := by
  rcases hm.roster with ⟨_, _, -, h⟩ | ⟨_, _, _, _, -, h⟩ | ⟨_, -, h⟩ | h
  · obtain ⟨o, -, heq⟩ := Roster.heartbeat_ok h
    rw [heq]
  · obtain ⟨-, -, -, heq⟩ := Roster.register_ok h
    rw [heq]
  · exact h.timeout.trans (Roster.remove_timeout _ _)
  · exact h.timeout

/-- Numbers are given in order. -/
theorem Move.lastId (hm : Move k l s l' s') :
    s.roster.lastId ≤ s'.roster.lastId := by
  rcases hm.roster with ⟨_, _, -, h⟩ | ⟨_, _, _, _, -, h⟩ | ⟨_, -, h⟩ | h
  · obtain ⟨o, -, heq⟩ := Roster.heartbeat_ok h
    exact Nat.le_of_eq (congrArg Roster.lastId heq).symm
  · obtain ⟨-, -, hid, heq⟩ := Roster.register_ok h
    rw [heq]
    exact hid ▸ Nat.le_succ _
  · exact Nat.le_of_eq (h.lastId.trans (Roster.remove_lastId _ _)).symm
  · exact Nat.le_of_eq h.lastId.symm

/-- Whoever is live after a move was live before it, unless it has just
joined, and was not heard since, unless just now. -/
theorem Move.record_was (hm : Move k l s l' s') (hk : ¬ Greets i k)
    (ho' : s'.roster.sessions.get? i = some o') :
    ∃ o, s.roster.sessions.get? i = some o ∧ o'.bare = o.bare := by
  rcases hm.roster with ⟨x, now, rfl, h⟩ | ⟨x, _, _, _, rfl, h⟩
    | ⟨x, -, h⟩ | h
  · obtain ⟨o, -, heq⟩ := Roster.heartbeat_ok h
    have hne : x ≠ i := fun hx => hk (hx ▸ .heard now)
    rw [heq, Table.get?_insert, if_neg hne] at ho'
    exact ⟨o', ho', rfl⟩
  · obtain ⟨-, -, -, heq⟩ := Roster.register_ok h
    have hne : x ≠ i := fun hx => hk (hx ▸ .join)
    rw [heq, Table.get?_insert, if_neg hne] at ho'
    exact ⟨o', ho', rfl⟩
  · obtain ⟨o, ho, hbare⟩ := h.was ho'
    rw [Roster.get?_remove] at ho
    split at ho
    · cases ho
    · exact ⟨o, ho, hbare⟩
  · exact h.was ho'

-- ================================================================= moves

namespace Moves

/-- And so over a course of moves. -/
theorem settings (hm : Moves kinds l s l' s') :
    s'.settings = s.settings := by
  induction hm with
  | refl => rfl
  | tail _ _ step ih => exact step.settings.trans ih

/-- Nor over a course of moves. -/
theorem timeout (hm : Moves kinds l s l' s') :
    s'.roster.timeout = s.roster.timeout := by
  induction hm with
  | refl => rfl
  | tail _ _ step ih => exact step.timeout.trans ih

/-- Sessions that join later have later numbers. -/
theorem lastId (hm : Moves kinds l s l' s') :
    s.roster.lastId ≤ s'.roster.lastId := by
  induction hm with
  | refl => exact Nat.le_refl _
  | tail _ _ step ih => exact Nat.le_trans ih step.lastId

/-- Whoever has neither joined nor been heard on the way has the record
from its beginning. -/
theorem record_was (hm : Moves kinds l s l' s')
    (hk : ∀ k, kinds k → ¬ Greets i k)
    (ho' : s'.roster.sessions.get? i = some o') :
    ∃ o, s.roster.sessions.get? i = some o ∧ o'.bare = o.bare := by
  induction hm generalizing o' with
  | refl => exact ⟨o', ho', rfl⟩
  | tail _ hkind step ih =>
    obtain ⟨u, hu, hbare⟩ := step.record_was (hk _ hkind) ho'
    obtain ⟨o, ho, hbare'⟩ := ih hu
    exact ⟨o, ho, hbare.trans hbare'⟩

end Moves

-- ========================================================= who has ended

/-- Nobody joins or is heard while a session leaves. -/
theorem Departure.not_greets {session : SessionId} {now : Moment}
    (h : Departure session now k) : ¬ Greets i k := by
  cases h <;> exact nofun

/-- Making room for a name is a departure at most. -/
theorem Clears.not_greets {name : String} {now : Moment}
    (h : Clears s name now k) :
    ¬ Greets i k := by
  cases h with
  | aside => exact nofun
  | replace _ h => exact h.not_greets

/-- A request that is served begins with the sign of life, and has no
other in it. -/
theorem Serves.not_greets {session : SessionId} {now : Moment}
    {settings : Settings} {op : Operation}
    (h : Serves session now settings op k) :
    ¬ Greets i k := by
  cases h with
  | disconnect h => exact h.not_greets
  | _ => exact nofun

/-- A sweep hears nobody. -/
theorem Sweeps.not_greets {now : Moment} (h : Sweeps s now k) :
    ¬ Greets i k := by
  cases h with
  | evict _ h => exact h.not_greets
  | _ => exact nofun

namespace Sound

/-- What was set about the coordinator still is after any calls. -/
theorem run_settings (h : Sound none s) (inputs : List Input) :
    (s.run inputs).settings = s.settings := by
  induction inputs generalizing s with
  | nil => rfl
  | cons input inputs ih =>
    refine (ih (h.step input)).trans ?_
    rcases h.step_moves input with hm | hdrained
    · exact hm.settings
    · rw [hdrained]

/-- And so is how long a session may stay silent. -/
theorem run_timeout (h : Sound none s) (inputs : List Input) :
    (s.run inputs).roster.timeout = s.roster.timeout := by
  induction inputs generalizing s with
  | nil => rfl
  | cons input inputs ih =>
    refine (ih (h.step input)).trans ?_
    rcases h.step_moves input with hm | hdrained
    · exact hm.timeout
    · rw [hdrained]

end Sound

-- ============================================================= last heard

namespace State

/-- When a call lets a session be heard, if it does: by the registration
that the session comes from, or by asking for something. -/
def heardAt (s : State) (session : SessionId) : Input → Option Nat
  | .register name role now =>
    match ((Action.register name role now).apply s).1 with
    | .ok id => if id = session then some now.ticks else none
    | .error _ => none
  | .execute caller _ now =>
    if caller = session then some now.ticks else none
  | _ => none

/-- When a session was last heard in the course of some calls. -/
def lastHeard (s : State) (session : SessionId) : List Input → Option Nat
  | [] => none
  | input :: inputs =>
    ((s.step input).lastHeard session inputs).or (s.heardAt session input)

end State

namespace Sound

/-- The time of one whom nobody greets is the time it had. -/
theorem record_was {kinds : Kind → Prop} (hm : Moves kinds l s l' s')
    (hk : ∀ k, kinds k → ¬ Greets i k)
    (ho' : s'.roster.sessions.get? i = some o') :
    (s.roster.sessions.get? i).map (·.lastSeen) = some o'.lastSeen := by
  obtain ⟨o, ho, hbare⟩ := hm.record_was hk ho'
  rw [ho]
  exact congrArg (fun x => some x.lastSeen) hbare.symm

/-- A registration is heard of the session that it makes, and of no
other. -/
theorem register_heard (h : Sound none s) (name : String) (role : Role)
    (now : Moment)
    (ho' : (s.step (.register name role now)).roster.sessions.get? i
      = some o') :
    (s.heardAt i (.register name role now)).or
      ((s.roster.sessions.get? i).map (·.lastSeen)) = some o'.lastSeen := by
  have hclear := h.cleared_moves name now
  unfold State.step at ho'
  unfold State.heardAt
  dsimp only at ho' ⊢
  rw [Action.register_apply] at ho' ⊢
  cases hr : (s.cleared name now).roster.register name role now with
  | error e =>
    rw [hr] at ho'
    exact record_was hclear (fun _ hk => hk.not_greets) ho'
  | ok out =>
    obtain ⟨id, roster⟩ := out
    rw [hr] at ho'
    obtain ⟨-, -, -, rfl⟩ := Roster.register_ok hr
    dsimp only at ho' ⊢
    rw [Table.get?_insert] at ho'
    by_cases hid : id = i
    · rw [if_pos hid] at ho' ⊢
      cases ho'
      rfl
    · rw [if_neg hid] at ho' ⊢
      exact record_was hclear (fun _ hk => hk.not_greets) ho'

/-- A request is heard of the session that makes it, even if it is
refused then. -/
theorem execute_heard (h : Sound none s) (session : SessionId)
    (op : Operation) (now : Moment)
    (ho' : (s.step (.execute session op now)).roster.sessions.get? i
      = some o') :
    (s.heardAt i (.execute session op now)).or
      ((s.roster.sessions.get? i).map (·.lastSeen)) = some o'.lastSeen := by
  unfold State.step at ho'
  unfold State.heardAt
  dsimp only at ho' ⊢
  rcases Action.execute_outcome s session op now with
    ⟨e, hr, he⟩ | ⟨roster, hr, ho⟩
  · rw [he] at ho'
    by_cases hs : session = i
    · subst hs
      obtain ⟨r', hok⟩ := Roster.heartbeat_of_live ho' now
      rw [hr] at hok
      cases hok
    · rw [if_neg hs, ho']
      rfl
  · -- after the sign of life nothing changes the record any more
    have hrest : (roster.sessions.get? i).map (·.lastSeen)
        = some o'.lastSeen := by
      generalize (Action.execute session op now).apply s = out at ho ho'
      cases ho with
      | refused =>
        rw [show roster.sessions.get? i = some o' from ho']
        rfl
      | done hg =>
        exact record_was (hg.moves (h.heard hr))
          (fun _ hk => hk.not_greets) ho'
    obtain ⟨o, hget, rfl⟩ := Roster.heartbeat_ok hr
    rw [Table.get?_insert] at hrest
    by_cases hs : session = i
    · rw [if_pos hs] at hrest ⊢
      exact hrest
    · rw [if_neg hs] at hrest ⊢
      exact hrest

/-- The record of a session that is live after a call says when it was
last heard: at the call, or as it said before. -/
theorem step_heard (h : Sound none s) (input : Input)
    (ho' : (s.step input).roster.sessions.get? i = some o') :
    (s.heardAt i input).or ((s.roster.sessions.get? i).map (·.lastSeen))
      = some o'.lastSeen := by
  cases input with
  | register name role now => exact h.register_heard name role now ho'
  | execute session op now => exact h.execute_heard session op now ho'
  | disconnect session now =>
    unfold State.step at ho'
    dsimp only at ho'
    rw [Action.disconnect_apply] at ho'
    split at ho'
    · have hend : Moves (Departure session now) none s none _ :=
        .of_endSession h session now fun _ hk => hk
      exact record_was hend (fun _ hk => hk.not_greets) ho'
    · exact congrArg (Option.map _) ho'
  | sweep now =>
    exact record_was (Moves.sweep h now) (fun _ hk => hk.not_greets) ho'
  | takeEvents => exact congrArg (Option.map _) ho'
  | takeNotices => exact congrArg (Option.map _) ho'

/-- By induction over the calls: the last of them that says something is
what the record says. -/
theorem run_heard (h : Sound none s) (inputs : List Input)
    (ho' : (s.run inputs).roster.sessions.get? i = some o') :
    (s.lastHeard i inputs).or
      ((s.roster.sessions.get? i).map (·.lastSeen))
        = some o'.lastSeen := by
  induction inputs generalizing s with
  | nil => exact congrArg (Option.map _) ho'
  | cons input inputs ih =>
    have hrest := ih (h.step input) ho'
    unfold State.lastHeard
    rw [Option.or_assoc]
    cases hlater : (s.step input).lastHeard i inputs with
    | some t =>
      rw [hlater] at hrest
      exact hrest
    | none =>
      rw [hlater] at hrest
      obtain ⟨o, ho, hseen⟩ := Option.map_eq_some_iff.1 hrest
      rw [← hseen]
      exact h.step_heard input ho

/-- What the record of a live session says is what the calls so far
say. -/
theorem lastHeard_eq (settings : Settings) (inputs : List Input)
    (ho : ((State.new settings).run inputs).roster.sessions.get? i
      = some o) :
    (State.new settings).lastHeard i inputs = some o.lastSeen := by
  have hrun := (Sound.new settings).run_heard inputs ho
  rw [← hrun]
  exact Option.or_none.symm

end Sound

end Coordinator

end LabLease
