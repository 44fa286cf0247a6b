/-
What becomes of an action: it is refused and has done nothing, or it is
done.

# How an action is taken apart

An action is a row of binds. `apply_bind_ok` and `apply_bind_error` peel
one off when the outcome of its first part is known; a part that only
reads or checks (`Outcome.check`, `Outcome.require`) leaves the state as
it is, so a refusal there leaves nothing behind. What being done amounts
to is left open: every action has its own `D`.
-/
import LabLease.Coordinator.Action
import LabLease.Proofs.Registry.Refusals
import LabLease.Proofs.Registry.Roster

namespace LabLease.Coordinator

namespace Action

variable {α β : Type} {s s' : State}

-- ================================================================ apply

@[simp] theorem apply_pure (v : α) (s : State) :
    apply (pure v) s = (.ok v, s) := rfl

@[simp] theorem apply_throw (e : Refusal) (s : State) :
    apply (throw e : Action α) s = (.error e, s) := rfl

@[simp] theorem apply_ofExcept (r : Except Refusal α) (s : State) :
    (ofExcept r).apply s = (r, s) := rfl

@[simp] theorem apply_get (s : State) :
    apply (get : Action State) s = (.ok s, s) := rfl

@[simp] theorem apply_set (s s' : State) :
    apply (set s' : Action Unit) s = (.ok (), s') := rfl

@[simp] theorem apply_modify (f : State → State) (s : State) :
    apply (modify f : Action Unit) s = (.ok (), f s) := rfl

theorem apply_bind (a : Action α) (f : α → Action β) (s : State) :
    (a >>= f).apply s = match a.apply s with
      | (.ok v, s') => (f v).apply s'
      | (.error e, s') => (.error e, s') := by
  unfold apply
  rw [ExceptT.run_bind, StateT.run_bind]
  cases h : Id.run (StateT.run a.run s) with
  | mk out t =>
    have hpair : StateT.run a.run s = (out, t) := h
    rw [hpair]
    cases out <;> rfl

theorem apply_bind_ok {a : Action α} {v : α} (h : a.apply s = (.ok v, s'))
    (f : α → Action β) : (a >>= f).apply s = (f v).apply s' := by
  rw [apply_bind, h]

theorem apply_bind_error {a : Action α} {e : Refusal}
    (h : a.apply s = (.error e, s')) (f : α → Action β) :
    (a >>= f).apply s = (.error e, s') := by
  rw [apply_bind, h]

/-- A role is checked and the state stays as it is. -/
theorem require_apply (session : SessionId) (role : Role) (what : String)
    (s : State) :
    (require session role what).apply s
      = match s.roster.get session with
        | .error e => (.error e, s)
        | .ok o =>
          if o.role = role then (.ok o, s)
          else (.error (.invalidRequest
            s!"{o.role.word} sessions cannot {what}"), s) := by
  unfold require
  rw [apply_bind_ok (apply_get s)]
  cases s.roster.get session with
  | error e => rw [apply_bind_error (apply_ofExcept _ s)]
  | ok o =>
    rw [apply_bind_ok (apply_ofExcept _ s)]
    by_cases hr : o.role = role
    · rw [if_neg (not_not_intro hr)]
      exact (if_pos hr).symm
    · rw [if_pos hr, apply_bind_error (apply_throw _ s)]
      exact (if_neg hr).symm

theorem holder_apply {session : SessionId} {o : Session} (what : String)
    (ho : s.roster.sessions.get? session = some o)
    (hr : o.role = .client) :
    (holder session what).apply s = (.ok ⟨o.name, session⟩, s) := by
  have hget := require_apply session .client what s
  rw [Roster.get_eq_ok.2 ho] at hget
  dsimp only at hget
  rw [if_pos hr] at hget
  unfold holder
  rw [apply_bind_ok hget]
  rfl

/-- The outcome of an action of a live session: it is refused, which is
not because the session is stale, and has done nothing, or it is done. -/
inductive Outcome (D : α → State → Prop) (s : State) :
    Except Refusal α × State → Prop
  | refused {e : Refusal} (he : e.kind ≠ .staleSession) :
    Outcome D s (.error e, s)
  | done {v : α} {s' : State} (h : D v s') : Outcome D s (.ok v, s')

namespace Outcome

variable {D : β → State → Prop}

/-- A part that checks something changes nothing. -/
theorem check {r : Except Refusal α} {f : α → Action β}
    {kinds : List RefusalKind} (hr : Refuses kinds r)
    (hk : .staleSession ∉ kinds)
    (h : ∀ v, r = .ok v → Outcome D s ((f v).apply s)) :
    Outcome D s ((ofExcept r >>= f).apply s) := by
  cases r with
  | error e =>
    rw [apply_bind_error (apply_ofExcept (.error e) s)]
    refine .refused fun he => hk ?_
    rw [← he]
    exact hr.kind_mem e rfl
  | ok v =>
    rw [apply_bind_ok (apply_ofExcept (.ok v) s)]
    exact h v rfl

/-- The answer may be put in other words. -/
theorem map {a : Action α} (f : α → β)
    (h : Outcome (fun v => D (f v)) s (a.apply s)) :
    Outcome D s ((a >>= fun v => pure (f v)).apply s) := by
  cases ha : a.apply s with
  | mk out t =>
    rw [ha] at h
    cases h with
    | refused he =>
      rw [apply_bind_error ha]
      exact .refused he
    | done hd =>
      rw [apply_bind_ok ha]
      exact .done hd

/-- Only a session in the role goes on. -/
theorem require {session : SessionId} {o : Session} {role : Role}
    {what : String} {f : Session → Action β}
    (ho : s.roster.sessions.get? session = some o)
    (h : o.role = role → Outcome D s ((f o).apply s)) :
    Outcome D s ((Action.require session role what >>= f).apply s) := by
  have hcheck := require_apply session role what s
  rw [Roster.get_eq_ok.2 ho] at hcheck
  dsimp only at hcheck
  by_cases hr : o.role = role
  · rw [if_pos hr] at hcheck
    rw [apply_bind_ok hcheck]
    exact h hr
  · rw [if_neg hr] at hcheck
    rw [apply_bind_error hcheck]
    exact .refused (by simp [Refusal.kind])

/-- Only a client goes on. -/
theorem holder {session : SessionId} {o : Session} {what : String}
    {f : Holder → Action β}
    (ho : s.roster.sessions.get? session = some o)
    (h : o.role = .client → Outcome D s ((f ⟨o.name, session⟩).apply s)) :
    Outcome D s ((Action.holder session what >>= f).apply s) := by
  unfold Action.holder
  rw [bind_assoc]
  refine require ho fun hr => ?_
  rw [pure_bind]
  exact h hr

end Outcome

end Action

end LabLease.Coordinator
