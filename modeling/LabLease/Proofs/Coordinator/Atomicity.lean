/-
A refusal leaves nothing behind: an operation that is refused has changed
no more than the time its session was last heard, and a registration that
is refused has changed nothing.

# Why a registration is safe

A registration ends whoever uses the name before it can be refused, so it
is not enough that the refusal itself comes early. But a name that is in
use was valid once (`Roster.Sound.valid`) and is free again when its
session has ended (`cleared_free`), and then nothing is left that could
be refused.
-/
import LabLease.Proofs.Coordinator.Presence

namespace LabLease.Coordinator

variable {s s' : State}

namespace Action

/-- What a refused operation leaves: the state as it was for a session
that is not live, and a sign of life of any other. -/
theorem execute_error {session : SessionId} {op : Operation}
    {now : Moment} {e : Refusal}
    (h : (execute session op now).apply s = (.error e, s')) :
    (e.kind = .staleSession ↔ s.isLive session = false)
      ∧ s' = if e.kind = .staleSession then s
        else { s with roster := s.roster.edit session fun o =>
          { o with lastSeen := now.ticks } } := by
  unfold State.isLive Roster.isLive Table.contains
  rcases execute_outcome s session op now with
    ⟨e', hr, he⟩ | ⟨roster, hr, ho⟩
  · rw [he] at h
    cases h
    have hkind : e.kind = .staleSession := List.mem_singleton.1
      ((s.roster.heartbeat_refuses now session).kind_mem e hr)
    rw [if_pos hkind]
    refine ⟨iff_of_true hkind ?_, rfl⟩
    cases hget : s.roster.sessions.get? session with
    | none => rfl
    | some o =>
      obtain ⟨r', hok⟩ := Roster.heartbeat_of_live hget now
      rw [hr] at hok
      cases hok
  · rw [h] at ho
    cases ho with
    | refused hkind =>
      rw [if_neg hkind, ← Roster.heartbeat_eq_edit hr]
      obtain ⟨o, hget, -⟩ := Roster.heartbeat_ok hr
      refine ⟨iff_of_false hkind ?_, rfl⟩
      rw [hget]
      exact Bool.noConfusion

end Action

namespace Sound

/-- The roster is sound once whoever used a name is gone. -/
theorem cleared_sound (h : Sound none s) (name : String) (now : Moment) :
    (s.cleared name now).roster.Sound :=
  (h.moves (h.cleared_moves name now)).attended.roster

/-- Once whoever used a name is gone the name is free. -/
theorem cleared_free (h : Sound none s) (name : String) (now : Moment) :
    (s.cleared name now).roster.named? name = none := by
  unfold State.cleared
  cases hn : s.roster.named? name with
  | none => exact hn
  | some old =>
    dsimp only
    have hnote : Sound none
        (s.notify old.id "replaced by a new session") :=
      h.move (.aside _ s.incompleteSince s.evictions)
    have hend : Moves (Departure old.id now) none _ none _ :=
      .of_endSession hnote old.id now fun _ hk => hk
    have hgone := State.endSession_gone
      (s.notify old.id "replaced by a new session") old.id now
    rw [Option.eq_none_iff_forall_ne_some]
    intro o ho
    obtain ⟨hget, hname⟩ :=
      (hnote.moves hend).attended.roster.named?_eq_some.1 ho
    -- a live session of that name was live before, and so it was `old`
    obtain ⟨o', hget', hbare⟩ :=
      hend.record_was (fun _ hk => hk.not_greets) hget
    obtain ⟨hold, hname'⟩ := h.attended.roster.named?_eq_some.1 hn
    have hsame : o'.name = old.name :=
      ((congrArg Session.name hbare).symm.trans hname).trans hname'.symm
    have hid := h.attended.roster.named hget' hold hsame
    rw [hid, hgone] at hget
    cases hget

/-- A registration that is refused has ended nobody's session. -/
theorem register_error (h : Sound none s) {name : String} {role : Role}
    {now : Moment} {e : Refusal}
    (hr : (Action.register name role now).apply s = (.error e, s')) :
    s' = s := by
  rw [Action.register_apply] at hr
  cases hn : s.roster.named? name with
  | none =>
    have hsame : s.cleared name now = s := by
      unfold State.cleared
      rw [hn]
    rw [hsame] at hr
    split at hr <;> cases hr
    rfl
  | some old =>
    -- the name is valid and free, so there was no refusal
    obtain ⟨hold, hname⟩ := h.attended.roster.named?_eq_some.1 hn
    have hvalid := h.attended.roster.valid _ _ hold
    rw [hname] at hvalid
    obtain ⟨out, hout⟩ := (h.cleared_sound name now).register_of_free role
      now hvalid (h.cleared_free name now)
    rw [hout] at hr
    cases hr

end Sound

/-- Refused operations change nothing. An operation is refused as stale
iff its session is not live, and then the state is as it was; after any
other refusal only the time when the session was last heard is another.
A registration that is refused leaves the state as it was. -/
theorem refusals_leave_nothing (settings : Settings)
    (inputs : List Input) (now : Moment) :
    let s := (State.new settings).run inputs
    (∀ session op e s',
        (Action.execute session op now).apply s = (.error e, s') →
        (e.kind = .staleSession ↔ s.isLive session = false)
          ∧ s' = if e.kind = .staleSession then s
            else { s with roster := s.roster.edit session fun o =>
              { o with lastSeen := now.ticks } })
      ∧ ∀ name role e s',
        (Action.register name role now).apply s = (.error e, s') →
          s' = s := by
  intro s
  have h : Sound none s := .reached settings inputs
  refine ⟨fun _ _ _ _ => Action.execute_error, ?_⟩
  intro name role e s' hr
  exact h.register_error hr

/-- A client asks for a place that is not there, a session that nobody
has asks for anything, and somebody registers under no name. -/
theorem refusals_leave_nothing_mistakes :
    let noon : Moment := ⟨0, ⟨2024, 1, 1, 12, 0, 0, 0⟩⟩
    let later : Moment := ⟨500, ⟨2024, 1, 1, 12, 0, 0, 500000000⟩⟩
    let s := (State.new {}).run [.register "alice" .client noon]
    (Action.execute 1 (.acquire "board") later).apply s
        = (.error (.notFound "place 'board'"),
          { s with roster := s.roster.edit 1 fun o =>
            { o with lastSeen := 500 } })
      ∧ (Action.execute 2 .heartbeat later).apply s
        = (.error (.staleSession "session s2 is not registered"), s)
      ∧ (Action.register "" .client later).apply s
        = (.error (.invalidRequest "invalid peer name ''"), s) := by
  intro noon later s
  have hplace : ((Action.execute 1 (.acquire "board") later).apply s).1
      = .error (.notFound "place 'board'") := by decide +kernel +revert
  have hstale : ((Action.execute 2 .heartbeat later).apply s).1
      = .error (.staleSession "session s2 is not registered") := by
    decide +kernel +revert
  have hname : ((Action.register "" .client later).apply s).1
      = .error (.invalidRequest "invalid peer name ''") := by
    decide +kernel +revert
  have hall := refusals_leave_nothing {}
    [.register "alice" .client noon] later
  exact ⟨Prod.ext hplace (hall.1 1 _ _ _ (Prod.ext hplace rfl)).2,
    Prod.ext hstale (hall.1 2 _ _ _ (Prod.ext hstale rfl)).2,
    Prod.ext hname (hall.2 _ _ _ _ (Prod.ext hname rfl))⟩

end LabLease.Coordinator
