/-
What is left of an acquisition that comes to nothing.

A client that acquires a place and makes its resources usable has two
chances to fail once it has the place. When a driver fails, the last thing
it does is to ask for the release of the place. When it cannot find a
resource of the place it just stops, and keeps what it can make no use of
(`failed_binding_exact`, `vanished_keeps_place`).
-/
import LabLease.Client.Agent
import LabLease.Proofs.Coordinator.Leasing
import LabLease.Proofs.Coordinator.Seat

namespace LabLease

namespace Client

variable {σ : Type} {access : Access σ} {drivers : Drivers σ}
  {place : String} {s : σ} {ids : List ResourceId}

/-- No release of a place is among some deeds. -/
def Unreleased (place : String) (deeds : List Deed) : Prop :=
  ∀ force granted, .request (.release place force) granted ∉ deeds

/-- A place was acquired, and its release was not asked for after that. -/
def Keeps (place : String) (deeds : List Deed) : Prop :=
  ∃ before after,
    deeds = before ++ .request (.acquire place) true :: after
      ∧ Unreleased place after

theorem Keeps.of_cons {deeds : List Deed} (h : Unreleased place deeds) :
    Keeps place (.request (.acquire place) true :: deeds) :=
  ⟨[], deeds, rfl, h⟩

theorem not_keeps_of_release {deeds : List Deed} {granted : Bool} :
    ¬ Keeps place (deeds ++ [.request (.release place false) granted]) := by
  rintro ⟨before, after, heq, hno⟩
  rcases List.eq_nil_or_concat after with rfl | ⟨rest, last, rfl⟩
  · cases (List.append_inj' heq rfl).2
  · rw [List.concat_eq_append, ← List.cons_append, ← List.append_assoc]
      at heq
    cases (List.append_inj' heq rfl).2
    exact hno false granted (by simp)

-- ================================================================ looking up

theorem mapM_eq_none {α β : Type} {f : α → Option β} {as : List α} :
    as.mapM f = none ↔ ∃ a ∈ as, f a = none := by
  induction as with
  | nil => simp
  | cons a as ih =>
    rw [List.mapM_cons, List.exists_mem_cons_iff, ← ih]
    cases f a <;> cases as.mapM f <;> simp

theorem mapM_eq_error {α β ε : Type} {f : α → Except ε β} {as : List α} :
    (∃ e, as.mapM f = .error e) ↔ ∃ a ∈ as, ∃ e, f a = .error e := by
  induction as with
  | nil => simp [pure, Except.pure]
  | cons a as ih =>
    rw [List.mapM_cons, List.exists_mem_cons_iff, ← ih]
    cases f a <;> cases as.mapM f <;>
      simp [bind, Except.bind, pure, Except.pure]

/-- Picking fails iff something is not in the list. -/
theorem pick_eq_error {all : List Resource} :
    (∃ e, pick all ids = .error e) ↔ ∃ id ∈ ids, ∀ r ∈ all, r.id ≠ id := by
  unfold pick
  rw [mapM_eq_error]
  refine exists_congr fun id => and_congr_right fun _ => ?_
  cases hfind : all.find? (·.id = id) with
  | none => simpa using hfind
  | some r =>
    have hmem := List.mem_of_find?_eq_some hfind
    have hid := List.find?_some hfind
    simp only [reduceCtorEq, exists_false, false_iff]
    exact fun hnone => hnone r hmem (of_decide_eq_true hid)

/-- A resource is neither in the replica nor in the answer of the
coordinator. -/
def Missing (access : Access σ) (ids : List ResourceId) (s : σ) : Prop :=
  (∃ id ∈ ids, access.known id s = none)
    ∧ ∀ all, (access.request (.listResources none) s).1
        = .ok (.resources all) →
      ∃ id ∈ ids, ∀ r ∈ all, r.id ≠ id

theorem ask_eq (access : Access σ) (op : Operation) (s : σ) :
    ask access op s = ((access.request op s).1,
      .request op (access.request op s).1.toBool,
      (access.request op s).2) := rfl

theorem lookup_eq_error :
    (∃ e, (lookup access ids s).1.result = .error e)
      ↔ Missing access ids s := by
  unfold Missing lookup
  rw [← mapM_eq_none]
  cases ids.mapM fun id => access.known id s with
  | some resources => simp
  | none =>
    rw [ask_eq]
    generalize access.request (.listResources none) s = out
    rcases out with ⟨e | reply, s'⟩
    · simp
    · cases reply with
      | resources all => simp [pick_eq_error]
      | _ => simp

/-- Looking resources up takes no more than one request. -/
theorem lookup_deeds (access : Access σ) (ids : List ResourceId) (s : σ) :
    (lookup access ids s).1.deeds = []
    ∨ ∃ granted, (lookup access ids s).1.deeds
      = [.request (.listResources none) granted] := by
  unfold lookup
  cases ids.mapM fun id => access.known id s with
  | some resources => exact Or.inl rfl
  | none =>
    refine Or.inr ?_
    rw [ask_eq]
    generalize access.request (.listResources none) s = out
    rcases out with ⟨e | reply, s'⟩
    · exact ⟨_, rfl⟩
    · cases reply <;> exact ⟨_, rfl⟩

theorem lookup_unreleased :
    Unreleased place (lookup access ids s).1.deeds := by
  intro force granted
  rcases lookup_deeds access ids s with h | ⟨g, h⟩ <;> simp [h]

-- =============================================================== binding

variable {view : PlaceView}

/-- How binding ends: with everything bound, at a resource that is not to
be found, or with the release of the place as the last thing done. -/
theorem bindAcquired_cases (access : Access σ) (drivers : Drivers σ)
    (place : String) (view : PlaceView) (s : σ) :
    let out := bindAcquired access drivers place view s
    let missing := Missing access view.place.bound s
    (missing ∧ (∃ e, out.1.result = .error e)
        ∧ Unreleased place out.1.deeds)
      ∨ (¬ missing ∧ (∃ bound, out.1.result = .ok bound)
        ∧ Unreleased place out.1.deeds)
      ∨ (¬ missing ∧ (∃ e, out.1.result = .error e)
        ∧ ∃ before s', out.1.deeds = before ++ [.request
            (.release place false)
            (access.request (.release place false) s').1.toBool]
          ∧ out.2 = (access.request (.release place false) s').2) := by
  intro out missing
  have hlookup : (∃ e, (lookup access view.place.bound s).1.result
      = .error e) ↔ missing := lookup_eq_error
  have hquiet : Unreleased place (lookup access view.place.bound s).1.deeds :=
    lookup_unreleased
  have hout : out = bindAcquired access drivers place view s := rfl
  unfold bindAcquired at hout
  generalize lookup access view.place.bound s = looked
    at hlookup hquiet hout
  obtain ⟨⟨result, found⟩, t⟩ := looked
  dsimp only at hlookup hquiet hout
  cases result with
  | error e =>
    rw [hout]
    exact Or.inl ⟨hlookup.1 ⟨e, rfl⟩, ⟨e, rfl⟩, hquiet⟩
  | ok resources =>
    have hfound : ¬ missing := fun h => by
      obtain ⟨e, he⟩ := hlookup.2 h
      cases he
    refine Or.inr ?_
    rcases hbind : drivers.bind resources t with ⟨⟨calls, e | bindings⟩, u⟩
    · simp only [hbind, ask_eq] at hout
      rw [hout]
      exact Or.inr ⟨hfound, ⟨e, rfl⟩, _, u, rfl, rfl⟩
    · simp only [hbind] at hout
      rw [hout]
      refine Or.inl ⟨hfound, ⟨_, rfl⟩, ?_⟩
      intro force granted hmem
      rcases List.mem_append.1 hmem with hmem | hmem
      · exact hquiet force granted hmem
      · obtain ⟨c, -, hc⟩ := List.mem_map.1 hmem
        cases hc

theorem acquireAndBind_of_place
    (hview : (access.request (.acquire place) s).1 = .ok (.place view)) :
    acquireAndBind access drivers place s
      = let bound := bindAcquired access drivers place view
          (access.request (.acquire place) s).2
        ({ bound.1 with
          deeds := .request (.acquire place) true :: bound.1.deeds },
          bound.2) := by
  unfold acquireAndBind
  rw [ask_eq, hview]
  rfl

theorem acquireAndBind_of_refused
    (hno : ∀ view, (access.request (.acquire place) s).1
      ≠ .ok (.place view)) :
    (∃ e, (acquireAndBind access drivers place s).1.result = .error e)
      ∧ (acquireAndBind access drivers place s).1.deeds
        = [.request (.acquire place)
          (access.request (.acquire place) s).1.toBool] := by
  unfold acquireAndBind
  rw [ask_eq]
  generalize (access.request (.acquire place) s).1 = answer at hno ⊢
  rcases answer with e | reply
  · exact ⟨⟨_, rfl⟩, rfl⟩
  · cases reply with
    | place view => exact absurd rfl (hno view)
    | _ => exact ⟨⟨_, rfl⟩, rfl⟩

end Client

-- ============================================================ giving back

namespace Coordinator

variable {s : State} {place : String} {p : Place} {held : Holder}

/-- Whoever holds a place is granted its release. -/
theorem Sound.release_granted (h : Sound none s)
    (hp : s.places.entries.get? place = some p) (hh : p.holder = some held)
    (force : Bool) (now : Moment) :
    ∃ view, ((Action.release held.session place force now).apply s).1
      = .ok view := by
  obtain ⟨o, ho, -, hrole⟩ :=
    (h.attended.holders place p held hp hh).resolve_left nofun
  have hr := Places.release_of_holder
    (force && s.settings.allowForceRelease) now.date hp hh
  obtain ⟨q, hq, -⟩ := Places.get?_of_release hr
  unfold Action.release
  rw [Action.apply_bind, Action.require_apply, Roster.get_eq_ok.2 ho]
  dsimp only
  rw [if_pos hrole]
  dsimp only
  rw [Action.apply_bind_ok (Action.apply_get s), Places.get_eq_ok.2 hp,
    Action.apply_bind_ok (Action.apply_ofExcept _ s), hr,
    Action.apply_bind_ok (Action.apply_ofExcept _ s)]
  dsimp only
  rw [Action.apply_bind_ok (Action.apply_set s _),
    Action.apply_bind_ok (Action.apply_get _), Action.apply_ofExcept,
    State.finishRelease_places, State.view_eq_of_get? hq]
  exact ⟨_, rfl⟩

/-- Once a session has asked for the release of a place it does not hold
it, whatever it was told. -/
theorem Sound.not_held_of_release (h : Sound none s) (session : SessionId)
    (now : Moment)
    (hp : ((Action.execute session (.release place false) now).apply
      s).2.places.entries.get? place = some p)
    (hh : p.holder = some held) : held.session ≠ session := by
  rintro rfl
  rcases Action.execute_outcome s held.session (.release place false) now
    with ⟨e, hstale, he⟩ | ⟨roster, hr, ho⟩
  · rw [he] at hp
    obtain ⟨o, ho, -⟩ :=
      (h.attended.holders place p held hp hh).resolve_left nofun
    obtain ⟨roster, hr⟩ := Roster.heartbeat_of_live ho now
    cases hstale.symm.trans hr
  · have htold := Action.execute_release_apply hr place false
    generalize (Action.execute held.session (.release place false)
      now).apply s = told at hp ho htold
    cases ho with
    | refused =>
      obtain ⟨view, hok⟩ := (h.heard hr).release_granted hp hh false now
      rw [hok] at htold
      cases htold
    | done hg =>
      cases hg with
      | answered hq => cases hq
      | edited hop => cases hop
      | released _ _ _ hfree hq =>
        rw [State.finishRelease_places] at hp
        obtain ⟨q, hq, hnone⟩ := Places.get?_of_release hfree
        cases hq.symm.trans hp
        cases hnone.symm.trans hh

end Coordinator

-- ========================================================= what is left

namespace Client

/-- What is left of an acquisition. Once the place is acquired it is kept
iff all is bound or a resource of it is missing, that is, known neither to
the replica nor to the coordinator when it is asked; and if it is not
kept, its release is the last thing asked for, after which the session
does not hold it. If the acquisition fails nothing else is done. -/
theorem failed_binding_exact (access : Access σ) (drivers : Drivers σ)
    (place : String) (s : σ) :
    let answer := (access.request (.acquire place) s).1
    let s' := (access.request (.acquire place) s).2
    let out := acquireAndBind access drivers place s
    (∀ view, answer = .ok (.place view) →
        (Keeps place out.1.deeds ↔ (∃ bound, out.1.result = .ok bound)
          ∨ Missing access view.place.bound s')
        ∧ ((∃ bound, out.1.result = .ok bound) →
          ¬ Missing access view.place.bound s')
        ∧ (¬ Keeps place out.1.deeds → ∃ s'',
          out.2 = (access.request (.release place false) s'').2))
      ∧ ((∀ view, answer ≠ .ok (.place view)) →
        (∃ e, out.1.result = .error e)
          ∧ out.1.deeds = [.request (.acquire place) answer.toBool])
      ∧ ∀ (settings : Coordinator.Settings)
          (inputs : List Coordinator.Input) (session : SessionId)
          (now : Moment) (p : Place) (held : Holder),
        ((Coordinator.Action.execute session (.release place false)
          now).apply ((Coordinator.State.new settings).run
            inputs)).2.places.entries.get? place = some p →
        p.holder = some held → held.session ≠ session := by
  intro answer s' out
  refine ⟨fun view hview => ?_, acquireAndBind_of_refused, ?_⟩
  · have hout : out = _ := acquireAndBind_of_place hview
    rw [hout]
    rcases bindAcquired_cases access drivers place view s' with
      ⟨hmissing, ⟨e, he⟩, hquiet⟩ | ⟨hfound, hbound, hquiet⟩
      | ⟨hfound, ⟨e, he⟩, before, s'', hdeeds, hlast⟩
    · have hkeeps := Keeps.of_cons hquiet
      refine ⟨⟨fun _ => Or.inr hmissing, fun _ => hkeeps⟩, ?_,
        fun hno => absurd hkeeps hno⟩
      rintro ⟨bound, hok⟩
      cases he.symm.trans hok
    · have hkeeps := Keeps.of_cons hquiet
      exact ⟨⟨fun _ => Or.inl hbound, fun _ => hkeeps⟩, fun _ => hfound,
        fun hno => absurd hkeeps hno⟩
    · have hgiven : ¬ Keeps place (.request (.acquire place) true
          :: (bindAcquired access drivers place view s').1.deeds) := by
        rw [hdeeds, ← List.cons_append]
        exact not_keeps_of_release
      refine ⟨⟨fun h => absurd h hgiven, ?_⟩, fun _ => hfound,
        fun _ => ⟨s'', hlast⟩⟩
      rintro (⟨bound, hok⟩ | hmissing)
      · cases he.symm.trans hok
      · exact absurd hmissing hfound
  · intro settings inputs session now p held
    exact (Coordinator.Sound.reached settings inputs).not_held_of_release
      session now

open Coordinator in
/-- A client acquires a place, and before it can ask for what its replica
does not know yet the exporter withdraws that. It fails, has asked for no
release, and holds the place, which it could have given back. -/
theorem vanished_keeps_place :
    let noon : Moment := ⟨0, ⟨2024, 1, 1, 12, 0, 0, 0⟩⟩
    let any : ResourcePattern := ⟨everything, everything, everything, none⟩
    let calls : Nat → List Input
      | 1 => [.execute 1 (.setResources []) noon]
      | _ => []
    let lagging : Access Seat :=
      ⟨fun op x => x.request ⟨calls, fun _ => noon⟩ op, fun _ _ => none⟩
    let start : Seat :=
      { state := (State.new {}).run [.register "bench" .exporter noon,
          .execute 1 (.setResources [⟨"rack", "led", .sysfsGpio 7⟩]) noon,
          .register "alice" .client noon,
          .execute 2 (.createPlace "board" [any] .empty) noon]
        session := some 2 }
    let out := acquireAndBind lagging .empty "board" start
    out.1.result = .error
        (.of "Resource bench/rack/SysfsGPIO/led vanished after acquisition")
      ∧ out.1.deeds = [.request (.acquire "board") true,
        .request (.listResources none) true]
      ∧ Keeps "board" out.1.deeds
      ∧ (out.2.state.places.entries.get? "board").map (·.holder)
        = some (some ⟨"alice", 2⟩)
      ∧ ((Action.execute 2 (.release "board" false) noon).apply
        out.2.state).1.toBool = true := by
  intro noon any calls lagging start out
  obtain ⟨hfailed, hdeeds, hheld, hfree⟩ :
      (match out.1.result with | .error e => some e | .ok _ => none)
          = some (.of
            "Resource bench/rack/SysfsGPIO/led vanished after acquisition")
        ∧ out.1.deeds = [.request (.acquire "board") true,
          .request (.listResources none) true]
        ∧ (out.2.state.places.entries.get? "board").map (·.holder)
          = some (some ⟨"alice", 2⟩)
        ∧ ((Action.execute 2 (.release "board" false) noon).apply
          out.2.state).1.toBool = true := by
    decide +kernel +revert
  refine ⟨?_, hdeeds, ?_, hheld, hfree⟩
  · cases hresult : out.1.result with
    | error e =>
      rw [hresult] at hfailed
      cases hfailed
      rfl
    | ok bound =>
      rw [hresult] at hfailed
      cases hfailed
  · rw [hdeeds]
    exact Keeps.of_cons fun force granted => by simp

end Client

end LabLease
