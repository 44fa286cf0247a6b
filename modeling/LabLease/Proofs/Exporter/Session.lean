/-
The coordinator lists what an exporter has found last.

An exporter remembers what it has published and asks for a publication
only when it finds something else, while the coordinator keeps a table and
drops it with the session. Two things are therefore said of a session at
once (`reconcileAll_stocked`): that it offers what the exporter remembers,
and that it offers what was found by the latest look that did not fail.
Others may do whatever they want in between, since they change nothing of
what a session offers (`Coordinator.Stocked.run`). A new session starts
from nothing and remembers nothing.
-/
import LabLease.Exporter.Session
import LabLease.Proofs.Coordinator.Offers
import LabLease.Proofs.Coordinator.Seat

namespace LabLease

open Coordinator

namespace Exporter

variable {xs ys : List ResourceSpec} {exporter : String}

-- ==================================================== the same publication

theorem samePublication_iff : samePublication xs ys = true ↔
    List.Forall₂ (fun x y => x.same y = true) xs ys := by
  unfold samePublication
  rw [Bool.and_eq_true, decide_eq_true_eq, List.forall₂_iff_zip,
    List.all_eq_true]
  refine and_congr_right fun _ => ?_
  exact ⟨fun h a b hab => h (a, b) hab, fun h ab hab => h hab⟩

/-- They are about the same resources, -/
theorem map_idFor_of_same (h : samePublication xs ys = true)
    (exporter : String) :
    xs.map (·.idFor exporter) = ys.map (·.idFor exporter) := by
  refine List.forall₂_eq_eq_eq ▸ ?_
  rw [List.forall₂_map_left_iff, List.forall₂_map_right_iff]
  exact (samePublication_iff.1 h).imp fun x y hxy =>
    ResourceSpec.idFor_of_same hxy exporter

theorem exists_same (h : List.Forall₂ (fun x y => x.same y = true) xs ys)
    {x : ResourceSpec} (hx : x ∈ xs) : ∃ y ∈ ys, x.same y = true := by
  induction h with
  | nil => cases hx
  | cons hxy _ ih =>
    rcases List.mem_cons.1 hx with rfl | hx
    · exact ⟨_, List.mem_cons_self, hxy⟩
    · obtain ⟨y, hy, hsame⟩ := ih hx
      exact ⟨y, List.mem_cons_of_mem _ hy, hsame⟩

/-- so whoever offers what one says offers what the other says. -/
theorem offers_of_same {inv : Inventory} {session : SessionId}
    (h : samePublication xs ys = true)
    (ho : inv.Offers session exporter ys) :
    inv.Offers session exporter xs where
  only id params hoffer := by
    rw [map_idFor_of_same h]
    exact ho.only id params hoffer
  all x hx := by
    obtain ⟨y, hy, hxy⟩ := exists_same (samePublication_iff.1 h) hx
    obtain ⟨params, hoffer, hsame⟩ := ho.all y hy
    refine ⟨params, ?_, ?_⟩
    · rw [ResourceSpec.idFor_of_same hxy]
      exact hoffer
    · exact ResourceParams.same_trans hsame
        (ResourceParams.same_symm (ResourceSpec.same_iff.1 hxy).2.2)

-- =============================================================== requests

section Requests

variable {σ : Type}
  {request : Operation → σ → Except Refusal Reply × σ}
  {published specs : List ResourceSpec} {scan : Scan} {s : σ}

theorem publish_snd : (publish request specs s).2
    = (request (.setResources specs) s).2 := by
  unfold publish
  split <;> next heq => rw [heq]

/-- What is published is what was asked for. -/
theorem publish_ok (h : (publish request specs s).1 = .ok published) :
    published = specs := by
  unfold publish at h
  split at h <;> cases h
  rfl

section Keeping

variable {P : σ → Prop} (hreq : ∀ op s, P s → P (request op s).2)
include hreq

/-- A session does nothing but make requests, so what they all keep it
keeps. -/
theorem reconcile_keeps (hs : P s) :
    P (reconcile request published scan s).2 := by
  unfold reconcile
  split
  · rw [publish_snd]
    exact hreq _ s hs
  · exact hs

theorem reconcileAll_keeps {scans : List Scan} (hs : P s) :
    P (reconcileAll request published scans s).2 := by
  induction scans generalizing published s with
  | nil => exact hs
  | cons scan scans ih =>
    have hone : P (reconcile request published scan s).2 :=
      reconcile_keeps hreq hs
    unfold reconcileAll
    generalize reconcile request published scan s = out at hone ⊢
    rcases out with ⟨_ | _, t⟩
    · exact hone
    · exact ih hone

end Keeping

/-- One look more. -/
theorem reconcileAll_concat {scans : List Scan} :
    reconcileAll request published (scans ++ [scan]) s
      = match reconcileAll request published scans s with
        | (.ok published, s) => reconcile request published scan s
        | (.error e, s) => (.error e, s) := by
  induction scans generalizing published s with
  | nil =>
    show (match reconcile request published scan s with
      | (.ok published, s) => (.ok published, s)
      | (.error e, s) => (.error e, s)) = reconcile request published scan s
    rcases reconcile request published scan s with ⟨_ | _, t⟩ <;> rfl
  | cons first scans ih =>
    rw [List.cons_append]
    unfold reconcileAll
    rcases reconcile request published first s with ⟨_ | _, t⟩
    · rfl
    · exact ih

section Session

variable {name : String} {first : Scan} {later : List Scan} {t : σ}
  {reply : Reply}

theorem session_concat :
    session request name first (later ++ [scan]) s
      = match session request name first later s with
        | (.ok published, s) => reconcile request published scan s
        | (.error e, s) => (.error e, s) := by
  unfold session
  rcases begin request name first s with ⟨_ | _, t⟩
  · rfl
  · exact reconcileAll_concat

/-- A session whose first look fails is over. -/
theorem session_of_error
    (hreg : request (.register name .exporter) s = (.ok reply, t))
    (f : Failure) : session request name (.error f) later s
      = (.error (f.during "Failed to scan inventory"), t) := by
  unfold session begin
  rw [hreg]

/-- Otherwise all that was found is published. -/
theorem session_of_ok
    (hreg : request (.register name .exporter) s = (.ok reply, t)) :
    session request name (.ok specs) later s
      = match publish request specs t with
        | (.ok published, t) => reconcileAll request published later t
        | (.error e, t) => (.error e, t) := by
  rcases hpub : publish request specs t with ⟨_ | _, u⟩ <;>
    simp only [session, begin, hreg, hpub]

theorem session_keeps {P : σ → Prop}
    (hreq : ∀ op s, P s → P (request op s).2)
    (hreg : request (.register name .exporter) s = (.ok reply, t))
    (ht : P t) : P (session request name first later s).2 := by
  cases first with
  | error f =>
    rw [session_of_error hreg]
    exact ht
  | ok specs =>
    have hpublish : P (publish request specs t).2 := by
      rw [publish_snd]
      exact hreq _ t ht
    rw [session_of_ok hreg]
    generalize publish request specs t = out at hpublish ⊢
    rcases out with ⟨_ | _, u⟩
    · exact hpublish
    · exact reconcileAll_keeps hreq hpublish

end Session

end Requests

-- ========================================================== at a coordinator

section AtCoordinator

variable {around : Surroundings} {id : SessionId} {name : String}
  {x : Seat} {published current specs : List ResourceSpec} {scan : Scan}
  {scans : List Scan}

/-- What was found by the latest look that did not fail. -/
def latest (current : List ResourceSpec) : List Scan → List ResourceSpec
  | [] => current
  | .ok specs :: rest => latest specs rest
  | .error _ :: rest => latest current rest

/-- What a look asks for, if anything. -/
theorem reconcile_requests :
    (reconcile (Seat.request around) published scan x).2.requests
      = x.requests
        ++ ((republication? published scan).map .setResources).toList := by
  unfold reconcile
  cases republication? published scan with
  | none => exact (List.append_nil _).symm
  | some specs =>
    dsimp only
    rw [publish_snd, Seat.request_requests]
    rfl

/-- What was asked for last is what is taken to be published. -/
theorem reconcile_last
    (hlog : x.requests.getLast? = some (.setResources published))
    (hok : (reconcile (Seat.request around) published scan x).1
      = .ok current) :
    (reconcile (Seat.request around) published scan x).2.requests.getLast?
      = some (.setResources current) := by
  rw [reconcile_requests]
  unfold reconcile at hok
  cases hr : republication? published scan with
  | none =>
    rw [hr] at hok
    cases hok
    rw [Option.map_none, Option.toList_none, List.append_nil, hlog]
  | some specs =>
    rw [hr] at hok
    rw [publish_ok hok, Option.map_some, Option.toList_some,
      List.getLast?_concat]

theorem reconcileAll_last
    (hlog : x.requests.getLast? = some (.setResources published))
    (hok : (reconcileAll (Seat.request around) published scans x).1
      = .ok current) :
    (reconcileAll (Seat.request around) published scans
      x).2.requests.getLast? = some (.setResources current) := by
  induction scans generalizing published x with
  | nil =>
    cases hok
    exact hlog
  | cons scan scans ih =>
    unfold reconcileAll at hok ⊢
    rcases hone : reconcile (Seat.request around) published scan x with
      ⟨_ | p, y⟩
    · rw [hone] at hok
      cases hok
    · have hlast := reconcile_last hlog (congrArg Prod.fst hone)
      rw [hone] at hok hlast
      exact ih hlast hok

/-- Nothing that was asked for is forgotten. -/
theorem reconcileAll_prefix (around : Surroundings)
    (published : List ResourceSpec) (scans : List Scan) (x : Seat) :
    x.requests <+: (reconcileAll (Seat.request around) published scans
      x).2.requests := by
  refine reconcileAll_keeps (P := fun y : Seat => x.requests <+: y.requests) ?_
    (List.prefix_refl _)
  intro op y hy
  rw [Seat.request_requests]
  exact hy.trans (List.prefix_append _ _)

/-- A peer whose session is an exporter's. -/
structure Seated (id : SessionId) (name : String) (x : Seat) : Prop where
  session : x.session = some id
  enrolled : Enrolled id name x.state

theorem Seated.request (h : Seated id name x) (around : Surroundings)
    (op : Operation) : Seated id name (x.request around op).2 := by
  obtain ⟨inputs, hrun⟩ := Seat.request_run around op x
  exact ⟨Seat.request_session h.session, hrun ▸ h.enrolled.run inputs⟩

/-- How a session goes on: it offers both what is taken to be published
and what was found last, or it is over. -/
inductive Standing (id : SessionId) (name : String)
    (current : List ResourceSpec) :
    Except Failure (List ResourceSpec) × Seat → Prop
  | live {published : List ResourceSpec} {x : Seat} (h : Seated id name x)
      (hp : Stocked id name published x.state)
      (hc : Stocked id name current x.state) :
    Standing id name current (.ok published, x)
  | ended {e : Failure} {x : Seat} (h : Seated id name x)
      (hgone : x.state.isLive id = false) :
    Standing id name current (.error e, x)

/-- As long as the session is live, whatever others do, what was found last
is listed. -/
theorem Standing.lists {result : Except Failure (List ResourceSpec)}
    (h : Standing id name current (result, x)) {after : List Input}
    (hafter : ∀ input ∈ after, ¬ input.Publishes id)
    (hlive : (x.state.run after).isLive id = true) :
    (∃ published, result = .ok published)
      ∧ (x.state.run after).inventory.Lists name current := by
  obtain ⟨who, role, hl⟩ := State.isLive_iff_live.1 hlive
  cases h with
  | live h hp hc =>
    refine ⟨⟨_, rfl⟩, ?_⟩
    have hstock := hc.run hafter
    obtain ⟨rfl, rfl⟩ := hstock.who who role hl
    exact hstock.sound.lists hl (hstock.stock hl)
  | ended h hgone =>
    have hwas := h.enrolled.sound.run_live_was h.enrolled.given hl
    rw [State.isLive_iff_live.2 ⟨who, role, hwas⟩] at hgone
    cases hgone

theorem publish_standing (h : Seated id name x)
    (hnd : (specs.map (·.idFor name)).Nodup) :
    Standing id name specs (publish (Seat.request around) specs x) := by
  have hmet : Enrolled id name (x.met around) := h.enrolled.run _
  have hseated := h.request around (.setResources specs)
  rw [Seat.request_of_session h.session] at hseated
  unfold publish
  rw [Seat.request_of_session h.session]
  rcases hmet.publish hnd (around.clock x.requests.length) with
    ⟨⟨n, hn⟩, hstock⟩ | ⟨⟨e, he⟩, hsame, hgone⟩
  · dsimp only
    rw [hn]
    exact .live hseated hstock hstock
  · dsimp only at hseated ⊢
    rw [he]
    exact .ended hseated (by rw [hsame]; exact hgone)

/-- A look that finds nothing else leaves everything as it is. -/
theorem reconcile_standing (h : Seated id name x)
    (hp : Stocked id name published x.state)
    (hc : Stocked id name current x.state)
    (hnd : ∀ specs, scan = .ok specs →
      (specs.map (·.idFor name)).Nodup) :
    Standing id name (latest current [scan])
      (reconcile (Seat.request around) published scan x) := by
  unfold reconcile republication?
  cases scan with
  | error e => exact .live h hp hc
  | ok specs =>
    dsimp only
    split
    · next specs' heq =>
      split at heq
      · cases heq
      · cases heq
        exact publish_standing h (hnd specs rfl)
    · next heq =>
      split at heq
      · next hsame =>
        exact .live h hp ⟨hp.toEnrolled, fun hl =>
          offers_of_same hsame (hp.stock hl)⟩
      · cases heq

theorem reconcileAll_standing (h : Seated id name x)
    (hp : Stocked id name published x.state)
    (hc : Stocked id name current x.state)
    (hnd : ∀ specs, .ok specs ∈ scans →
      (specs.map (·.idFor name)).Nodup) :
    Standing id name (latest current scans)
      (reconcileAll (Seat.request around) published scans x) := by
  induction scans generalizing published current x with
  | nil => exact .live h hp hc
  | cons scan scans ih =>
    have hone : Standing id name (latest current [scan])
        (reconcile (Seat.request around) published scan x) :=
      reconcile_standing h hp hc fun specs heq =>
        hnd specs (heq ▸ List.mem_cons_self)
    have hlatest : latest current (scan :: scans)
        = latest (latest current [scan]) scans := by
      cases scan <;> rfl
    rw [hlatest]
    unfold reconcileAll
    generalize reconcile (Seat.request around) published scan x = out
      at hone ⊢
    cases hone with
    | live h hp hc =>
      exact ih h hp hc fun specs hmem =>
        hnd specs (List.mem_cons_of_mem _ hmem)
    | ended h hgone => exact .ended h hgone

end AtCoordinator

-- =============================================================== sessions

/-- A session as it may go: what others do during it, and what comes of
the exporter's looks. -/
structure Attempt where
  around : Surroundings
  first : Scan
  later : List Scan

namespace Attempt

/-- What comes of a session that begins in some state. -/
def outcome (a : Attempt) (name : String) (s : State) :
    Except Failure (List ResourceSpec) × Seat :=
  session (Seat.request a.around) name a.first a.later { state := s }

/-- The state after some sessions of an exporter, one after the other. -/
def course (name : String) (s : State) (attempts : List Attempt) : State :=
  attempts.foldl (fun s a => (a.outcome name s).2.state) s

/-- The session with one look more. -/
def longer (a : Attempt) (scan : Scan) : Attempt :=
  { a with later := a.later ++ [scan] }

variable {a : Attempt} {name : String} {s : State} {id : SessionId}
  {result : Except Failure (List ResourceSpec)} {x : Seat}

theorem outcome_longer (scan : Scan) :
    (a.longer scan).outcome name s
      = match a.outcome name s with
        | (.ok published, x) =>
          reconcile (Seat.request a.around) published scan x
        | (.error e, x) => (.error e, x) := by
  show session (Seat.request a.around) name a.first (a.later ++ [scan])
    { state := s } = _
  rw [session_concat]
  unfold outcome
  rcases session (Seat.request a.around) name a.first a.later
    { state := s } with ⟨_ | _, x⟩ <;> rfl

/-- A session that has come about has begun with a registration. -/
theorem begins (h : Sound none s) (hrun : a.outcome name s = (result, x))
    (hs : x.session = some id) :
    ∃ reply y, Seat.request a.around (.register name .exporter)
        { state := s } = (.ok reply, y)
      ∧ Seated id name y ∧ y.requests = [.register name .exporter] := by
  let seat : Seat := { state := s }
  have hmet : Sound none (seat.met a.around) := h.run _
  rcases Seat.request_register (x := seat) rfl a.around name .exporter with
    ⟨e, -, hreg⟩ | ⟨i, reply, hok, hreg⟩
  · -- without a session there is nothing that could have one
    unfold outcome session begin at hrun
    rw [hreg] at hrun
    cases hrun
    cases hs
  · have henrolled : Enrolled i name _ := Enrolled.register hmet hok
    have hkeeps : (a.outcome name s).2.session = some i :=
      session_keeps (P := fun y => y.session = some i)
        (fun _ _ => Seat.request_session) hreg rfl
    rw [hrun, hs] at hkeeps
    cases hkeeps
    exact ⟨reply, _, hreg, ⟨rfl, henrolled⟩, rfl⟩

/-- The state after a session is one that the coordinator reaches. -/
theorem sound (h : Sound none s) (a : Attempt) (name : String) :
    Sound none (a.outcome name s).2.state := by
  let seat : Seat := { state := s }
  have hbegun := (h.run (a.around.calls 0)).step
    (.register name .exporter (a.around.clock 0))
  rcases Seat.request_register (x := seat) rfl a.around name .exporter with
    ⟨e, -, hreg⟩ | ⟨i, reply, -, hreg⟩
  · unfold outcome session begin
    rw [hreg]
    exact hbegun
  · refine session_keeps (P := fun y => Sound none y.state) ?_ hreg hbegun
    intro op y hy
    obtain ⟨inputs, hrun⟩ := Seat.request_run a.around op y
    rw [hrun]
    exact hy.run inputs

theorem course_sound (h : Sound none s) (name : String)
    (attempts : List Attempt) : Sound none (course name s attempts) := by
  induction attempts generalizing s with
  | nil => exact h
  | cons a attempts ih => exact ih (sound h a name)

end Attempt

-- ============================================================ what is listed

section Listed

variable {a : Attempt} {name : String} {s : State} {id : SessionId}
  {result : Except Failure (List ResourceSpec)} {x : Seat}
  (h : Sound none s) (hrun : a.outcome name s = (result, x))
  (hs : x.session = some id)
include h hrun hs

/-- A session whose first look fails is over and has asked for nothing
else. -/
theorem Attempt.of_error {f : Failure} (hfirst : a.first = .error f) :
    (∃ e, result = .error e)
      ∧ x.requests = [.register name .exporter] := by
  obtain ⟨reply, y, hreg, -, hlog⟩ := Attempt.begins h hrun hs
  unfold outcome at hrun
  rw [hfirst, session_of_error hreg] at hrun
  cases hrun
  exact ⟨⟨_, rfl⟩, hlog⟩

section Found

variable {specs : List ResourceSpec} (hfirst : a.first = .ok specs)
include hfirst

/-- Otherwise it has asked for the publication of what was found, and has
gone on if that was granted. -/
theorem Attempt.goes_on :
    ∃ y z, Seated id name y
      ∧ z.requests = [.register name .exporter, .setResources specs]
      ∧ ((∃ e, publish (Seat.request a.around) specs y = (.error e, z)
          ∧ result = .error e ∧ x = z)
        ∨ publish (Seat.request a.around) specs y = (.ok specs, z)
          ∧ reconcileAll (Seat.request a.around) specs a.later z
            = (result, x)) := by
  obtain ⟨reply, y, hreg, hseated, hlog⟩ := Attempt.begins h hrun hs
  have hasked : (publish (Seat.request a.around) specs y).2.requests
      = [.register name .exporter, .setResources specs] := by
    rw [publish_snd, Seat.request_requests, hlog]
    rfl
  unfold outcome at hrun
  rw [hfirst, session_of_ok hreg] at hrun
  rcases hpublish : publish (Seat.request a.around) specs y with ⟨e | p, z⟩
  · rw [hpublish] at hasked hrun
    cases hrun
    exact ⟨y, x, hseated, hasked, Or.inl ⟨e, hpublish, rfl, rfl⟩⟩
  · cases publish_ok (congrArg Prod.fst hpublish)
    rw [hpublish] at hasked hrun
    exact ⟨y, z, hseated, hasked, Or.inr ⟨hpublish, hrun⟩⟩

theorem Attempt.requests_of_ok :
    [.register name .exporter, .setResources specs] <+: x.requests := by
  obtain ⟨y, z, -, hlog, ⟨e, -, -, rfl⟩ | ⟨-, hrest⟩⟩ :=
    Attempt.goes_on h hrun hs hfirst
  · exact hlog ▸ List.prefix_refl _
  · have hall := reconcileAll_prefix a.around specs a.later z
    rw [hrest, hlog] at hall
    exact hall

/-- What was published last is what was asked for last. -/
theorem Attempt.last_of_ok {published : List ResourceSpec}
    (hok : result = .ok published) :
    x.requests.getLast? = some (.setResources published) := by
  obtain ⟨y, z, -, hlog, ⟨e, -, rfl, -⟩ | ⟨-, hrest⟩⟩ :=
    Attempt.goes_on h hrun hs hfirst
  · cases hok
  · have hlast : z.requests.getLast? = some (.setResources specs) := by
      rw [hlog]
      rfl
    have hall := reconcileAll_last hlast
      ((congrArg Prod.fst hrest).trans hok)
    rw [hrest] at hall
    exact hall

theorem Attempt.standing (hnd : ∀ found, .ok found ∈ a.first :: a.later →
      (found.map (·.idFor name)).Nodup) :
    Standing id name (latest specs a.later) (result, x) := by
  obtain ⟨y, z, hseated, -, hgo⟩ := Attempt.goes_on h hrun hs hfirst
  have hfound : Standing id name specs
      (publish (Seat.request a.around) specs y) :=
    publish_standing hseated (hnd specs (hfirst ▸ List.mem_cons_self))
  rcases hgo with ⟨e, hpublish, rfl, rfl⟩ | ⟨hpublish, hrest⟩
  · rw [hpublish] at hfound
    cases hfound with
    | ended h hgone => exact .ended h hgone
  · rw [hpublish] at hfound
    cases hfound with
    | live hz hp hc =>
      rw [← hrest]
      exact reconcileAll_standing hz hp hc fun found hmem =>
        hnd found (List.mem_cons_of_mem _ hmem)

end Found

end Listed

/-- The coordinator lists what an exporter has found last. Whatever was
published in earlier sessions, a session begins with the publication of
all that is found first, and if nothing is found, with nothing. As long as
it is live it goes on, and there is listed under the exporter's name what
was found by the latest look that did not fail, and nothing else. One look
more asks for a publication iff it finds something else than what was
published last. -/
theorem scans_followed (settings : Coordinator.Settings) (name : String)
    (earlier : List Attempt) (a : Attempt) {id : SessionId}
    (hs : (a.outcome name (Attempt.course name (.new settings)
      earlier)).2.session = some id) :
    let s := Attempt.course name (.new settings) earlier
    let result := (a.outcome name s).1
    let x := (a.outcome name s).2
    (∀ f, a.first = .error f → x.requests = [.register name .exporter])
      ∧ (∀ specs, a.first = .ok specs →
        [.register name .exporter, .setResources specs] <+: x.requests)
      ∧ (∀ published, result = .ok published →
        x.requests.getLast? = some (.setResources published)
          ∧ ∀ scan, ((a.longer scan).outcome name s).2.requests
            = match scan with
              | .ok found =>
                if samePublication found published then x.requests
                else x.requests ++ [.setResources found]
              | .error _ => x.requests)
      ∧ ((∀ specs, .ok specs ∈ a.first :: a.later →
          (specs.map (·.idFor name)).Nodup) →
        ∀ after : List Input, (∀ input ∈ after, ¬ input.Publishes id) →
        (x.state.run after).isLive id = true →
        ∀ specs, a.first = .ok specs → (∃ published, result = .ok published)
          ∧ (x.state.run after).inventory.Lists name
            (latest specs a.later)) := by
  intro s result x
  have h : Sound none s := Attempt.course_sound (.new settings) name earlier
  have hrun : a.outcome name s = (result, x) := rfl
  refine ⟨fun f hfirst => (Attempt.of_error h hrun hs hfirst).2,
    fun specs => Attempt.requests_of_ok h hrun hs, ?_, ?_⟩
  · intro published hok
    refine ⟨?_, fun scan => ?_⟩
    · cases hfirst : a.first with
      | error f =>
        obtain ⟨⟨e, he⟩, -⟩ := Attempt.of_error h hrun hs hfirst
        cases he.symm.trans hok
      | ok specs => exact Attempt.last_of_ok h hrun hs hfirst hok
    · rw [Attempt.outcome_longer, hrun, hok]
      dsimp only
      rw [reconcile_requests]
      cases scan with
      | error f => exact List.append_nil _
      | ok found =>
        unfold republication?
        dsimp only
        split
        · exact List.append_nil _
        · rfl
  · intro hnd after hafter hlive specs hfirst
    exact (Attempt.standing h hrun hs hfirst hnd).lists hafter hlive

/-- An exporter that has published two resources loses its session. In the
next one it publishes what it then finds, finds the same after a look that
has failed, and something else at last, while a client creates a place and
acquires it. -/
theorem scans_followed_rack :
    let noon : Moment := ⟨0, ⟨2024, 1, 1, 12, 0, 0, 0⟩⟩
    let led : ResourceSpec := ⟨"rack", "led", .sysfsGpio 7⟩
    let fan : ResourceSpec := ⟨"rack", "fan", .sysfsGpio 4⟩
    let any : ResourcePattern := ⟨everything, everything, everything, none⟩
    let lost : Attempt := ⟨⟨fun _ => [], fun _ => noon⟩, .ok [led],
      [.ok [fan, led]]⟩
    let calls : Nat → List Input
      | 0 => [.disconnect 1 noon]
      | 2 => [.register "alice" .client noon,
        .execute 3 (.createPlace "board" [any] .empty) noon]
      | _ => []
    let a : Attempt := ⟨⟨calls, fun _ => noon⟩, .ok [led],
      [.error (.of "busy"), .ok [led], .ok [⟨"rack", "tap", .sysfsGpio 3⟩,
        ⟨"rack", "led", .sysfsGpio 8⟩]]⟩
    let x := (a.outcome "bench"
      (Attempt.course "bench" (.new {}) [lost])).2
    let after : List Input :=
      [.execute 3 (.acquire "board") noon, .sweep noon]
    x.session = some 2
      ∧ x.requests = [.register "bench" .exporter, .setResources [led],
        .setResources [⟨"rack", "tap", .sysfsGpio 3⟩,
          ⟨"rack", "led", .sysfsGpio 8⟩]]
      ∧ (x.state.run after).inventory.all.map (fun r =>
          (r.id.name, r.params, r.acquired))
        = [("led", .sysfsGpio 8, true), ("tap", .sysfsGpio 3, false)]
      ∧ (x.state.run after).inventory.Lists "bench"
        [⟨"rack", "tap", .sysfsGpio 3⟩, ⟨"rack", "led", .sysfsGpio 8⟩] := by
  intro noon led fan any lost calls a x after
  obtain ⟨hs, hlog, hlisted, hlive⟩ : x.session = some 2
      ∧ x.requests = [.register "bench" .exporter, .setResources [led],
        .setResources [⟨"rack", "tap", .sysfsGpio 3⟩,
          ⟨"rack", "led", .sysfsGpio 8⟩]]
      ∧ (x.state.run after).inventory.all.map (fun r =>
          (r.id.name, r.params, r.acquired))
        = [("led", .sysfsGpio 8, true), ("tap", .sysfsGpio 3, false)]
      ∧ (x.state.run after).isLive 2 = true := by
    decide +kernel +revert
  refine ⟨hs, hlog, hlisted, ?_⟩
  have hnd : ∀ specs, .ok specs ∈ a.first :: a.later →
      (specs.map (·.idFor "bench")).Nodup := by
    intro specs hmem
    simp only [a, List.mem_cons, List.not_mem_nil, or_false, reduceCtorEq,
      Except.ok.injEq, false_or] at hmem
    rcases hmem with rfl | rfl | rfl <;> decide
  have hafter : ∀ input ∈ after, ¬ input.Publishes 2 :=
    List.forall_mem_cons.2 ⟨nofun, List.forall_mem_cons.2 ⟨nofun, nofun⟩⟩
  exact ((scans_followed {} "bench" [lost] a hs).2.2.2 hnd after hafter
    hlive [led] rfl).2

end Exporter

end LabLease
