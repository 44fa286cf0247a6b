/-
The course of the cascades: the end of a session and the sweep are runs
of moves.

The one thing to show beyond unfolding is that the loop over the places
of a session that ends leaves it none (`foldl_releaseFrom_heldBy`): the
loop takes the names from a listing and a release goes by name, so this
needs the places to be filed under their names.

# What a course may touch

A session that ends gives back the places that it holds and no others
(`Departure`). A sweep ends sessions that were silent when it began and
takes places back that are overdue when it inspects them (`Sweeps`),
although it looks at one place after the other: what it does to one place
leaves the timers of the others alone.
-/
import LabLease.Coordinator.Sweep
import LabLease.Proofs.Coordinator.Soundness

namespace LabLease.Coordinator

variable {l l' : Option SessionId} {s t : State} {kinds : Kind → Prop}

namespace Moves

/-- A loop whose every turn is a run of moves is one. -/
theorem foldl {α : Type} {f : State → α → State} {as : List α}
    (hf : ∀ a ∈ as, ∀ s, Sound l s → Moves kinds l s l (f s a))
    (h : Sound l s) : Moves kinds l s l (as.foldl f s) := by
  induction as generalizing s with
  | nil => exact .refl
  | cons a as ih =>
    have hstep := hf a List.mem_cons_self s h
    exact hstep.trans (ih (fun b hb => hf b (List.mem_cons_of_mem a hb))
      (h.moves hstep))

/-- The changes of an inventory are taken over: a restocking and, unless
there were none, a rescan. -/
theorem applyChanges {exporter : String} {owner : SessionId}
    {inv : Inventory} {changes : List ResourceChange} (now : Moment)
    (hr : inv.Restock exporter owner t.inventory changes)
    (hk : kinds (.rescan now))
    (h : Moves kinds l s l' (t.restocked owner changes)) :
    Moves kinds l s l' (t.applyChanges owner changes now) := by
  rw [State.applyChanges_eq t owner now hr.current hr.nodup]
  split
  · exact h
  · exact h.tail hk (.rescan now [])

theorem finishRelease {place : String} {holder : Option Holder}
    {freed : List ResourceId} (now : Moment) (hk : kinds (.rescan now))
    (h : Moves kinds l s l' (t.vacated place holder freed)) :
    Moves kinds l s l' (t.finishRelease place holder freed now) := by
  rw [State.finishRelease_eq]
  exact h.tail hk (.rescan now [])

/-- A place is taken from whoever holds it. -/
theorem releaseFrom (l : Option SessionId) (s : State) {place : String}
    (session : SessionId) (holder : Option Holder) (now : Moment)
    (hk : kinds (.rescan now))
    (hplace : ∀ p held, s.places.entries.get? place = some p →
      p.holder = some held → kinds (.vacate place held)
        ∧ (holder = some held
          ∨ s.roster.sessions.get? held.session = none)) :
    Moves kinds l s l (s.releaseFrom place session holder now) := by
  unfold State.releaseFrom
  cases h : s.places.release place session true now.date with
  | error e => exact .refl
  | ok out =>
    obtain ⟨p, held, hp, hh, -⟩ := Places.release_ok h
    obtain ⟨hkind, hrec⟩ := hplace p held hp hh
    exact (single hkind (.vacate holder hp hh hrec h)).finishRelease now hk

end Moves

namespace State

theorem finishRelease_places (place : String) (holder : Option Holder)
    (freed : List ResourceId) (now : Moment) :
    (s.finishRelease place holder freed now).places = s.places := by
  rw [finishRelease_eq, rescan_places]
  exact emitAll_places _ _

theorem finishRelease_roster (place : String) (holder : Option Holder)
    (freed : List ResourceId) (now : Moment) :
    (s.finishRelease place holder freed now).roster
      = s.roster.vacated place holder := by
  rw [finishRelease_eq, rescan_roster]
  exact emitAll_roster _ _

/-- A release on behalf of nobody changes no record. -/
theorem releaseFrom_roster (place : String) (session : SessionId)
    (now : Moment) :
    (s.releaseFrom place session none now).roster = s.roster := by
  unfold releaseFrom
  cases s.places.release place session true now.date with
  | error e => rfl
  | ok out => exact finishRelease_roster place none out.1 now

-- ======================================================== end of a session

/-- What is still held after a place was released is another place, and
was held before. -/
theorem releaseFrom_held {place n : String} {by' : SessionId}
    {holder : Option Holder} {now : Moment} {p : Place}
    (hp : (s.releaseFrom place by' holder now).places.entries.get? n
      = some p)
    {held : Holder} (hh : p.holder = some held) :
    n ≠ place ∧ s.places.entries.get? n = some p := by
  unfold releaseFrom at hp
  cases h : s.places.release place by' true now.date with
  | error e =>
    rw [h] at hp
    refine ⟨?_, hp⟩
    intro heq
    subst heq
    -- it is held, so the release would have worked
    rw [Places.release_of_held by' now.date hp hh] at h
    cases h
  | ok out =>
    rw [h] at hp
    obtain ⟨q, held, -, -, -, -, hps⟩ := Places.release_ok h
    rw [finishRelease_places] at hp
    rw [show ({ s with places := out.2 } : State).places = out.2 from rfl,
      hps, Table.get?_insert] at hp
    split at hp
    · cases hp
      cases hh
    · next hne => exact ⟨Ne.symm hne, hp⟩

theorem foldl_releaseFrom_held {by' : SessionId}
    {holder : Option Holder} {now : Moment} {names : List String}
    {n : String} {p : Place}
    (hp : (names.foldl (fun s place =>
        s.releaseFrom place by' holder now) s).places.entries.get? n
      = some p)
    {held : Holder} (hh : p.holder = some held) :
    n ∉ names ∧ s.places.entries.get? n = some p := by
  induction names generalizing s with
  | nil => exact ⟨List.not_mem_nil, hp⟩
  | cons name names ih =>
    obtain ⟨hnot, hget⟩ := ih hp
    obtain ⟨hne, hget⟩ := releaseFrom_held hget hh
    refine ⟨?_, hget⟩
    rw [List.mem_cons, not_or]
    exact ⟨hne, hnot⟩

/-- After the loop over its places a session holds none. -/
theorem foldl_releaseFrom_heldBy (hf : s.places.Filed)
    (session : SessionId) (holder : Option Holder) (now : Moment) :
    ((s.places.heldBy session).foldl (fun s place =>
        s.releaseFrom place session holder now) s).places.heldBy session
      = [] := by
  refine List.eq_nil_iff_forall_not_mem.2 fun name hname => ?_
  obtain ⟨n, p, hp, hh, -⟩ := Places.mem_heldBy.1 hname
  obtain ⟨held, hheld, -⟩ := (Option.any_eq_true _ _).1 hh
  obtain ⟨hnot, hget⟩ := foldl_releaseFrom_held hp hheld
  exact hnot (Places.mem_heldBy.2 ⟨n, p, hget, hh, hf n p hget⟩)

/-- Whoever ends is struck off, and nobody else's record is changed. -/
theorem endSession_roster (s : State) (session : SessionId)
    (now : Moment) :
    (s.endSession session now).roster = s.roster.remove session := by
  have hr := s.inventory.removeOwner_restock "" session
  have hgone : (s.roster.remove session).sessions.get? session = none := by
    rw [Roster.get?_remove, if_pos rfl]
  have hloop : ∀ (names : List String) (t : State),
      (names.foldl (fun s place => s.releaseFrom place session none now)
        t).roster = t.roster := by
    intro names
    induction names with
    | nil => exact fun _ => rfl
    | cons name names ih =>
      intro t
      rw [List.foldl_cons, ih, releaseFrom_roster]
  unfold endSession teardown emitReservations
  dsimp only
  rw [rescan_roster, emitAll_roster, hloop,
    applyChanges_roster _ session now hr.current hr.nodup,
    Roster.noteAll_of_gone hgone]

theorem endSession_gone (s : State) (session : SessionId)
    (now : Moment) :
    (s.endSession session now).roster.sessions.get? session = none := by
  rw [endSession_roster, Roster.get?_remove, if_pos rfl]

end State

/-- What may happen while a session ends. -/
inductive Departure (session : SessionId) (now : Moment) : Kind → Prop
  | leave : Departure session now (.leave session)
  | rescan : Departure session now (.rescan now)
  | vacate (place : String) {held : Holder} (h : held.session = session) :
    Departure session now (.vacate place held)
  | forget : Departure session now (.forget session)

namespace Moves

/-- The loop over the places of a session that ends. A place further down
the list may have been released meanwhile, but it has no new holder. -/
theorem giveBack {session : SessionId} {names : List String}
    (now : Moment) (hrescan : kinds (.rescan now))
    (hvacate : ∀ place held, held.session = session →
      kinds (.vacate place held))
    (hgone : s.roster.sessions.get? session = none)
    (h : ∀ n ∈ names, ∀ p held, s.places.entries.get? n = some p →
      p.holder = some held → held.session = session) :
    Moves kinds l s l (names.foldl (fun s place =>
      s.releaseFrom place session none now) s) := by
  induction names generalizing s with
  | nil => exact .refl
  | cons name names ih =>
    have hone : Moves kinds l s l
        (s.releaseFrom name session none now) :=
      releaseFrom l s session none now hrescan fun p held hp hh => by
        have hs := h name List.mem_cons_self p held hp hh
        exact ⟨hvacate name held hs, Or.inr (hs ▸ hgone)⟩
    have hgone' : (s.releaseFrom name session none now).roster.sessions.get?
        session = none := by
      rw [State.releaseFrom_roster]
      exact hgone
    refine hone.trans (ih hgone' fun n hn p held hp hh => ?_)
    exact h n (List.mem_cons_of_mem name hn) p held
      (State.releaseFrom_held hp hh).2 hh

/-- The end of a session: it leaves, gives its places back and is
forgotten, and what it had is offered to others. -/
theorem endSession (h : Sound none s) (session : SessionId)
    (now : Moment) :
    ∃ u t, Move (.leave session) none s (some session) u
      ∧ Moves (Departure session now) (some session) u none t
      ∧ s.endSession session now = t.rescan now [] := by
  unfold State.endSession State.teardown
  have hleave := Move.leave (s := s) session
  have hgone := h.move hleave
  have hchanges : Moves (Departure session now) _ _ _ _ :=
    applyChanges (l := some session) (t := { s with
      roster := s.roster.remove session
      inventory := (s.inventory.removeOwner session).1 }) now
      (s.inventory.removeOwner_restock "" session) .rescan .refl
  have hsound := hgone.moves hchanges
  have hrecord : (s.roster.remove session).sessions.get? session = none := by
    rw [Roster.get?_remove, if_pos rfl]
  have hnone := State.foldl_releaseFrom_heldBy hsound.places session none
    now
  refine ⟨_, _, hleave, (hchanges.trans (giveBack (l := some session) now
    .rescan (fun place _ => .vacate place) ?_
    fun _ hn _ _ => hsound.places.session_of_heldBy hn)).tail .forget
      (.forget hnone), rfl⟩
  rw [State.applyChanges_roster _ session now
    (s.inventory.removeOwner_restock "" session).current
    (s.inventory.removeOwner_restock "" session).nodup,
    Roster.noteAll_of_gone hrecord]
  exact hrecord

theorem of_endSession (h : Sound none s) (session : SessionId)
    (now : Moment) (hk : ∀ k, Departure session now k → kinds k) :
    Moves kinds none s none (s.endSession session now) := by
  obtain ⟨u, t, hleave, hm, heq⟩ := endSession h session now
  rw [heq]
  exact (((single .leave hleave).trans hm).tail .rescan
    (.rescan now [])).mono hk

end Moves

-- ============================================================== the sweep

namespace State

/-- The state in which a sweep inspects the places. -/
def inspected (s : State) (now : Moment) : State :=
  (s.evictSilent now).expireReservations now

/-- Whether a place misses resources and has missed them for too long. -/
def Overdue (s : State) (now : Moment) (name : String) : Prop :=
  ∃ limit p, s.settings.orphanLimit = some limit
    ∧ s.places.entries.get? name = some p
    ∧ (p.view s.inventory).isIncomplete = true
    ∧ limit ≤ now.since ((s.incompleteSince.get? name).getD now.ticks)

theorem sweep_eq (s : State) (now : Moment) :
    s.sweep now = (s.inspected now).releaseOrphans now := rfl

theorem rescan_incompleteSince (s : State) (now : Moment)
    (skip : List String) :
    (s.rescan now skip).incompleteSince = s.incompleteSince :=
  emitAll_incompleteSince _ _

/-- A release stops the timer of its own place only. -/
theorem releaseFrom_incompleteSince {place n : String}
    (session : SessionId) (holder : Option Holder) (now : Moment)
    (hne : n ≠ place) :
    (s.releaseFrom place session holder now).incompleteSince.get? n
      = s.incompleteSince.get? n := by
  unfold releaseFrom
  cases s.places.release place session true now.date with
  | error e => rfl
  | ok out =>
    dsimp only
    rw [finishRelease_eq, rescan_incompleteSince]
    unfold vacated
    rw [emitAll_incompleteSince]
    exact (Table.get?_erase ..).trans (if_neg (Ne.symm hne))

theorem checkOrphan_incompleteSince {place n : String} (limit : Nat)
    (now : Moment) (hne : n ≠ place) :
    (s.checkOrphan limit now place).incompleteSince.get? n
      = s.incompleteSince.get? n := by
  have hnote : (s.incompleteSince.insert place
        ((s.incompleteSince.get? place).getD now.ticks)).get? n
      = s.incompleteSince.get? n :=
    (Table.get?_insert ..).trans (if_neg (Ne.symm hne))
  unfold checkOrphan
  dsimp only
  split
  · exact hnote
  · split
    · split
      · rw [releaseFrom_incompleteSince _ _ _ hne]
        exact hnote
      · exact hnote
    · exact hnote

/-- The names of the places that miss resources. -/
def incomplete (s : State) : List String :=
  ((s.places.views s.inventory).filter (·.isIncomplete)).map (·.place.name)

theorem mem_incomplete (hf : s.places.Filed) {name : String} :
    name ∈ s.incomplete ↔ ∃ p, s.places.entries.get? name = some p
      ∧ (p.view s.inventory).isIncomplete = true := by
  unfold incomplete Places.views
  rw [List.mem_map]
  constructor
  · intro hex
    obtain ⟨v, hv, rfl⟩ := hex
    obtain ⟨hv, hmiss⟩ := List.mem_filter.1 hv
    obtain ⟨p, hp, rfl⟩ := List.mem_map.1 hv
    obtain ⟨n, hn⟩ := Places.mem_all.1 hp
    refine ⟨p, ?_, hmiss⟩
    rw [Place.view_place, hf n p hn]
    exact hn
  · intro hex
    obtain ⟨p, hp, hmiss⟩ := hex
    refine ⟨p.view s.inventory, List.mem_filter.2 ⟨?_, hmiss⟩, ?_⟩
    · exact List.mem_map_of_mem (Places.mem_all.2 ⟨name, hp⟩)
    · exact hf name p hp

theorem nodup_incomplete (hf : s.places.Filed) : s.incomplete.Nodup := by
  have hnames : (s.places.views s.inventory).map (·.place.name)
      = s.places.all.map (·.name) := by
    unfold Places.views
    rw [List.map_map]
    rfl
  refine List.Nodup.sublist (List.filter_sublist.map _) ?_
  rw [hnames]
  exact hf.nodup_names

theorem releaseOrphans_eq {limit : Nat}
    (hlimit : s.settings.orphanLimit = some limit) (now : Moment) :
    s.releaseOrphans now = s.incomplete.foldl (checkOrphan limit now)
      { s with incompleteSince := s.incompleteSince.filter fun name _ =>
        s.incomplete.contains name } := by
  unfold releaseOrphans
  rw [hlimit]
  rfl

theorem releaseOrphans_none (hlimit : s.settings.orphanLimit = none)
    (now : Moment) : s.releaseOrphans now = s := by
  unfold releaseOrphans
  rw [hlimit]

/-- The timers that are dropped are those of other places. -/
theorem get?_keptTimers {name : String} (h : name ∈ s.incomplete) :
    (s.incompleteSince.filter fun name _ =>
      s.incomplete.contains name).get? name
        = s.incompleteSince.get? name := by
  have hin : s.incomplete.contains name = true :=
    List.contains_iff_mem.2 h
  rw [Table.get?_filter, hin]
  cases s.incompleteSince.get? name <;> rfl

end State

/-- What may happen in a sweep. -/
inductive Sweeps (s : State) (now : Moment) : Kind → Prop
  | aside : Sweeps s now .aside
  | rescan : Sweeps s now (.rescan now)
  | expire : Sweeps s now (.expire now)
  /-- A session that was silent for too long ends. -/
  | evict {session : SessionId} {k : Kind}
      (hs : session ∈ s.roster.expired now) (h : Departure session now k) :
      Sweeps s now k
  /-- A place that is overdue is taken back. -/
  | reclaim {place : String} (held : Holder)
      (h : (s.inspected now).Overdue now place) :
      Sweeps s now (.vacate place held)

namespace Moves

theorem evict (h : Sound none s) {session : SessionId} (now : Moment)
    (haside : kinds .aside) (hk : ∀ k, Departure session now k → kinds k) :
    Moves kinds none s none (s.evict session now) := by
  unfold State.evict
  split
  · have hcount := single (l := none) haside (.aside (s := s)
      (s.notices ++ [(session, "heartbeat timeout")]) s.incompleteSince
      (s.evictions + 1))
    exact hcount.trans (of_endSession (h.moves hcount) session now hk)
  · exact .refl

theorem evictSilent (h : Sound none s) (now : Moment) :
    Moves (Sweeps s now) none s none (s.evictSilent now) :=
  foldl (fun _ hid _ ht => evict ht now .aside fun _ => .evict hid) h

theorem expireReservations (l : Option SessionId) (s : State)
    (now : Moment) (hk : kinds (.rescan now)) (hexp : kinds (.expire now)) :
    Moves kinds l s l (s.expireReservations now) := by
  unfold State.expireReservations
  have hexpire := single (l := l) hexp (.expire (s := s) now)
  show Moves kinds l s l (if (s.queue.expire now).1.changed.isEmpty then
    { s with queue := (s.queue.expire now).2 } else _)
  split
  · next hnil =>
    rw [List.isEmpty_iff.1 hnil] at hexpire
    exact hexpire
  · exact hexpire.tail hk (.rescan now _)

theorem checkOrphan (l : Option SessionId) (limit : Nat) (now : Moment)
    (s : State) {name : String} (haside : kinds .aside)
    (hk : kinds (.rescan now))
    (hplace : limit ≤ now.since
        ((s.incompleteSince.get? name).getD now.ticks) →
      ∀ held, kinds (.vacate name held)) :
    Moves kinds l s l (s.checkOrphan limit now name) := by
  have hnote := single (l := l) haside (.aside (s := s) s.notices
    (s.incompleteSince.insert name
      ((s.incompleteSince.get? name).getD now.ticks)) s.evictions)
  unfold State.checkOrphan
  dsimp only
  split
  · exact hnote
  · next hdue =>
    split
    · next hfound =>
      split
      · next hheld =>
        refine hnote.trans (releaseFrom l _ _ _ now hk
          fun p held hp hh => ⟨hplace (Nat.not_lt.1 hdue) held, Or.inl ?_⟩)
        have hget := Places.get_eq_ok.1 hfound
        rw [hp] at hget
        cases hget
        exact hheld.symm.trans hh
      · exact hnote
    · exact hnote

/-- The loop over the places that miss resources. What is due is read
from a timer that the turns before have left alone. -/
theorem checkOrphans (limit : Nat) (now : Moment) {names : List String}
    (hnd : names.Nodup) (haside : kinds .aside) (hk : kinds (.rescan now))
    (hplace : ∀ n ∈ names, limit ≤ now.since
        ((s.incompleteSince.get? n).getD now.ticks) →
      ∀ held, kinds (.vacate n held)) :
    Moves kinds l s l (names.foldl (State.checkOrphan limit now) s) := by
  induction names generalizing s with
  | nil => exact .refl
  | cons name names ih =>
    obtain ⟨hnot, hnd⟩ := List.nodup_cons.1 hnd
    have hone := checkOrphan l limit now s haside hk
      (hplace name List.mem_cons_self)
    refine hone.trans (ih hnd fun n hn => ?_)
    have hne : n ≠ name := fun heq => hnot (heq ▸ hn)
    rw [State.checkOrphan_incompleteSince limit now hne]
    exact hplace n (List.mem_cons_of_mem name hn)

theorem releaseOrphans (h : Sound l s) (now : Moment)
    (haside : kinds .aside) (hk : kinds (.rescan now))
    (hplace : ∀ n, s.Overdue now n → ∀ held, kinds (.vacate n held)) :
    Moves kinds l s l (s.releaseOrphans now) := by
  cases hlimit : s.settings.orphanLimit with
  | none =>
    rw [State.releaseOrphans_none hlimit]
    exact .refl
  | some limit =>
    rw [State.releaseOrphans_eq hlimit]
    have hnote := single (l := l) haside (.aside (s := s) s.notices
      (s.incompleteSince.filter fun name _ => s.incomplete.contains name)
      s.evictions)
    refine hnote.trans (checkOrphans limit now
      (State.nodup_incomplete h.places) haside hk fun n hn hdue => ?_)
    obtain ⟨p, hp, hmiss⟩ := (State.mem_incomplete h.places).1 hn
    refine hplace n ⟨limit, p, hlimit, hp, hmiss, ?_⟩
    rw [← State.get?_keptTimers hn]
    exact hdue

theorem inspected (h : Sound none s) (now : Moment) :
    Moves (Sweeps s now) none s none (s.inspected now) :=
  (evictSilent h now).trans
    (expireReservations none _ now .rescan .expire)

theorem sweep (h : Sound none s) (now : Moment) :
    Moves (Sweeps s now) none s none (s.sweep now) := by
  have hseen := inspected h now
  rw [State.sweep_eq]
  exact hseen.trans (releaseOrphans (h.moves hseen) now .aside .rescan
    fun _ hdue held => .reclaim held hdue)

end Moves

end LabLease.Coordinator
