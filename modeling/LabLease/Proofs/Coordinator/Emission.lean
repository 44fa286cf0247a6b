/-
Emission in closed form: whatever a cascade emits is one list of changes,
and apart from the journal and the events to be sent the state is what it
would be without.

# How a cascade is put into closed form

`emitAll_eq` moves an emission to the outside of a state, so that a
record update before or after it can be read past it. Emissions in a row
are joined by `emitAll_append`. What remains is `t.emitAll cs` for a `t`
that differs from the state at the start in registries only.
-/
import LabLease.Coordinator.State
import LabLease.Proofs.Registry.Places

namespace LabLease.Coordinator

-- ============================================================ numbering

/-- Changes as the events that follow on a number. -/
def numbered : Nat → List Change → List Event
  | _, [] => []
  | n, c :: cs => ⟨n + 1, c⟩ :: numbered (n + 1) cs

/-- The second list goes on from the number that the first one reached. -/
theorem numbered_append (n : Nat) (cs ds : List Change) :
    numbered n (cs ++ ds)
      = numbered n cs ++ numbered (n + cs.length) ds := by
  induction cs generalizing n with
  | nil => rfl
  | cons c cs ih =>
    rw [List.cons_append, numbered, ih, numbered, List.cons_append,
      List.length_cons, Nat.add_right_comm, Nat.add_assoc n]

/-- Every change becomes one event. -/
@[simp] theorem length_numbered (n : Nat) (cs : List Change) :
    (numbered n cs).length = cs.length := by
  induction cs generalizing n with
  | nil => rfl
  | cons c cs ih =>
    rw [numbered, List.length_cons, ih, List.length_cons]

/-- The numbers leave no gap and repeat none. -/
theorem map_seq_numbered (n : Nat) (cs : List Change) :
    (numbered n cs).map (·.seq) = List.range' (n + 1) cs.length := by
  induction cs generalizing n with
  | nil => rfl
  | cons c cs ih =>
    rw [numbered, List.map_cons, ih, List.length_cons,
      List.range'_succ]

/-- Numbering loses no change and keeps the order. -/
theorem map_change_numbered (n : Nat) (cs : List Change) :
    (numbered n cs).map (·.change) = cs := by
  induction cs generalizing n with
  | nil => rfl
  | cons c cs ih => rw [numbered, List.map_cons, ih]

/-- The next number in words of 64 bits, while there is one. -/
theorem toNat_next {n : UInt64} (h : n.toNat + 1 < UInt64.size) :
    (n + 1).toNat = n.toNat + 1 := by
  rw [UInt64.toNat_add]
  exact Nat.mod_eq_of_lt h

namespace Journal

/-- The journal after some changes. -/
def extend (j : Journal) (cs : List Change) : Journal :=
  cs.foldl (fun j c => (j.append c).2) j

/-- Changes may be appended in two goes. -/
theorem extend_append (j : Journal) (cs ds : List Change) :
    j.extend (cs ++ ds) = (j.extend cs).extend ds :=
  List.foldl_append

/-- The last number counts the changes, whatever the journal drops of
them. -/
@[simp] theorem extend_last (j : Journal) (cs : List Change) :
    (j.extend cs).last = j.last + cs.length := by
  induction cs generalizing j with
  | nil => rfl
  | cons c cs ih =>
    show ((j.append c).2.extend cs).last = _
    rw [ih, List.length_cons]
    show j.last + 1 + cs.length = _
    omega

end Journal

namespace State

variable (s : State) (cs ds : List Change)

-- ============================================================== emitAll

/-- An emission touches the journal and the events to be sent, and
nothing that a registry stores. -/
theorem emitAll_eq :
    s.emitAll cs = { s with
      journal := s.journal.extend cs
      pending := s.pending ++ numbered s.journal.last cs } := by
  induction cs generalizing s with
  | nil =>
    unfold numbered
    rw [List.append_nil]
    rfl
  | cons c cs ih =>
    show (s.emit c).emitAll cs = _
    rw [ih]
    show State.mk .. = State.mk ..
    congr 1
    show s.pending ++ [⟨s.journal.last + 1, c⟩]
      ++ numbered (s.journal.last + 1) cs = _
    rw [List.append_assoc]
    rfl

/-- Two emissions in a row are one. -/
theorem emitAll_append :
    (s.emitAll cs).emitAll ds = s.emitAll (cs ++ ds) :=
  List.foldl_append.symm

@[simp] theorem emitAll_nil : s.emitAll [] = s := rfl

@[simp] theorem emitAll_settings :
    (s.emitAll cs).settings = s.settings := by
  rw [emitAll_eq]

@[simp] theorem emitAll_inventory :
    (s.emitAll cs).inventory = s.inventory := by
  rw [emitAll_eq]

@[simp] theorem emitAll_places : (s.emitAll cs).places = s.places := by
  rw [emitAll_eq]

@[simp] theorem emitAll_queue : (s.emitAll cs).queue = s.queue := by
  rw [emitAll_eq]

@[simp] theorem emitAll_roster : (s.emitAll cs).roster = s.roster := by
  rw [emitAll_eq]

@[simp] theorem emitAll_notices :
    (s.emitAll cs).notices = s.notices := by
  rw [emitAll_eq]

@[simp] theorem emitAll_incompleteSince :
    (s.emitAll cs).incompleteSince = s.incompleteSince := by
  rw [emitAll_eq]

@[simp] theorem emitAll_evictions :
    (s.emitAll cs).evictions = s.evictions := by
  rw [emitAll_eq]

@[simp] theorem emitAll_journal :
    (s.emitAll cs).journal = s.journal.extend cs := by
  rw [emitAll_eq]

@[simp] theorem emitAll_pending :
    (s.emitAll cs).pending
      = s.pending ++ numbered s.journal.last cs := by
  rw [emitAll_eq]

/-- One change is a list of changes, so that all emissions have one
form. -/
theorem emit_eq (c : Change) : s.emit c = s.emitAll [c] := rfl

/-- So is what is said of some reservations. -/
theorem emitReservations_eq (rs : List Reservation) :
    s.emitReservations rs = s.emitAll (rs.map .reservation) := rfl

-- =============================================================== places

/-- The views of some places beside an inventory, as changes. -/
def shown (ps : Places) (inv : Inventory) (names : List String) :
    List Change :=
  names.filterMap fun name =>
    (ps.entries.get? name).map fun p => .place (p.view inv)

/-- A place that is stored has a view. -/
theorem view_eq_of_get? {ps : Places} {name : String} {p : Place}
    (hp : ps.entries.get? name = some p) (inv : Inventory) :
    ps.view inv name = .ok (p.view inv) := by
  unfold Places.view
  rw [Places.get_eq_ok.2 hp]
  rfl

/-- All views are taken beside one inventory, for a report of a place
changes none. -/
theorem emitPlaces_eq (names : List String) :
    s.emitPlaces names
      = s.emitAll (shown s.places s.inventory names) := by
  induction names generalizing s with
  | nil => rfl
  | cons name names ih =>
    unfold shown
    rw [List.filterMap_cons]
    unfold emitPlaces
    rw [List.foldl_cons]
    cases hp : s.places.entries.get? name with
    | none =>
      have hv : s.places.view s.inventory name
          = .error (.notFound s!"place '{name}'") := by
        unfold Places.view Places.get
        rw [hp]
        rfl
      rw [hv]
      exact ih s
    | some p =>
      rw [view_eq_of_get? hp]
      show (s.emit (.place (p.view s.inventory))).emitPlaces names = _
      rw [ih, emit_eq, emitAll_append, emitAll_places,
        emitAll_inventory]
      rfl

-- ================================================================ flags

/-- The changes that are reported when the flags of some resources are
set: one for each that was not set so. -/
def flips (b : Bool) :
    Inventory → List ResourceId → List ResourceChange
  | _, [] => []
  | inv, id :: ids =>
    (inv.setAcquired id b).2.toList ++ flips b (inv.flag [id] b) ids

/-- Marking one after another is marking all at once, and what is
reported follows the order of the ids. -/
theorem markAcquired_eq (ids : List ResourceId) (b : Bool) :
    s.markAcquired ids b
      = { s with inventory := s.inventory.flag ids b }.emitAll
          ((flips b s.inventory ids).map ResourceChange.toChange) := by
  induction ids generalizing s with
  | nil =>
    rw [Inventory.flag_nil]
    rfl
  | cons id ids ih =>
    unfold markAcquired
    rw [List.foldl_cons]
    have hfst := Inventory.setAcquired_fst s.inventory id b
    have hnone : (s.inventory.setAcquired id b).2 = none →
        s.inventory.flag [id] b = s.inventory :=
      Inventory.flag_of_setAcquired_snd_eq_none
    unfold flips
    rw [← List.singleton_append, Inventory.flag_append]
    cases h : s.inventory.setAcquired id b with
    | mk inv out =>
      rw [h] at hfst hnone
      cases out with
      | none =>
        show s.markAcquired ids b = _
        rw [ih, hnone rfl]
        rfl
      | some c =>
        show ({ s with inventory := inv }.emit c.toChange).markAcquired
          ids b = _
        rw [ih, emit_eq]
        simp only [emitAll_eq, ← hfst]
        rw [List.append_assoc]
        rfl

end State

end LabLease.Coordinator
