/-
A replica that is given changes one after the other.

# Which part a change is about

A change touches one of the three tables. Changes of one kind in a row
touch one table only, and what becomes of that table is a matter of look-
ups: `applyAll_reservations` and its like say so for each kind, so that a
list of changes can be read part by part.
-/
import LabLease.Client.Replica
import LabLease.Proofs.Coordinator.Emission
import LabLease.Proofs.Registry.Queue

namespace LabLease.Replica

variable (r : Replica) (cs ds : List Change)

/-- Takes over several changes. -/
def applyAll (r : Replica) (cs : List Change) : Replica :=
  cs.foldl applyChange r

theorem applyAll_append :
    r.applyAll (cs ++ ds) = (r.applyAll cs).applyAll ds :=
  List.foldl_append

-- ============================================================== numbering

/-- A change does not look at the number that was applied last. -/
theorem applyAll_with_lastEvent (n : Option Nat) :
    { r with lastEvent := n }.applyAll cs
      = { r.applyAll cs with lastEvent := n } := by
  induction cs generalizing r with
  | nil => rfl
  | cons c cs ih =>
    show ({ r with lastEvent := n }.applyChange c).applyAll cs = _
    have hc : { r with lastEvent := n }.applyChange c
        = { r.applyChange c with lastEvent := n } := by
      cases c <;> rfl
    rw [hc, ih]
    rfl

theorem applyFrom_numbered {n : Nat} (h : r.lastEvent = some n)
    (count : Nat) :
    r.applyFrom count (Coordinator.numbered n cs)
      = (.ok (count + cs.length),
        { r.applyAll cs with lastEvent := some (n + cs.length) }) := by
  induction cs generalizing r n count with
  | nil =>
    show (_, _) = (_, { r with lastEvent := some n })
    rw [← h]
    rfl
  | cons c cs ih =>
    have hverdict : verdict r.lastEvent (n + 1) = .next := by
      rw [h]
      unfold verdict
      simp
    have hlast : n + 1 + cs.length = n + (c :: cs).length := by
      rw [List.length_cons]
      omega
    have hcount : count + 1 + cs.length = count + (c :: cs).length := by
      rw [List.length_cons]
      omega
    unfold Coordinator.numbered applyFrom
    rw [hverdict]
    dsimp only
    rw [ih { r.applyChange c with lastEvent := some (n + 1) } rfl,
      applyAll_with_lastEvent, hlast, hcount]
    rfl

/-- Events that follow on the last one are all applied. -/
theorem applyEvents_numbered {n : Nat} (h : r.lastEvent = some n) :
    r.applyEvents (Coordinator.numbered n cs)
      = (.ok cs.length,
        { r.applyAll cs with lastEvent := some (n + cs.length) }) := by
  have hfrom := applyFrom_numbered r cs h 0
  rw [Nat.zero_add] at hfrom
  exact hfrom

-- =============================================================== one kind

/-- Reservations in a row: of each id the last one counts, as far as
pending ones are concerned. -/
theorem applyAll_reservations (rs : List Reservation) :
    ∃ t, r.applyAll (rs.map .reservation) = { r with reservations := t }
      ∧ ∀ id, Queue.pendingOnly (t.get? id)
          = Queue.told id (Queue.pendingOnly (r.reservations.get? id)) rs := by
  induction rs generalizing r with
  | nil => exact ⟨r.reservations, rfl, fun _ => rfl⟩
  | cons x rs ih =>
    obtain ⟨t, ht, hget⟩ := ih (r.applyChange (.reservation x))
    refine ⟨t, ht, fun id => ?_⟩
    rw [hget]
    show Queue.told id (Queue.pendingOnly
      ((r.reservations.insert x.id x).get? id)) rs = _
    rw [Table.get?_insert]
    unfold Queue.told
    rw [List.foldl_cons]
    congr 1
    split <;> rfl

end LabLease.Replica
