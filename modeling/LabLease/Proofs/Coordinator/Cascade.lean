/-
The cascades of the coordinator in closed form: what becomes of the
registries, and the one list of changes that is emitted for it.

Each of `restocked`, `vacated` and `occupied` is a cascade up to its last
step, the rescan, which is a step of its own wherever it stands.
-/
import LabLease.Coordinator.Action
import LabLease.Proofs.Coordinator.Emission
import LabLease.Proofs.Registry.Attendance

namespace LabLease

/-- The resource that a change leaves, if it leaves one. -/
def ResourceChange.resource? : ResourceChange → Option Resource
  | .upserted r => some r
  | .removed _ => none

/-- Whether a change says what the inventory says. -/
def ResourceChange.Current (inv : Inventory) (c : ResourceChange) : Prop :=
  inv.get? c.id = c.resource?

/-- Flags of other resources do not make it out of date. -/
theorem ResourceChange.Current.flag {inv : Inventory}
    {c : ResourceChange} (h : c.Current inv) {ids : List ResourceId}
    {b : Bool} (hnot : c.id ∉ ids) : c.Current (inv.flag ids b) := by
  unfold Current at h ⊢
  rw [Inventory.get?_flag_of_notMem hnot, h]

/-- What a change removes. -/
def ResourceChange.removed? : ResourceChange → Option ResourceId
  | .removed id => some id
  | .upserted _ => none

/-- What a publication or a withdrawal reports is what it leaves. -/
theorem Inventory.Restock.current {exporter : String} {owner : SessionId}
    {inv inv' : Inventory} {changes : List ResourceChange}
    (h : inv.Restock exporter owner inv' changes) :
    ∀ c ∈ changes, c.Current inv' := by
  intro c hc
  cases c with
  | upserted r =>
    exact Inventory.get?_eq_some.2 ⟨_, (h.upserted r hc).2, rfl⟩
  | removed id =>
    show (inv'.entries.get? id).map _ = none
    rw [(h.removed id hc).1]
    rfl

namespace Coordinator.State

variable (s : State)

/-- A rescan changes the queue and reports what it serves. -/
theorem rescan_eq (now : Moment) (skip : List String) :
    s.rescan now skip
      = { s with queue :=
            (s.queue.rescan s.inventory s.isFree skip now).2 }.emitAll
          ((s.queue.rescan s.inventory s.isFree skip now).1.map
            .reservation) :=
  rfl

@[simp] theorem rescan_inventory (now : Moment) (skip : List String) :
    (s.rescan now skip).inventory = s.inventory :=
  emitAll_inventory _ _

@[simp] theorem rescan_places (now : Moment) (skip : List String) :
    (s.rescan now skip).places = s.places :=
  emitAll_places _ _

@[simp] theorem rescan_roster (now : Moment) (skip : List String) :
    (s.rescan now skip).roster = s.roster :=
  emitAll_roster _ _

theorem rescan_queue (now : Moment) (skip : List String) :
    (s.rescan now skip).queue
      = (s.queue.rescan s.inventory s.isFree skip now).2 :=
  emitAll_queue _ _

-- ============================================================ restocking

/-- A change as it is reported: what an acquired place has bound is
acquired. -/
def settled (ps : Places) : ResourceChange → ResourceChange
  | .upserted r =>
    .upserted (if ps.isBound r.id then r.flagged true else r)
  | .removed id => .removed id

/-- The mark is no part of the id. -/
@[simp] theorem settled_id (ps : Places) (c : ResourceChange) :
    (settled ps c).id = c.id := by
  cases c with
  | removed id => rfl
  | upserted r =>
    show (if ps.isBound r.id then r.flagged true else r).id = r.id
    split
    · exact Resource.flagged_id r true
    · rfl

/-- The same resources are reported, in the same order. -/
theorem map_settled_id (ps : Places) (changes : List ResourceChange) :
    (changes.map (settled ps)).map (·.id)
      = changes.map ResourceChange.id := by
  rw [List.map_map]
  exact List.map_congr_left fun c _ => settled_id ps c

/-- Only what is published again can be marked. -/
theorem settled_resource? (ps : Places) (c : ResourceChange) :
    (settled ps c).resource?
      = c.resource?.map fun r =>
          if ps.isBound c.id then r.flagged true else r := by
  cases c <;> rfl

/-- Settled changes say what the inventory says once it is settled. -/
theorem settled_current {ps : Places} {inv : Inventory}
    {changes : List ResourceChange} (h : ∀ c ∈ changes, c.Current inv) :
    ∀ c ∈ changes.map (settled ps), c.Current
      (inv.flag ((changes.map ResourceChange.id).filter ps.isBound)
        true) := by
  intro c hc
  obtain ⟨d, hd, rfl⟩ := List.mem_map.1 hc
  have hcur := h d hd
  have hmem : d.id ∈ (changes.map ResourceChange.id).filter ps.isBound
      ↔ ps.isBound d.id = true := by
    rw [List.mem_filter]
    exact and_iff_right (List.mem_map_of_mem hd)
  unfold ResourceChange.Current at hcur ⊢
  rw [settled_id, settled_resource?, Inventory.get?_flag, hcur]
  simp only [hmem]

/-- One change: its resource is marked if a place has it bound, and the
session notes it. -/
theorem applyChange_eq (owner : SessionId) {c : ResourceChange}
    (h : c.Current s.inventory) :
    s.applyChange owner c
      = { s with
          inventory :=
            s.inventory.flag ([c.id].filter s.places.isBound) true
          roster := s.roster.edit owner (·.noted c) }.emitAll
          [(settled s.places c).toChange] := by
  cases c with
  | removed id =>
    have hsame : s.inventory.flag ([id].filter s.places.isBound) true
        = s.inventory := by
      refine Inventory.flag_of_forall fun k hk r hr => ?_
      rw [List.mem_singleton.1 (List.mem_of_mem_filter hk)] at hr
      cases (show s.inventory.get? id = none from h).symm.trans hr
    rw [show ResourceChange.id (.removed id) = id from rfl, hsame]
    rfl
  | upserted r =>
    have hr : s.inventory.get? r.id = some r := h
    rw [show ResourceChange.id (.upserted r) = r.id from rfl]
    unfold applyChange settled
    by_cases hb : s.places.isBound r.id = true
    · rw [List.filter_cons_of_pos hb, List.filter_nil]
      by_cases ha : r.acquired = true
      · have hsame : s.inventory.flag [r.id] true = s.inventory := by
          refine Inventory.flag_of_forall fun k hk r' hr' => ?_
          rw [List.mem_singleton.1 hk, hr] at hr'
          cases hr'
          exact ha
        simp only [hsame, hb, ha, Resource.flagged_of_eq ha,
          Bool.not_true, Bool.false_and, Bool.false_eq_true, if_false,
          if_true]
        rfl
      · have hmarked : s.inventory.setAcquired r.id true
            = (s.inventory.flag [r.id] true,
              some (.upserted (r.flagged true))) :=
          Prod.ext (Inventory.setAcquired_fst s.inventory r.id true)
            (Inventory.setAcquired_snd_of_get? hr ha)
        rw [Bool.not_eq_true] at ha
        simp only [hb, ha, hmarked, Bool.not_false, Bool.true_and,
          if_true, Resource.flagged_id]
        rfl
    · rw [List.filter_cons_of_neg hb, List.filter_nil,
        Inventory.flag_nil]
      rw [Bool.not_eq_true] at hb
      simp only [hb, Bool.and_false, Bool.false_eq_true, if_false]
      rfl

/-- The changes of one request are of different resources, so marking one
does not make another out of date. -/
theorem foldl_applyChange_eq (owner : SessionId)
    {changes : List ResourceChange}
    (h : ∀ c ∈ changes, c.Current s.inventory)
    (hnd : (changes.map (·.id)).Nodup) :
    changes.foldl (applyChange owner) s
      = { s with
          inventory := s.inventory.flag
            ((changes.map ResourceChange.id).filter s.places.isBound) true
          roster := s.roster.noteAll owner changes }.emitAll
          ((changes.map (settled s.places)).map
            ResourceChange.toChange) := by
  induction changes generalizing s with
  | nil =>
    rw [List.map_nil, List.filter_nil, Inventory.flag_nil]
    rfl
  | cons c changes ih =>
    rw [List.map_cons, List.nodup_cons] at hnd
    rw [List.foldl_cons, applyChange_eq s owner (h c List.mem_cons_self),
      ih _ _ hnd.2]
    · have hsplit : ((c :: changes).map ResourceChange.id).filter
            s.places.isBound
          = [c.id].filter s.places.isBound
            ++ (changes.map ResourceChange.id).filter s.places.isBound :=
        List.filter_append [c.id] _
      rw [hsplit, Inventory.flag_append]
      simp only [emitAll_eq, List.append_assoc]
      rfl
    · intro d hd
      have hne : d.id ∉ [c.id].filter s.places.isBound := by
        intro hin
        refine hnd.1 ?_
        rw [← List.mem_singleton.1 (List.mem_of_mem_filter hin)]
        exact List.mem_map_of_mem hd
      rw [emitAll_inventory]
      exact (h d (List.mem_cons_of_mem _ hd)).flag hne

/-- What the queue is told to be gone. -/
def lost (changes : List ResourceChange) : List ResourceId :=
  changes.filterMap ResourceChange.removed?

/-- Gone is what some change removes. -/
theorem mem_lost {changes : List ResourceChange} {id : ResourceId} :
    id ∈ lost changes ↔ .removed id ∈ changes := by
  unfold lost
  rw [List.mem_filterMap]
  constructor
  · intro hex
    obtain ⟨c, hc, hid⟩ := hex
    cases c with
    | upserted r => cases hid
    | removed k =>
      cases hid
      exact hc
  · intro h
    exact ⟨_, h, rfl⟩

/-- The state with a new inventory, once places show it and the queue
knows what is gone. -/
def restocked (s : State) (owner : SessionId)
    (changes : List ResourceChange) : State :=
  let ids := changes.map ResourceChange.id
  let inventory := s.inventory.flag (ids.filter s.places.isBound) true
  let outcome := s.queue.invalidate (lost changes)
  { s with
    inventory
    queue := outcome.2
    roster := s.roster.noteAll owner changes }.emitAll
      ((changes.map (settled s.places)).map ResourceChange.toChange
        ++ shown s.places inventory (s.places.affectedBy ids)
        ++ outcome.1.map Change.reservation)

/-- Nothing has changed, so nothing is noted, shown or put back. -/
theorem restocked_nil (owner : SessionId) : s.restocked owner [] = s := by
  have hnone : (s.queue.invalidate []).1 = [] := by
    show List.map _ (List.map _ (s.queue.all.filter _)) = []
    rw [List.filter_eq_nil_iff.2, List.map_nil, List.map_nil]
    intro e _ he
    obtain ⟨-, id, -, hid⟩ := QueueEntry.holdsAny_iff.1 he
    cases hid
  have hsame : (s.queue.invalidate []).2 = s.queue :=
    Queue.changeWhere_of_nil hnone
  have hshown : s.places.affectedBy [] = [] := by
    refine List.eq_nil_iff_forall_not_mem.2 fun name hname => ?_
    obtain ⟨n, p, -, -, id, hid, -⟩ := Places.mem_affectedBy.1 hname
    cases hid
  unfold restocked
  simp only [List.map_nil, List.filter_nil, Inventory.flag_nil, hshown,
    show lost [] = [] from rfl, hnone, hsame]
  rfl

/-- A request that changes no resource does not even lead to a rescan. -/
theorem applyChanges_eq (owner : SessionId)
    {changes : List ResourceChange} (now : Moment)
    (h : ∀ c ∈ changes, c.Current s.inventory)
    (hnd : (changes.map (·.id)).Nodup) :
    s.applyChanges owner changes now
      = if changes.isEmpty then s.restocked owner changes
        else (s.restocked owner changes).rescan now [] := by
  unfold applyChanges
  split
  · next hnil =>
    rw [List.isEmpty_iff.1 hnil, restocked_nil]
  · rw [foldl_applyChange_eq s owner h hnd]
    simp only [emitPlaces_eq, emitAll_append, emitAll_places,
      emitAll_inventory, emitAll_queue, emitReservations_eq]
    congr 1
    unfold restocked
    simp only [emitAll_eq, Journal.extend_append, Journal.extend_last,
      numbered_append, List.append_assoc, Nat.add_assoc]
    rfl

/-- What follows behind the notes leaves the sessions alone. -/
theorem applyChanges_roster (owner : SessionId)
    {changes : List ResourceChange} (now : Moment)
    (h : ∀ c ∈ changes, c.Current s.inventory)
    (hnd : (changes.map (·.id)).Nodup) :
    (s.applyChanges owner changes now).roster
      = s.roster.noteAll owner changes := by
  have hrestocked : (s.restocked owner changes).roster
      = s.roster.noteAll owner changes := by
    unfold restocked
    exact emitAll_roster _ _
  rw [applyChanges_eq s owner now h hnd]
  split
  · exact hrestocked
  · rw [rescan_roster, hrestocked]

-- =============================================== releases, acquisitions

/-- The state with a place given back, once its resources are free. -/
def vacated (s : State) (place : String) (holder : Option Holder)
    (freed : List ResourceId) : State :=
  let inventory := s.inventory.flag freed false
  { s with
    inventory
    roster := s.roster.vacated place holder
    incompleteSince := s.incompleteSince.erase place }.emitAll
      ((flips false s.inventory freed).map ResourceChange.toChange
        ++ shown s.places inventory [place])

/-- A release is the cleaning up and then one rescan. -/
theorem finishRelease_eq (place : String) (holder : Option Holder)
    (freed : List ResourceId) (now : Moment) :
    s.finishRelease place holder freed now
      = (s.vacated place holder freed).rescan now [] := by
  unfold finishRelease
  rw [markAcquired_eq]
  simp only [emitPlaces_eq]
  congr 1
  unfold vacated
  simp only [emitAll_eq, Journal.extend_append, Journal.extend_last,
    numbered_append, List.append_assoc]
  cases holder <;> rfl

/-- The state with a place given to a session, once its resources are
acquired and its view is out. -/
def granted (s : State) (place : String) (session : SessionId)
    (bound : List ResourceId) : State :=
  let inventory := s.inventory.flag bound true
  { s with
    inventory
    roster := s.roster.edit session fun o =>
      { o with places := o.places.insert place () } }.emitAll
      ((flips true s.inventory bound).map ResourceChange.toChange
        ++ shown s.places inventory [place])

/-- The same, once the session's allocations that are used by it are
finished. -/
def occupied (s : State) (place : String) (session : SessionId)
    (bound : List ResourceId) (now : Moment) : State :=
  let inventory := s.inventory.flag bound true
  let outcome := s.queue.convert session bound now
  { s with
    inventory
    queue := outcome.2
    roster := s.roster.edit session fun o =>
      { o with places := o.places.insert place () } }.emitAll
      ((flips true s.inventory bound).map ResourceChange.toChange
        ++ shown s.places inventory [place]
        ++ outcome.1.map Change.reservation)

/-- The allocations are taken up behind the view of the place. -/
theorem occupied_eq (place : String) (session : SessionId)
    (bound : List ResourceId) (now : Moment) :
    s.occupied place session bound now
      = { s.granted place session bound with
          queue := (s.queue.convert session bound now).2
        }.emitReservations (s.queue.convert session bound now).1 := by
  unfold occupied granted
  rw [emitReservations_eq]
  simp only [emitAll_eq, Journal.extend_append, Journal.extend_last,
    numbered_append, List.append_assoc, Nat.add_assoc]

/-- The same in full: only if there were any such allocations, the queue
is looked through again. -/
def leased (s : State) (place : String) (session : SessionId)
    (bound : List ResourceId) (now : Moment) : State :=
  let t := s.occupied place session bound now
  if (s.queue.convert session bound now).1.isEmpty then t
  else t.rescan now []

end Coordinator.State

end LabLease
