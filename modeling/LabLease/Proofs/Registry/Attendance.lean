/-
Who stands behind what the registries hold: a live exporter behind every
resource, under the name in its identity, and a live client behind every
held place and every reservation.

While a session is on its way out it still has places and reservations
although it is not live any more.
-/
import LabLease.Proofs.Registry.Descent
import LabLease.Proofs.Registry.Places
import LabLease.Proofs.Registry.Roster

namespace LabLease

-- ================================================= the records of sessions

/-- The record of an exporter after a change of what it publishes. -/
def Session.noted (o : Session) : ResourceChange → Session
  | .upserted r => { o with resources := o.resources.insert r.id () }
  | .removed id => { o with resources := o.resources.erase id }

/-- The record of an exporter is kept up to date with changes in turn. -/
def Roster.noteAll (r : Roster) (owner : SessionId)
    (changes : List ResourceChange) : Roster :=
  changes.foldl (fun r c => r.edit owner (·.noted c)) r

/-- A session that is gone has no record to keep. -/
theorem Roster.noteAll_of_gone {r : Roster} {owner : SessionId}
    (hgone : r.sessions.get? owner = none) (changes : List ResourceChange) :
    r.noteAll owner changes = r := by
  induction changes with
  | nil => rfl
  | cons c changes ih =>
    have hstep : r.noteAll owner (c :: changes)
        = (r.edit owner (·.noted c)).noteAll owner changes := rfl
    rw [hstep, edit_of_gone hgone, ih]

/-- The record of a client after it lost a place, if there is one to
change. -/
def Roster.vacated (r : Roster) (place : String) : Option Holder → Roster
  | some h => r.edit h.session fun o =>
    { o with places := o.places.erase place }
  | none => r

-- ============================================================== attendance

/-- A client that is live, or the session that is on its way out. -/
def Tenant (leaving : Option SessionId) (r : Roster) (h : Holder) : Prop :=
  leaving = some h.session ∨ r.Live h.session h.name .client

structure Attended (leaving : Option SessionId) (r : Roster)
    (inv : Inventory) (ps : Places) (q : Queue) : Prop where
  roster : r.Sound
  owned : ∀ id e, inv.entries.get? id = some e →
    r.Live e.owner id.exporter .exporter
  holders : ∀ n p h, ps.entries.get? n = some p → p.holder = some h →
    Tenant leaving r h
  tenants : ∀ i e, q.entries.get? i = some e →
    Tenant leaving r e.reservation.owner

variable {l l' : Option SessionId} {r r' : Roster} {inv inv' : Inventory}
  {ps ps' : Places} {q q' : Queue}

theorem Tenant.mono {h : Holder} (ht : Tenant l r h)
    (hlive : ∀ id name role, r.Live id name role → r'.Live id name role) :
    Tenant l r' h :=
  ht.imp_right (hlive _ _ _)

namespace Attended

theorem empty (timeout grace poll : Nat) :
    Attended none (.new timeout) .empty .empty (.new grace poll) := by
  refine ⟨Roster.new_sound timeout, ?_, ?_, ?_⟩
  · intro id e he
    cases he
  · intro n p h hp
    cases hp
  · intro i e he
    cases he

/-- The roster may change as long as everybody stays. -/
theorem of_roster (h : Attended l r inv ps q) (hr : r'.Sound)
    (hlive : ∀ id name role, r.Live id name role → r'.Live id name role) :
    Attended l r' inv ps q :=
  ⟨hr, fun id e he => hlive _ _ _ (h.owned id e he),
    fun n p o hp ho => (h.holders n p o hp ho).mono hlive,
    fun i e he => (h.tenants i e he).mono hlive⟩

theorem edit (h : Attended l r inv ps q) {f : Session → Session}
    (hf : Roster.KeepsIdentity f) (session : SessionId) :
    Attended l (r.edit session f) inv ps q :=
  h.of_roster (h.roster.edit hf session)
    fun _ _ _ => (Roster.live_edit_iff hf session).2

theorem noteAll (h : Attended l r inv ps q) (owner : SessionId)
    (changes : List ResourceChange) :
    Attended l (r.noteAll owner changes) inv ps q := by
  induction changes generalizing r with
  | nil => exact h
  | cons c changes ih =>
    refine ih (h.edit (fun o => ?_) owner)
    cases c <;> exact ⟨rfl, rfl, rfl⟩

theorem vacated (h : Attended l r inv ps q) (place : String)
    (holder : Option Holder) :
    Attended l (r.vacated place holder) inv ps q := by
  cases holder with
  | none => exact h
  | some o =>
    refine h.edit (fun _ => ?_) o.session
    exact ⟨rfl, rfl, rfl⟩

/-- The inventory may change as long as nothing gets another owner. -/
theorem of_inventory (h : Attended l r inv ps q)
    (hi : ∀ id e, inv'.entries.get? id = some e →
      r.Live e.owner id.exporter .exporter) :
    Attended l r inv' ps q :=
  ⟨h.roster, hi, h.holders, h.tenants⟩

theorem flag (h : Attended l r inv ps q) (ids : List ResourceId)
    (b : Bool) : Attended l r (inv.flag ids b) ps q := by
  refine h.of_inventory fun id e he => ?_
  obtain ⟨e', he', ho⟩ := Inventory.owner_of_flag he
  exact ho ▸ h.owned id e' he'

/-- What a live exporter publishes instead is attended by it. -/
theorem restock (h : Attended l r inv ps q) {exporter : String}
    {owner : SessionId} {changes : List ResourceChange}
    (hl : r.Live owner exporter .exporter)
    (hr : inv.Restock exporter owner inv' changes) :
    Attended l r inv' ps q := by
  refine h.of_inventory fun id e he => ?_
  by_cases hc : id ∈ changes.map (·.id)
  · obtain ⟨c, hcm, rfl⟩ := List.mem_map.1 hc
    cases c with
    | upserted x =>
      obtain ⟨hx, hget⟩ := hr.upserted x hcm
      have heq : some e = some ⟨x, owner⟩ := he.symm.trans hget
      cases heq
      exact hx ▸ hl
    | removed k => cases he.symm.trans (hr.removed k hcm).1
  · exact h.owned id e ((hr.same id hc).symm.trans he)

/-- A session leaves and takes its resources with it. -/
theorem leave (h : Attended none r inv ps q) (session : SessionId) :
    Attended (some session) (r.remove session)
      (inv.removeOwner session).1 ps q := by
  have htenant : ∀ o, Tenant none r o →
      Tenant (some session) (r.remove session) o := by
    intro o ho
    rcases ho with ho | ho
    · cases ho
    · by_cases hs : o.session = session
      · exact Or.inl (congrArg some hs.symm)
      · exact Or.inr (ho.remove hs)
  refine ⟨h.roster.remove session, ?_, ?_, ?_⟩
  · intro id e he
    obtain ⟨he, hne⟩ := Inventory.owner_ne_of_removeOwner he
    exact (h.owned id e he).remove hne
  · intro n p o hp ho
    exact htenant o (h.holders n p o hp ho)
  · intro i e he
    exact htenant _ (h.tenants i e he)

/-- One place is put in. -/
theorem putPlace (h : Attended l r inv ps q) {name : String} {p : Place}
    (hp : ∀ o, p.holder = some o → Tenant l r o) :
    Attended l r inv ⟨ps.entries.insert name p⟩ q := by
  refine ⟨h.roster, h.owned, ?_, h.tenants⟩
  intro n p' o hget ho
  rw [Table.get?_insert] at hget
  split at hget
  · cases hget
    exact hp o ho
  · exact h.holders n p' o hget ho

theorem erasePlace (h : Attended l r inv ps q) (name : String) :
    Attended l r inv ⟨ps.entries.erase name⟩ q := by
  refine ⟨h.roster, h.owned, ?_, h.tenants⟩
  intro n p o hget ho
  rw [Table.get?_erase] at hget
  split at hget
  · cases hget
  · exact h.holders n p o hget ho

theorem of_descends (h : Attended l r inv ps q) (hd : q'.Descends q) :
    Attended l r inv ps q' := by
  refine ⟨h.roster, h.owned, h.holders, ?_⟩
  intro i e' he'
  obtain ⟨e, he, hc⟩ := hd i e' he'
  exact hc.owner ▸ h.tenants i e he

theorem reserve (h : Attended l r inv ps q) {owner : Holder}
    {filters : List ResourcePattern} {priority : Int} {now : Moment}
    {x : Reservation}
    (hl : r.Live owner.session owner.name .client)
    (hc : q.create owner filters priority now = .ok (x, q')) :
    Attended l r inv ps q' := by
  obtain ⟨-, rfl, rfl⟩ := Queue.create_ok hc
  refine ⟨h.roster, h.owned, h.holders, ?_⟩
  intro i e he
  rw [Table.get?_insert] at he
  split at he
  · cases he
    exact Or.inr hl
  · exact h.tenants i e he

/-- A session that is on its way out and has nothing left is gone. -/
theorem forget {session : SessionId}
    (h : Attended (some session) r inv ps q)
    (hnone : ps.heldBy session = []) :
    Attended none r inv ps (q.removeSession session).2 := by
  refine ⟨h.roster, h.owned, ?_, ?_⟩
  · intro n p o hp ho
    rcases h.holders n p o hp ho with hs | hs
    · cases hs
      have hmem : p.name ∈ ps.heldBy o.session := by
        refine Places.mem_heldBy.2 ⟨n, p, hp, ?_, rfl⟩
        simp [Place.isHeldBy, ho]
      rw [hnone] at hmem
      cases hmem
    · exact Or.inr hs
  · intro i e he
    obtain ⟨he, hne⟩ := Queue.get?_removeSession.1 he
    rcases h.tenants i e he with hs | hs
    · cases hs
      exact absurd rfl hne
    · exact Or.inr hs

end Attended

end LabLease
