/-
What a publication leaves of the inventory, identity by identity.

Nothing that is announced is new or old as such: `Published.restated`
says what stands under its identity afterwards, whatever stood there
before. What is not announced stays or goes by its exporter
(`get?_publish`). All changes are reported and nothing else is, for a
restocking reports an identity iff something else stands under it
afterwards (`Restock.mem_ids`).
-/
import LabLease.Proofs.Registry.Inventory

namespace LabLease

namespace Published

/-- What is published under an identity once it has been announced:
something new, or what was there, one version further if its parameters
have changed. -/
def restated (owner : SessionId) (id : ResourceId)
    (params : ResourceParams) : Option Published → Published
  | none => ⟨{ id, params, acquired := false, version := 1 }, owner⟩
  | some e =>
    if e.resource.params.same params then e
    else { e with resource := { e.resource with
      params, version := e.resource.version + 1 } }

/-- Something stands there differently once it is announced unless it was
there with the same parameters. -/
theorem restated_ne_iff {owner : SessionId} {id : ResourceId}
    {params : ResourceParams} {old : Option Published} :
    some (restated owner id params old) ≠ old ↔
      ∀ e, old = some e → e.resource.params.same params = false := by
  cases old with
  | none => simp
  | some e =>
    by_cases hsame : e.resource.params.same params = true
    · simp [restated, hsame]
    · rw [Bool.not_eq_true] at hsame
      have hne : restated owner id params (some e) ≠ e := by
        intro heq
        have hversion := congrArg (·.resource.version) heq
        simp [restated, hsame] at hversion
      simp [hne, hsame]

theorem resource_restated (owner : SessionId) (id : ResourceId)
    (params : ResourceParams) (e : Published) :
    (restated owner id params (some e)).resource
      = if e.resource.params.same params then e.resource
        else { e.resource with
          params, version := e.resource.version + 1 } := by
  simp only [restated]
  split <;> rfl

theorem owner_restated {owner : SessionId} {id : ResourceId}
    {params : ResourceParams} {old : Option Published}
    (h : ∀ e, old = some e → e.owner = owner) :
    (restated owner id params old).owner = owner := by
  cases old with
  | none => rfl
  | some e =>
    simp only [restated]
    split <;> exact h e rfl

end Published

namespace Inventory

variable {inv inv' : Inventory} {exporter : String} {owner : SessionId}
  {id : ResourceId} {changes : List ResourceChange}

-- ============================================================== announced

theorem get?_upsert (owner : SessionId) (inv : Inventory)
    (id : ResourceId) (params : ResourceParams) (k : ResourceId) :
    (upsert owner inv id params).1.entries.get? k
      = if id = k
        then some (.restated owner id params (inv.entries.get? id))
        else inv.entries.get? k := by
  unfold upsert
  cases he : inv.entries.get? id with
  | none => simp [Published.restated]
  | some e =>
    by_cases hsame : e.resource.params.same params = true
    · by_cases hk : id = k
      · subst hk
        simp [Published.restated, hsame, he]
      · simp [hsame, hk]
    · simp [Published.restated, hsame]

/-- All of them at once, each under an identity of its own. -/
theorem get?_upsertAll (owner : SessionId) (inv : Inventory)
    (l : List (ResourceId × ResourceParams)) (hnd : (l.map (·.1)).Nodup)
    (k : ResourceId) :
    (upsertAll owner inv l).1.entries.get? k
      = match (l.find? fun a => a.1 = k).map (·.2) with
        | some params =>
          some (.restated owner k params (inv.entries.get? k))
        | none => inv.entries.get? k := by
  induction l generalizing inv with
  | nil => rfl
  | cons a rest ih =>
    obtain ⟨id, params⟩ := a
    rw [List.map_cons, List.nodup_cons] at hnd
    have hrest : (upsertAll owner inv ((id, params) :: rest)).1
        = (upsertAll owner (upsert owner inv id params).1 rest).1 := rfl
    rw [hrest, ih _ hnd.2, get?_upsert]
    by_cases hid : id = k
    · subst hid
      -- it is not announced again
      have hnone : rest.find? (fun a => a.1 = id) = none := by
        refine List.find?_eq_none.2 fun a ha heq => hnd.1 ?_
        exact List.mem_map.2 ⟨a, ha, of_decide_eq_true heq⟩
      simp [hnone]
    · simp [hid]

-- =============================================================== publish

/-- What happens to the inventory once the announcements are taken. -/
def replaced (inv : Inventory) (exporter : String) (owner : SessionId)
    (incoming : Table ResourceId ResourceParams) :
    List ResourceChange × Inventory :=
  let removed := inv.removeAll (inv.stale exporter owner incoming)
  let upserted := upsertAll owner removed.1 incoming.entries
  (removed.2 ++ upserted.2, upserted.1)

/-- Everything under an exporter's name is a session's own. -/
def Owns (inv : Inventory) (exporter : String) (owner : SessionId) :
    Prop :=
  ∀ id e, inv.entries.get? id = some e → id.exporter = exporter →
    e.owner = owner

/-- Without other owners a publication is refused for nothing but what it
announces. -/
theorem Owns.publish_eq (h : inv.Owns exporter owner)
    (specs : List ResourceSpec) :
    inv.publish exporter owner specs
      = (announced exporter specs).map (inv.replaced exporter owner) := by
  unfold publish
  cases announced exporter specs with
  | error e => rfl
  | ok incoming =>
    dsimp only [bind, Except.bind]
    split
    · next id e hfound =>
      have hget := (Table.get?_eq_some_iff inv.entries id e).2
        (List.mem_of_find?_eq_some hfound)
      have hother := List.find?_some hfound
      simp only [Bool.and_eq_true, decide_eq_true_eq, bne_iff_ne]
        at hother
      exact absurd (h id e hget hother.1) hother.2
    · rfl

/-- A publication is granted iff no two announcements have an identity in
common. -/
theorem Owns.publish_ok_iff (h : inv.Owns exporter owner)
    (specs : List ResourceSpec) :
    (∃ out, inv.publish exporter owner specs = .ok out)
      ↔ (specs.map (·.idFor exporter)).Nodup := by
  rw [h.publish_eq, ← announced_ok_iff]
  cases announced exporter specs <;> simp [Except.map]

/-- What is announced is published so, and of all the rest nothing goes
but what the session published under the exporter's name. -/
theorem get?_replaced (inv : Inventory) (exporter : String)
    (owner : SessionId) (incoming : Table ResourceId ResourceParams)
    (k : ResourceId) :
    (inv.replaced exporter owner incoming).2.entries.get? k
      = match incoming.get? k with
        | some params =>
          some (.restated owner k params (inv.entries.get? k))
        | none => (inv.entries.get? k).filter fun e =>
            ¬ (e.owner = owner ∧ k.exporter = exporter) := by
  refine (get?_upsertAll owner _ _ incoming.nodup_keys k).trans ?_
  rw [get?_removeAll,
    show (incoming.entries.find? fun a => a.1 = k).map (·.2)
      = incoming.get? k from rfl]
  cases hk : incoming.get? k with
  | some params =>
    have hnot : k ∉ inv.stale exporter owner incoming := by
      rw [mem_stale, hk]
      simp
    simp only [if_neg hnot]
  | none =>
    simp only [mem_stale, hk, and_true]
    cases inv.entries.get? k with
    | none => simp
    | some e =>
      by_cases hown : e.owner = owner ∧ k.exporter = exporter
      · simp [hown, Option.filter_some]
      · rw [Option.filter_some, decide_eq_true hown]
        simp [hown]

variable {specs : List ResourceSpec}

theorem Owns.eq_replaced (h : inv.Owns exporter owner)
    (hp : inv.publish exporter owner specs = .ok (changes, inv')) :
    ∃ incoming, announced exporter specs = .ok incoming
      ∧ inv' = (inv.replaced exporter owner incoming).2 := by
  rw [h.publish_eq] at hp
  cases hann : announced exporter specs with
  | error e => rw [hann] at hp; cases hp
  | ok incoming =>
    rw [hann] at hp
    exact ⟨incoming, rfl, (congrArg Prod.snd (Except.ok.inj hp)).symm⟩

/-- What is announced is published. -/
theorem Owns.get?_publish (h : inv.Owns exporter owner)
    (hp : inv.publish exporter owner specs = .ok (changes, inv'))
    {spec : ResourceSpec} (hspec : spec ∈ specs) :
    inv'.entries.get? (spec.idFor exporter)
      = some (.restated owner (spec.idFor exporter) spec.params
          (inv.entries.get? (spec.idFor exporter))) := by
  obtain ⟨incoming, hann, rfl⟩ := h.eq_replaced hp
  have hin : incoming.get? (spec.idFor exporter) = some spec.params :=
    (get?_announced hann).2 ⟨spec, hspec, rfl, rfl⟩
  rw [get?_replaced, hin]

/-- And of the rest the session's own goes. -/
theorem Owns.get?_publish_of_notMem (h : inv.Owns exporter owner)
    (hp : inv.publish exporter owner specs = .ok (changes, inv'))
    (hid : id ∉ specs.map (·.idFor exporter)) :
    inv'.entries.get? id
      = (inv.entries.get? id).filter fun e =>
          ¬ (e.owner = owner ∧ id.exporter = exporter) := by
  obtain ⟨incoming, hann, rfl⟩ := h.eq_replaced hp
  have hnone : incoming.get? id = none := by
    refine Option.eq_none_iff_forall_ne_some.2 fun params hsome => ?_
    obtain ⟨spec, hspec, hsame, -⟩ := (get?_announced hann).1 hsome
    exact hid (List.mem_map.2 ⟨spec, hspec, hsame⟩)
  rw [get?_replaced, hnone]

-- =============================================================== reports

/-- A restocking reports what stands there differently afterwards. -/
theorem Restock.mem_ids (h : Restock exporter owner inv inv' changes) :
    id ∈ changes.map (·.id)
      ↔ inv'.entries.get? id ≠ inv.entries.get? id := by
  constructor
  · intro hid
    obtain ⟨c, hc, rfl⟩ := List.mem_map.1 hid
    cases c with
    | removed k =>
      obtain ⟨hgone, e, he, -⟩ := h.removed k hc
      show inv'.entries.get? k ≠ inv.entries.get? k
      rw [hgone, he]
      exact nofun
    | upserted r =>
      intro heq
      -- of anything known there is a new version
      have hthere : inv.entries.get? r.id = some ⟨r, owner⟩ :=
        heq.symm.trans (h.upserted r hc).2
      exact absurd (h.newer r hc _ hthere) (Nat.lt_irrefl _)
  · intro hne
    by_cases hid : id ∈ changes.map (·.id)
    · exact hid
    · exact absurd (h.same id hid) hne

end Inventory

end LabLease
