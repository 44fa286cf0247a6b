/-
Which published resources can be named by their text.

A registration checks the name of a peer, but nobody checks what an
exporter announces: the group, the name and the class of a resource are
any strings. So of the four parts of a published identity only the first
is known to be fit for a text. What else is unfit is unfit by the doing
of its exporter, and confuses only resources of that exporter.
-/
import LabLease.Proofs.Coordinator.Ownership
import LabLease.Proofs.Resource.Identity

namespace LabLease

/-- The parts of an identity that its exporter announces. -/
def ResourceId.announced (id : ResourceId) : List String :=
  [id.group, id.cls, id.name]

theorem ResourceId.fields_eq (id : ResourceId) :
    id.fields = id.exporter :: id.announced := rfl

theorem Roster.isName_iff {name : String} :
    isName name = true ↔ name ≠ "" ∧ '/' ∉ name.toList := by
  unfold isName
  simp

namespace Coordinator

/-- Whatever is published is published under the name of a peer. -/
theorem Sound.exporter_isName {l : Option SessionId} {s : State}
    (h : Sound l s) {r : Resource} (hr : r ∈ s.inventory.all) :
    Roster.isName r.id.exporter = true := by
  obtain ⟨e, he, rfl⟩ :=
    Inventory.get?_eq_some.1 (h.inventory.mem_all.1 hr)
  obtain ⟨o, ho, hname, -⟩ := h.attended.owned _ e he
  rw [← hname]
  exact h.attended.roster.valid e.owner o ho

/-- In every state that the coordinator reaches, the exporter in the
identity of a published resource is fit for a text, and the text is read
back as that identity iff what was announced is fit as well. Different
resources share a text only if one exporter publishes both, with a slash
in what it has announced of each. -/
theorem published_named (settings : Settings) (inputs : List Input) :
    let resources := ((State.new settings).run inputs).inventory.all
    (∀ r ∈ resources, Roster.isName r.id.exporter = true
        ∧ (ResourceId.parse r.id.text = .ok r.id ↔
            ∀ f ∈ r.id.announced, f ≠ "" ∧ '/' ∉ f.toList))
      ∧ ∀ r ∈ resources, ∀ r' ∈ resources, r.id.text = r'.id.text →
          r = r' ∨ (r.id.exporter = r'.id.exporter
            ∧ (∃ f ∈ r.id.announced, '/' ∈ f.toList)
            ∧ ∃ f ∈ r'.id.announced, '/' ∈ f.toList) := by
  intro resources
  have hs := Sound.reached settings inputs
  have hname : ∀ r ∈ resources,
      r.id.exporter ≠ "" ∧ '/' ∉ r.id.exporter.toList :=
    fun r hr => Roster.isName_iff.1 (hs.exporter_isName hr)
  refine ⟨fun r hr => ⟨hs.exporter_isName hr, ?_⟩, ?_⟩
  · rw [ResourceId.parse_text_iff, ResourceId.Nameable,
      ResourceId.fields_eq, List.forall_mem_cons]
    exact and_iff_right (hname r hr)
  · intro r hr r' hr' htext
    -- a text without further slashes has one identity, and so one resource
    have hsame : ∀ r ∈ resources, ∀ r' ∈ resources,
        r'.id.text = r.id.text →
        (¬ ∃ f ∈ r.id.announced, '/' ∈ f.toList) → r' = r := by
      intro r hr r' hr' htext hno
      have hid : r'.id = r.id := by
        refine ResourceId.text_inj ?_ htext
        rw [ResourceId.fields_eq, List.forall_mem_cons]
        exact ⟨(hname r hr).2, fun f hf hslash => hno ⟨f, hf, hslash⟩⟩
      have hget := hs.inventory.mem_all.1 hr'
      rw [hid, hs.inventory.mem_all.1 hr] at hget
      exact (Option.some.inj hget).symm
    by_cases hslash : ∃ f ∈ r.id.announced, '/' ∈ f.toList
    · by_cases hslash' : ∃ f ∈ r'.id.announced, '/' ∈ f.toList
      · exact Or.inr ⟨ResourceId.exporter_eq_of_text_eq (hname r hr).2
          (hname r' hr').2 htext, hslash, hslash'⟩
      · exact Or.inl (hsame r' hr' r hr htext hslash')
    · exact Or.inl (hsame r hr r' hr' htext.symm hslash).symm

/-- An exporter announces two resources, and a slash stands now in the
group of the one and then in the class of the other. Both are published
under one text, which is read back as neither. -/
theorem published_unnamed :
    let noon : Moment := ⟨0, ⟨2024, 1, 1, 12, 0, 0, 0⟩⟩
    let resources := ((State.new {}).run
      [.register "bench" .exporter noon,
        .execute 1 (.setResources
          [⟨"a/b", "n", .other "c" .empty⟩,
            ⟨"a", "n", .other "b/c" .empty⟩]) noon]).inventory.all
    resources.length = 2
      ∧ ¬ (∀ r ∈ resources, ResourceId.parse r.id.text = .ok r.id)
      ∧ ¬ ∀ r ∈ resources, ∀ r' ∈ resources,
          r.id.text = r'.id.text → r.id = r'.id := by
  decide +kernel

end Coordinator

end LabLease
