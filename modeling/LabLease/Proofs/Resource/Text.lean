/-
Texts are faithful names: which texts read as a pattern or as an
identifier, and that nothing is lost between the two.

Both are read by their fields, and every text has fields
(`Text.existsUnique_splits`). So what can be said of a text is said of a
list of strings that hold no slash: how many there are, that none is
empty, and for a pattern that each of them is a wildcard.
-/
import LabLease.Proofs.Resource.Identity
import LabLease.Proofs.Resource.Pattern
import Mathlib.Logic.ExistsUnique

namespace LabLease

namespace Text

variable {s : String} {fs : List String}

/-- The strings between the slashes of a text. -/
structure Splits (s : String) (fs : List String) : Prop where
  ne_nil : fs ≠ []
  joined : "/".intercalate fs = s
  slashless : ∀ f ∈ fs, '/' ∉ f.toList

theorem splits_iff :
    Splits s fs ↔ fields '/' s.toList = fs.map String.toList := by
  constructor
  · rintro ⟨hne, rfl, hno⟩
    rw [String.toList_intercalate]
    refine fields_intercalate (mt List.map_eq_nil_iff.1 hne) ?_
    intro f hf
    obtain ⟨g, hg, rfl⟩ := List.mem_map.1 hf
    exact hno g hg
  · intro h
    refine ⟨?_, ?_, fun f hf => ?_⟩
    · rintro rfl
      exact List.cons_ne_nil _ _ h
    · refine String.toList_inj.1 ?_
      rw [String.toList_intercalate, ← h]
      exact intercalate_fields '/' s.toList
    · refine notMem_of_mem_fields (s := s.toList) ?_
      rw [h]
      exact List.mem_map_of_mem hf

/-- A text can be cut in one way only. -/
theorem existsUnique_splits (s : String) : ∃! fs, Splits s fs := by
  refine ⟨(fields '/' s.toList).map String.ofList, ?_, fun fs hfs => ?_⟩
  · refine splits_iff.2 ?_
    rw [List.map_map, List.map_congr_left fun f _ =>
      show (String.toList ∘ String.ofList) f = f from String.toList_ofList,
      List.map_id']
  · rw [splits_iff.1 hfs, List.map_map, List.map_congr_left fun f _ =>
      show (String.ofList ∘ String.toList) f = f from String.ofList_toList,
      List.map_id']

/-- Strings that are all read as wildcards are the texts of some. -/
theorem Glob.exists_map_text_eq
    (h : ∀ f ∈ fs, ∃ g, Glob.parse f = .ok g) :
    ∃ gs : List Glob, gs.map (·.text) = fs := by
  induction fs with
  | nil => exact ⟨[], rfl⟩
  | cons f fs ih =>
    obtain ⟨hf, hfs⟩ := List.forall_mem_cons.1 h
    obtain ⟨g, hg⟩ := hf
    obtain ⟨gs, rfl⟩ := ih hfs
    exact ⟨g :: gs, by rw [List.map_cons, Glob.text_of_parse hg]⟩

end Text

open Text (Splits)

/-- A pattern is read by its wildcards. -/
theorem ResourcePattern.parse_eq_ok_iff_splits {s : String}
    {p : ResourcePattern} : parse s = .ok p ↔
      Splits s (p.globs.map (·.text)) ∧ ∀ g ∈ p.globs, g.text ≠ "" := by
  rw [parse_eq_ok, Text.splits_iff, List.map_map]
  rfl

theorem ResourcePattern.exists_parse_iff {s : String} :
    (∃ p, parse s = .ok p) ↔
      ∃ fs, Splits s fs ∧ (fs.length = 3 ∨ fs.length = 4)
        ∧ ∀ f ∈ fs, f ≠ "" ∧ ∃ g, Text.Glob.parse f = .ok g := by
  simp only [parse_eq_ok_iff_splits]
  constructor
  · rintro ⟨p, hs, hne⟩
    refine ⟨_, hs, ?_, ?_⟩
    · rw [List.length_map]
      exact exists_globs_eq.1 ⟨p, rfl⟩
    · intro f hf
      obtain ⟨g, hg, rfl⟩ := List.mem_map.1 hf
      exact ⟨hne g hg, g, Text.Glob.parse_text g⟩
  · rintro ⟨fs, hs, hlength, hfs⟩
    obtain ⟨gs, rfl⟩ :=
      Text.Glob.exists_map_text_eq fun f hf => (hfs f hf).2
    rw [List.length_map] at hlength
    obtain ⟨p, rfl⟩ := exists_globs_eq.2 hlength
    exact ⟨p, hs, fun g hg => (hfs _ (List.mem_map_of_mem hg)).1⟩

theorem ResourceId.exists_parse_iff {s : String} :
    (∃ id, parse s = .ok id) ↔
      ∃ fs, Splits s fs ∧ fs.length = 4 ∧ ∀ f ∈ fs, f ≠ "" := by
  simp only [parse_eq_ok, ← Text.splits_iff]
  constructor
  · rintro ⟨id, hs, hne⟩
    exact ⟨id.fields, hs, rfl, hne⟩
  · rintro ⟨fs, hs, hlength, hne⟩
    obtain ⟨e, rest, rfl⟩ := List.exists_cons_of_length_eq_add_one hlength
    obtain ⟨g, c, n, rfl⟩ := List.length_eq_three.1 (Nat.succ.inj hlength)
    exact ⟨⟨e, g, c, n⟩, hs, hne⟩

/-- Texts are faithful. A text, cut at every slash, reads as a pattern iff
this gives three or four fields, each of them a wildcard and not empty,
and as an identifier iff it gives four that are not empty. Either is
written as it was read, so two patterns that were read are equal iff their
texts are. A pattern that any text reads as is read back from its own
text; these are the patterns, as they are the identifiers, in which no
field is empty or holds a slash. -/
theorem texts_faithful :
    (∀ s, ∃! fs, Splits s fs)
      ∧ (∀ s, (∃ p, ResourcePattern.parse s = .ok p) ↔
        ∃ fs, Splits s fs ∧ (fs.length = 3 ∨ fs.length = 4)
          ∧ ∀ f ∈ fs, f ≠ "" ∧ ∃ g, Text.Glob.parse f = .ok g)
      ∧ (∀ s p, ResourcePattern.parse s = .ok p → p.text = s)
      ∧ (∀ s t p q, ResourcePattern.parse s = .ok p →
        ResourcePattern.parse t = .ok q → (p = q ↔ s = t))
      ∧ (∀ p, (∃ s, ResourcePattern.parse s = .ok p) ↔
        ResourcePattern.parse p.text = .ok p)
      ∧ (∀ p, ResourcePattern.parse p.text = .ok p ↔
        ∀ g ∈ p.globs, g.text ≠ "" ∧ '/' ∉ g.text.toList)
      ∧ (∀ s, (∃ id, ResourceId.parse s = .ok id) ↔
        ∃ fs, Splits s fs ∧ fs.length = 4 ∧ ∀ f ∈ fs, f ≠ "")
      ∧ (∀ s id, ResourceId.parse s = .ok id → id.text = s)
      ∧ ∀ id, ResourceId.parse id.text = .ok id ↔
        ∀ f ∈ id.fields, f ≠ "" ∧ '/' ∉ f.toList := by
  refine ⟨Text.existsUnique_splits,
    fun _ => ResourcePattern.exists_parse_iff,
    fun _ _ => ResourcePattern.text_of_parse, ?_, ?_,
    fun _ => ResourcePattern.parse_text_iff,
    fun _ => ResourceId.exists_parse_iff,
    fun _ _ => ResourceId.text_of_parse, fun _ => ResourceId.parse_text_iff⟩
  · intro s t p q hp hq
    constructor
    · rintro rfl
      rw [← ResourcePattern.text_of_parse hp,
        ← ResourcePattern.text_of_parse hq]
    · rintro rfl
      exact Except.ok.inj (hp.symm.trans hq)
  · intro p
    exact ⟨ResourcePattern.parse_text, fun h => ⟨_, h⟩⟩

end LabLease
