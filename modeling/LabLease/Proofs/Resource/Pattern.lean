/-
What a pattern is read from. A text is cut at every slash, and what is
read are the three or four fields, each of them a wildcard that is not
empty (`parse_eq_ok`). So a pattern prints back as it was written, and
what is printed reads back as the same pattern.
-/
import LabLease.Resource.Pattern
import Mathlib.Data.List.Basic

namespace LabLease.ResourcePattern

variable {s : String} {p : ResourcePattern}

/-- A pattern that some text reads as. -/
def Written (p : ResourcePattern) : Prop := ∃ s, parse s = .ok p

/-- The wildcards of a pattern in order. -/
def globs (p : ResourcePattern) : List Text.Glob :=
  [p.exporter, p.group, p.cls] ++ p.name.toList

/-- Any three or four wildcards are those of a pattern. -/
theorem exists_globs_eq {gs : List Text.Glob} :
    (∃ p : ResourcePattern, p.globs = gs)
      ↔ gs.length = 3 ∨ gs.length = 4 := by
  constructor
  · rintro ⟨⟨e, g, c, name⟩, rfl⟩
    cases name with
    | none => exact Or.inl rfl
    | some n => exact Or.inr rfl
  · rintro (h | h)
    · obtain ⟨e, g, c, rfl⟩ := List.length_eq_three.1 h
      exact ⟨⟨e, g, c, none⟩, rfl⟩
    · obtain ⟨e, rest, rfl⟩ := List.exists_cons_of_length_eq_add_one h
      obtain ⟨g, c, n, rfl⟩ := List.length_eq_three.1 (Nat.succ.inj h)
      exact ⟨⟨e, g, c, some n⟩, rfl⟩

-- ================================================================ writing

theorem toList_text (p : ResourcePattern) :
    p.text.toList
      = ['/'].intercalate (p.globs.map (·.text.toList)) := by
  obtain ⟨e, g, c, name⟩ := p
  cases name with
  | none =>
    show (e.text ++ "/" ++ g.text ++ "/" ++ c.text).toList = _
    simp [globs]
  | some n =>
    show (e.text ++ "/" ++ g.text ++ "/" ++ c.text ++ "/"
      ++ n.text).toList = _
    simp [globs]

-- ================================================================ reading

theorem parseField_eq_ok {field : List Char} {g : Text.Glob} :
    parseField field = .ok g ↔ field = g.text.toList ∧ g.text ≠ "" := by
  have hempty : field.isEmpty = true ↔ String.ofList field = "" := by
    rw [List.isEmpty_iff, String.ofList_eq_empty_iff]
  unfold parseField
  constructor
  · intro h
    split at h
    · cases h
    · next hne =>
      split at h
      · next hg =>
        cases h
        have htext := Text.Glob.text_of_parse hg
        rw [htext]
        exact ⟨String.toList_ofList.symm, fun hnil => hne (hempty.2 hnil)⟩
      · cases h
  · rintro ⟨rfl, hne⟩
    rw [String.ofList_toList] at hempty
    rw [if_neg fun hnil => hne (hempty.1 hnil), String.ofList_toList,
      Text.Glob.parse_text]

theorem bind_eq_ok {ε α β : Type} {x : Except ε α} {f : α → Except ε β}
    {b : β} : x >>= f = .ok b ↔ ∃ a, x = .ok a ∧ f a = .ok b := by
  cases x with
  | error e => exact ⟨nofun, fun ⟨_, h, _⟩ => nomatch h⟩
  | ok a =>
    refine ⟨fun h => ⟨a, rfl, h⟩, ?_⟩
    rintro ⟨_, ha, h⟩
    cases ha
    exact h

/-- A text is read by its three or four fields, which may not be empty. -/
theorem read_eq_ok : read s = .ok p ↔
    Text.fields '/' s.toList = p.globs.map (·.text.toList)
      ∧ ∀ g ∈ p.globs, g.text ≠ "" := by
  obtain ⟨e, g, c, name⟩ := p
  unfold read
  split
  · next e' g' c' hf =>
    rw [hf]
    cases name <;>
      simp [bind_eq_ok, parseField_eq_ok, globs, pure, Except.pure]
    grind
  · next e' g' c' n' hf =>
    rw [hf]
    cases name <;>
      simp [bind_eq_ok, parseField_eq_ok, globs, pure, Except.pure]
    grind
  · next hthree hfour =>
    refine ⟨nofun, fun h => ?_⟩
    cases name with
    | none => exact (hthree _ _ _ h.1).elim
    | some n => exact (hfour _ _ _ _ h.1).elim

theorem parse_eq_ok : parse s = .ok p ↔
    Text.fields '/' s.toList = p.globs.map (·.text.toList)
      ∧ ∀ g ∈ p.globs, g.text ≠ "" := by
  rw [← read_eq_ok]
  unfold parse
  cases read s with
  | error f => exact ⟨nofun, nofun⟩
  | ok q => simp

theorem text_of_parse (h : parse s = .ok p) : p.text = s := by
  refine String.toList_inj.1 ?_
  rw [toList_text, ← (parse_eq_ok.1 h).1, Text.intercalate_fields]

theorem parse_text (h : p.Written) : parse p.text = .ok p := by
  obtain ⟨s, hs⟩ := h
  rwa [text_of_parse hs]

/-- A pattern is read back from its text iff no field of it is empty or
holds a slash. -/
theorem parse_text_iff : parse p.text = .ok p ↔
    ∀ g ∈ p.globs, g.text ≠ "" ∧ '/' ∉ g.text.toList := by
  constructor
  · intro h g hg
    obtain ⟨hf, hne⟩ := parse_eq_ok.1 h
    refine ⟨hne g hg, ?_⟩
    refine Text.notMem_of_mem_fields (s := p.text.toList) ?_
    rw [hf]
    exact List.mem_map_of_mem hg
  · intro h
    refine parse_eq_ok.2 ⟨?_, fun g hg => (h g hg).1⟩
    rw [toList_text]
    refine Text.fields_intercalate (List.cons_ne_nil _ _) fun f hf => ?_
    obtain ⟨g, hg, rfl⟩ := List.mem_map.1 hf
    exact (h g hg).2

end LabLease.ResourcePattern
