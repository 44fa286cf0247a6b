/-
When an identifier can be told from its text.

The text puts four strings between slashes, and whoever reads it cuts at
every slash. So it reads back exactly when nothing in it was cut wrongly:
no part is empty and none holds a slash (`parse_text_iff`). Identifiers
that are as odd as that may share their text with another one, but never
with one that is not (`text_inj`), and parts in front of the odd one are
still found (`exporter_eq_of_text_eq`).
-/
import LabLease.Resource.Basic

namespace LabLease.ResourceId

variable {s : String} {id id' : ResourceId}

/-- No part of the identifier is empty or holds a slash. -/
def Nameable (id : ResourceId) : Prop :=
  ∀ f ∈ id.fields, f ≠ "" ∧ '/' ∉ f.toList

instance (id : ResourceId) : Decidable id.Nameable :=
  inferInstanceAs (Decidable (∀ f ∈ id.fields, f ≠ "" ∧ '/' ∉ f.toList))

theorem nameable_iff : id.Nameable ↔
    (∀ f ∈ id.fields, f ≠ "") ∧ ∀ f ∈ id.fields, '/' ∉ f.toList := by
  unfold Nameable
  simp only [imp_and, forall_and]

/-- Identifiers are equal if their parts are. -/
theorem fields_inj (h : id.fields = id'.fields) : id = id' := by
  obtain ⟨e, g, c, n⟩ := id
  simp only [fields, List.cons.injEq] at h
  obtain ⟨rfl, rfl, rfl, rfl, -⟩ := h
  rfl

-- ================================================================ writing

theorem toList_text (id : ResourceId) :
    id.text.toList = ['/'].intercalate (id.fields.map String.toList) := by
  show (id.exporter ++ "/" ++ id.group ++ "/" ++ id.cls ++ "/"
    ++ id.name).toList = _
  simp [fields]

/-- Parts without a slash are what the text is cut into. -/
theorem fields_text (h : ∀ f ∈ id.fields, '/' ∉ f.toList) :
    Text.fields '/' id.text.toList = id.fields.map String.toList := by
  rw [toList_text]
  refine Text.fields_intercalate (List.cons_ne_nil _ _) fun f hf => ?_
  obtain ⟨g, hg, rfl⟩ := List.mem_map.1 hf
  exact h g hg

/-- Between the parts stand three slashes, and the others are in them. -/
theorem count_text (id : ResourceId) : id.text.toList.count '/'
    = (id.fields.flatMap String.toList).count '/' + 3 := by
  show (id.exporter ++ "/" ++ id.group ++ "/" ++ id.cls ++ "/"
    ++ id.name).toList.count '/' = _
  simp [fields, List.count_append]
  omega

-- ================================================================ reading

/-- A text is read by its fields, which may not be empty. -/
theorem parse_eq_ok : parse s = .ok id ↔
    Text.fields '/' s.toList = id.fields.map String.toList
      ∧ ∀ f ∈ id.fields, f ≠ "" := by
  obtain ⟨e, g, c, n⟩ := id
  unfold parse
  constructor
  · intro h
    split at h
    · next e' g' c' n' hf =>
      split at h
      · next hne =>
        cases h
        refine ⟨by simp [fields, hf], ?_⟩
        simpa [fields] using hne
      · cases h
    · cases h
  · rintro ⟨hf, hne⟩
    rw [hf]
    simp only [fields, List.map_cons, List.map_nil, String.ofList_toList]
    refine if_pos ?_
    simpa [fields] using hne

/-- What was read is written back as it was. -/
theorem text_of_parse (h : parse s = .ok id) : id.text = s := by
  refine String.toList_inj.1 ?_
  rw [toList_text, ← (parse_eq_ok.1 h).1, Text.intercalate_fields]

theorem nameable_of_parse (h : parse s = .ok id) : id.Nameable := by
  obtain ⟨hf, hne⟩ := parse_eq_ok.1 h
  refine nameable_iff.2 ⟨hne, fun f hmem => ?_⟩
  refine Text.notMem_of_mem_fields (s := s.toList) ?_
  rw [hf]
  exact List.mem_map_of_mem hmem

/-- An identifier is read back from its text iff no part of it is empty
or holds a slash. -/
theorem parse_text_iff : parse id.text = .ok id ↔ id.Nameable := by
  constructor
  · exact nameable_of_parse
  · intro h
    obtain ⟨hne, hno⟩ := nameable_iff.1 h
    exact parse_eq_ok.2 ⟨fields_text hno, hne⟩

example : ¬ Nameable ⟨"bench", "a/b", "c", "n"⟩ := by decide

-- ============================================================ shared texts

/-- A text without slashes in the parts belongs to one identifier. -/
theorem text_inj (h : ∀ f ∈ id.fields, '/' ∉ f.toList)
    (heq : id'.text = id.text) : id' = id := by
  -- there are three slashes in the text, so the other has none to spare
  have hnone : (id.fields.flatMap String.toList).count '/' = 0 := by
    rw [List.count_eq_zero, List.mem_flatMap]
    rintro ⟨f, hf, hslash⟩
    exact h f hf hslash
  have hother := id'.count_text
  rw [heq, id.count_text, hnone] at hother
  have h' : ∀ f ∈ id'.fields, '/' ∉ f.toList := by
    intro f hf hslash
    have hpos : 0 < (id'.fields.flatMap String.toList).count '/' :=
      List.count_pos_iff.2 (List.mem_flatMap.2 ⟨f, hf, hslash⟩)
    omega
  refine fields_inj ((List.map_inj_right fun _ _ => String.toList_inj.1).1 ?_)
  rw [← fields_text h', ← fields_text h, heq]

/-- Up to the first slash the text is the exporter's. -/
theorem exporter_eq_of_text_eq (h : '/' ∉ id.exporter.toList)
    (h' : '/' ∉ id'.exporter.toList) (heq : id.text = id'.text) :
    id.exporter = id'.exporter := by
  have hhead : ∀ {k : ResourceId}, '/' ∉ k.exporter.toList →
      (Text.fields '/' k.text.toList).head? = some k.exporter.toList := by
    intro k hk
    have htext : k.text.toList = k.exporter.toList
        ++ '/' :: (k.group ++ "/" ++ k.cls ++ "/" ++ k.name).toList := by
      show (k.exporter ++ "/" ++ k.group ++ "/" ++ k.cls ++ "/"
        ++ k.name).toList = _
      simp
    rw [htext, Text.fields_append_cons hk]
    rfl
  have hsome := hhead h
  rw [heq, hhead h'] at hsome
  exact String.toList_inj.1 (Option.some.inj hsome).symm

end LabLease.ResourceId
