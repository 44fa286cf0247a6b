/-
What texts are cut into. White space, as Unicode's property White_Space
lists it, is cut from both ends.

The fields of a text are the stretches between separators. Cutting a text
loses nothing (`intercalate_fields`), no field holds a separator
(`notMem_of_mem_fields`), and fields that hold none are found again in the
text they are put together to (`fields_intercalate`).
-/
namespace LabLease.Text

-- =========================================================== white space

/-- The white space of Unicode, as ranges of code points in ascending
order. -/
def blankRanges : List (Nat × Nat) :=
  [(0x09, 0x0D), (0x20, 0x20), (0x85, 0x85), (0xA0, 0xA0),
   (0x1680, 0x1680), (0x2000, 0x200A), (0x2028, 0x2029),
   (0x202F, 0x202F), (0x205F, 0x205F), (0x3000, 0x3000)]

/-- Whether a character is white space. -/
def isBlank (c : Char) : Bool :=
  blankRanges.any fun r => r.1 ≤ c.toNat && c.toNat ≤ r.2

/-- A text without the white space at its start. -/
def trimStart (s : List Char) : List Char := s.dropWhile isBlank

/-- A text without the white space at its end. -/
def trimEnd (s : List Char) : List Char :=
  (s.reverse.dropWhile isBlank).reverse

/-- A text without the white space at both ends. -/
def trim (s : List Char) : List Char := trimEnd (trimStart s)

-- ================================================================ fields

variable {α : Type} [DecidableEq α] {sep c : α} {s f : List α}

/-- The stretch in front of the first separator, and the others. -/
def cut (sep : α) : List α → List α × List (List α)
  | [] => ([], [])
  | c :: rest =>
    let (first, others) := cut sep rest
    if c = sep then ([], first :: others) else (c :: first, others)

/-- The fields of a text: one more than it has separators. -/
def fields (sep : α) (s : List α) : List (List α) :=
  (cut sep s).1 :: (cut sep s).2

theorem fields_cons_self : fields sep (sep :: s) = [] :: fields sep s := by
  simp only [fields, cut, if_pos]

theorem fields_cons_of_ne (h : c ≠ sep) :
    fields sep (c :: s) = (c :: (cut sep s).1) :: (cut sep s).2 := by
  simp only [fields, cut, if_neg h]

theorem length_fields (sep : α) (s : List α) :
    (fields sep s).length = s.count sep + 1 := by
  induction s with
  | nil => rfl
  | cons c s ih =>
    by_cases h : c = sep
    · subst h
      rw [fields_cons_self, List.length_cons, ih, List.count_cons_self]
    · rw [fields_cons_of_ne h, List.count_cons_of_ne h, ← ih]
      rfl

/-- Cutting loses nothing. -/
theorem intercalate_fields (sep : α) (s : List α) :
    [sep].intercalate (fields sep s) = s := by
  induction s with
  | nil => rfl
  | cons c s ih =>
    by_cases h : c = sep
    · subst h
      rw [fields_cons_self, List.intercalate_cons_of_ne_nil (by simp [fields]),
        ih]
      rfl
    · rw [fields_cons_of_ne h]
      rw [fields] at ih
      cases hs : (cut sep s).2 with
      | nil =>
        rw [hs, List.intercalate_singleton] at ih
        rw [List.intercalate_singleton, ih]
      | cons g gs =>
        rw [hs, List.intercalate_cons_cons] at ih
        rw [List.intercalate_cons_cons, List.cons_append, List.cons_append,
          ih]

theorem notMem_of_mem_fields (h : f ∈ fields sep s) : sep ∉ f := by
  induction s generalizing f with
  | nil => simp_all [fields, cut]
  | cons c s ih =>
    by_cases hc : c = sep
    · subst hc
      rw [fields_cons_self] at h
      rcases List.mem_cons.1 h with rfl | h
      · exact List.not_mem_nil
      · exact ih h
    · rw [fields_cons_of_ne hc] at h
      rcases List.mem_cons.1 h with rfl | h
      · rw [List.mem_cons, not_or]
        exact ⟨Ne.symm hc, ih List.mem_cons_self⟩
      · exact ih (List.mem_cons_of_mem _ h)

theorem fields_of_notMem (h : sep ∉ f) : fields sep f = [f] := by
  have hl := length_fields sep f
  rw [List.count_eq_zero.2 h] at hl
  obtain ⟨g, hg⟩ := List.length_eq_one_iff.1 hl
  have hf := intercalate_fields sep f
  rw [hg, List.intercalate_singleton] at hf
  rw [hg, hf]

/-- The first field ends where the first separator stands. -/
theorem fields_append_cons (h : sep ∉ f) :
    fields sep (f ++ sep :: s) = f :: fields sep s := by
  induction f with
  | nil => exact fields_cons_self
  | cons c f ih =>
    rw [List.mem_cons, not_or] at h
    have ih := ih h.2
    rw [fields] at ih
    rw [List.cons_append, fields_cons_of_ne (Ne.symm h.1),
      (List.cons.inj ih).1, (List.cons.inj ih).2]

/-- Fields that hold no separator are found again. -/
theorem fields_intercalate {fs : List (List α)} (hne : fs ≠ [])
    (h : ∀ f ∈ fs, sep ∉ f) : fields sep ([sep].intercalate fs) = fs := by
  induction fs with
  | nil => exact absurd rfl hne
  | cons f fs ih =>
    by_cases hfs : fs = []
    · rw [hfs, List.intercalate_singleton]
      exact fields_of_notMem (h f List.mem_cons_self)
    · rw [List.intercalate_cons_of_ne_nil hfs, List.append_assoc,
        List.singleton_append, fields_append_cons (h f List.mem_cons_self),
        ih hfs fun g hg => h g (List.mem_cons_of_mem f hg)]

end LabLease.Text
