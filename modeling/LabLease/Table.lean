/-
A finite map kept as its entries in strictly ascending key order. The
order is part of the type, so two tables that answer every look-up alike
are equal (`Table.ext_get?`), and walking the entries always meets the
keys in the one order that listings show.
-/
namespace LabLease

/-- A finite map from `κ` to `ν`, its entries in ascending key order. -/
structure Table (κ ν : Type) [Ord κ] where
  entries : List (κ × ν)
  ascending : entries.Pairwise fun a b => compare a.1 b.1 = .lt

namespace Table

variable {κ ν μ : Type} [Ord κ]

instance [DecidableEq κ] [DecidableEq ν] : DecidableEq (Table κ ν) :=
  fun s t =>
    if h : s.entries = t.entries then
      isTrue (by cases s; cases t; cases h; rfl)
    else
      isFalse fun e => h (congrArg entries e)

-- ============================================================ queries

/-- The table without entries. -/
def empty : Table κ ν := ⟨[], .nil⟩

instance : EmptyCollection (Table κ ν) := ⟨empty⟩

instance : Inhabited (Table κ ν) := ⟨empty⟩

def keys (t : Table κ ν) : List κ := t.entries.map (·.1)

def values (t : Table κ ν) : List ν := t.entries.map (·.2)

def size (t : Table κ ν) : Nat := t.entries.length

def isEmpty (t : Table κ ν) : Bool := t.entries.isEmpty

/-- The value stored under a key. -/
def get? [DecidableEq κ] (t : Table κ ν) (k : κ) : Option ν :=
  (t.entries.find? fun e => e.1 = k).map (·.2)

def contains [DecidableEq κ] (t : Table κ ν) (k : κ) : Bool :=
  (t.get? k).isSome

-- ============================================================ updates

/-- The entries with `k` set to `v`: a new key goes in front of the
first larger one, a known key keeps its position. -/
def put (k : κ) (v : ν) : List (κ × ν) → List (κ × ν)
  | [] => [(k, v)]
  | e :: rest =>
    match compare k e.1 with
    | .lt => (k, v) :: e :: rest
    | .eq => (k, v) :: rest
    | .gt => e :: put k v rest

theorem mem_put {k : κ} {v : ν} {a : κ × ν} {l : List (κ × ν)}
    (h : a ∈ put k v l) : a = (k, v) ∨ a ∈ l := by
  induction l with
  | nil => simpa [put] using h
  | cons e rest ih =>
    rw [put] at h
    split at h <;> grind

section Lawful

variable [Std.TransOrd κ] [Std.LawfulEqOrd κ]

theorem ascending_put {k : κ} {v : ν} {l : List (κ × ν)}
    (h : l.Pairwise fun a b => compare a.1 b.1 = .lt) :
    (put k v l).Pairwise fun a b => compare a.1 b.1 = .lt := by
  induction l with
  | nil => simp [put]
  | cons e rest ih =>
    obtain ⟨he, hr⟩ := List.pairwise_cons.1 h
    rw [put]
    split
    · next hlt =>
      refine List.pairwise_cons.2 ⟨fun a ha => ?_, h⟩
      rcases List.mem_cons.1 ha with rfl | ha
      · exact hlt
      · exact Std.TransCmp.lt_trans hlt (he a ha)
    · next heq =>
      refine List.pairwise_cons.2 ⟨fun a ha => ?_, hr⟩
      have : k = e.1 := Std.LawfulEqCmp.eq_of_compare heq
      exact this ▸ he a ha
    · next hgt =>
      refine List.pairwise_cons.2 ⟨fun a ha => ?_, ih hr⟩
      rcases mem_put ha with rfl | ha
      · exact Std.OrientedCmp.gt_iff_lt.1 hgt
      · exact he a ha

/-- Sets one key. -/
def insert (t : Table κ ν) (k : κ) (v : ν) : Table κ ν :=
  ⟨put k v t.entries, ascending_put t.ascending⟩

/-- The table of the given entries; of two with one key the later
counts. -/
def ofList (entries : List (κ × ν)) : Table κ ν :=
  entries.foldl (fun t e => t.insert e.1 e.2) empty

end Lawful

/-- Removes one key, if it is there. -/
def erase [DecidableEq κ] (t : Table κ ν) (k : κ) : Table κ ν :=
  ⟨t.entries.filter fun e => e.1 ≠ k, t.ascending.filter _⟩

/-- The entries that pass a test. -/
def filter (t : Table κ ν) (p : κ → ν → Bool) : Table κ ν :=
  ⟨t.entries.filter fun e => p e.1 e.2, t.ascending.filter _⟩

/-- Every value replaced, the keys as they are. -/
def mapValues (t : Table κ ν) (f : κ → ν → μ) : Table κ μ :=
  ⟨t.entries.map fun e => (e.1, f e.1 e.2), by
    rw [List.pairwise_map]
    exact t.ascending⟩

/-- The value under one key replaced, if it is there. -/
def adjust [DecidableEq κ] (t : Table κ ν) (k : κ) (f : ν → ν) :
    Table κ ν :=
  t.mapValues fun k' v => if k' = k then f v else v

-- ============================================================ look-ups

section Laws

variable [DecidableEq κ] [Std.TransOrd κ] [Std.LawfulEqOrd κ]

omit [Std.TransOrd κ] in
theorem find?_put (k k' : κ) (v : ν) (l : List (κ × ν)) :
    ((put k v l).find? fun e => e.1 = k').map (·.2)
      = if k = k' then some v
        else (l.find? fun e => e.1 = k').map (·.2) := by
  induction l with
  | nil => by_cases h : k = k' <;> simp [put, h]
  | cons e rest ih =>
    rw [put]
    split
    · by_cases h : k = k' <;> simp [List.find?_cons, h]
    · next heq =>
      have he : k = e.1 := Std.LawfulEqCmp.eq_of_compare heq
      by_cases h : k = k' <;> simp [h, ← he]
    · next hgt =>
      have hne : k ≠ e.1 := by
        rintro rfl
        simp [Std.ReflCmp.compare_self] at hgt
      by_cases h : e.1 = k'
      · have : k ≠ k' := fun hk => hne (hk.trans h.symm)
        simp [h, this]
      · rw [List.find?_cons_of_neg (by simpa using h), ih,
          List.find?_cons_of_neg (by simpa using h)]

@[simp] theorem get?_insert (t : Table κ ν) (k k' : κ) (v : ν) :
    (t.insert k v).get? k' = if k = k' then some v else t.get? k' :=
  find?_put k k' v t.entries

omit [Std.TransOrd κ] [Std.LawfulEqOrd κ] in
@[simp] theorem get?_empty (k : κ) :
    (empty : Table κ ν).get? k = none := rfl

omit [Std.TransOrd κ] [Std.LawfulEqOrd κ] in
@[simp] theorem get?_erase (t : Table κ ν) (k k' : κ) :
    (t.erase k).get? k' = if k = k' then none else t.get? k' := by
  unfold get? erase
  rw [List.find?_filter]
  by_cases h : k = k'
  · subst h
    simp
  · rw [if_neg h]
    congr 2
    funext e
    by_cases he : e.1 = k' <;> grind

omit [Std.TransOrd κ] in
theorem get?_eq_some_iff (t : Table κ ν) (k : κ) (v : ν) :
    t.get? k = some v ↔ (k, v) ∈ t.entries := by
  obtain ⟨l, hl⟩ := t
  simp only [get?]
  induction l with
  | nil => simp
  | cons e rest ih =>
    obtain ⟨he, hr⟩ := List.pairwise_cons.1 hl
    by_cases h : e.1 = k
    · have hnot : (k, v) ∉ rest := fun hm => by
        have := he _ hm
        simp [h, Std.ReflCmp.compare_self] at this
      simp only [List.find?_cons, h, decide_true, Option.map_some,
        Option.some.injEq, List.mem_cons, hnot, or_false]
      constructor
      · rintro rfl; exact Prod.ext h.symm rfl
      · intro heq; rw [← heq]
    · rw [List.find?_cons_of_neg (by simpa using h), ih hr]
      simp only [List.mem_cons]
      constructor
      · exact Or.inr
      · rintro (heq | hm)
        · exact absurd (congrArg Prod.fst heq).symm h
        · exact hm

/-- Two tables that answer every look-up alike are equal. -/
theorem ext_get? {s t : Table κ ν} (h : ∀ k, s.get? k = t.get? k) :
    s = t := by
  have hmem : ∀ e : κ × ν, e ∈ s.entries ↔ e ∈ t.entries := fun e => by
    rw [← get?_eq_some_iff, ← get?_eq_some_iff, h]
  obtain ⟨l, hl⟩ := s
  obtain ⟨m, hm⟩ := t
  simp only [mk.injEq] at hmem ⊢
  clear h
  induction l generalizing m with
  | nil =>
    cases m with
    | nil => rfl
    | cons b m' => exact absurd ((hmem b).2 List.mem_cons_self) (by simp)
  | cons a l' ih =>
    cases m with
    | nil => exact absurd ((hmem a).1 List.mem_cons_self) (by simp)
    | cons b m' =>
      obtain ⟨hla, hl'⟩ := List.pairwise_cons.1 hl
      obtain ⟨hmb, hm'⟩ := List.pairwise_cons.1 hm
      have irr : ∀ x : κ × ν, compare x.1 x.1 ≠ .lt := fun x => by
        simp [Std.ReflCmp.compare_self]
      have hab : a = b := by
        rcases List.mem_cons.1 ((hmem a).1 List.mem_cons_self) with h1 | h1
        · exact h1
        · rcases List.mem_cons.1 ((hmem b).2 List.mem_cons_self) with h2 | h2
          · exact h2.symm
          · exact absurd (Std.TransCmp.lt_trans (hla b h2) (hmb a h1))
              (irr a)
      subst hab
      congr 1
      refine ih hl' m' hm' fun e => ?_
      constructor
      · intro he
        rcases List.mem_cons.1 ((hmem e).1 (List.mem_cons_of_mem _ he))
          with h1 | h1
        · exact absurd (h1 ▸ hla e he) (irr e)
        · exact h1
      · intro he
        rcases List.mem_cons.1 ((hmem e).2 (List.mem_cons_of_mem _ he))
          with h1 | h1
        · exact absurd (h1 ▸ hmb e he) (irr e)
        · exact h1

end Laws

end Table

end LabLease
