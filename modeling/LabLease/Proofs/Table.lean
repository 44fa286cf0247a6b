/-
More laws of `Table`, all read through look-ups: what filtering and
mapping do to one key, which values a table lists, and when a list of
entries rebuilds a table.

# Why look-ups

Every registry of the coordinator is a `Table`, and every claim about a
registry is a claim about what is stored under some key. The order of
the entries matters in three places only: the smallest resource goes
first when patterns are bound (`pairwise_keys`), a view lists the
selected resources in order (`keys_eq_of_contains`), and a snapshot is a
list from which a replica rebuilds the tables (`ofList_eq`).
-/
import LabLease.Table

namespace LabLease.Table

variable {κ ν μ : Type} [Ord κ] [DecidableEq κ] [Std.LawfulEqOrd κ]

-- ========================================================== membership

/-- A value is listed iff it is stored under some key. -/
theorem mem_values {t : Table κ ν} {v : ν} :
    v ∈ t.values ↔ ∃ k, t.get? k = some v := by
  unfold values
  rw [List.mem_map]
  constructor
  · intro hex
    obtain ⟨⟨k, w⟩, hmem, rfl⟩ := hex
    exact ⟨k, (get?_eq_some_iff t k w).2 hmem⟩
  · intro hex
    obtain ⟨k, hk⟩ := hex
    exact ⟨(k, v), (get?_eq_some_iff t k v).1 hk, rfl⟩

/-- A key is listed iff something is stored under it. -/
theorem mem_keys {t : Table κ ν} {k : κ} :
    k ∈ t.keys ↔ ∃ v, t.get? k = some v := by
  unfold keys
  rw [List.mem_map]
  constructor
  · intro hex
    obtain ⟨⟨k', v⟩, hmem, rfl⟩ := hex
    exact ⟨v, (get?_eq_some_iff t k' v).2 hmem⟩
  · intro hex
    obtain ⟨v, hv⟩ := hex
    exact ⟨(k, v), (get?_eq_some_iff t k v).1 hv, rfl⟩

theorem mem_keys_iff_contains {t : Table κ ν} {k : κ} :
    k ∈ t.keys ↔ t.contains k = true := by
  rw [mem_keys, contains, Option.isSome_iff_exists]

theorem contains_insert [Std.TransOrd κ] {t : Table κ ν} {k k' : κ} {v : ν} :
    (t.insert k v).contains k' = true ↔ k = k' ∨ t.contains k' = true := by
  unfold contains
  rw [get?_insert]
  by_cases hk : k = k' <;> simp [hk]

omit [Std.LawfulEqOrd κ] in
theorem contains_erase {t : Table κ ν} {k k' : κ} :
    (t.erase k).contains k' = true ↔ k ≠ k' ∧ t.contains k' = true := by
  unfold contains
  rw [get?_erase]
  by_cases hk : k = k' <;> simp [hk]

/-- Nothing goes where nothing is stored. -/
theorem erase_of_not_contains [Std.TransOrd κ] {t : Table κ ν} {k : κ}
    (h : t.contains k = false) : t.erase k = t := by
  refine ext_get? fun k' => ?_
  rw [get?_erase]
  split
  · next heq =>
    exact heq ▸ (Option.isNone_iff_eq_none.1
      (Option.isSome_eq_false_iff.1 h)).symm
  · rfl

/-- What is stored already can be stored again. -/
theorem insert_of_get? [Std.TransOrd κ] {t : Table κ ν} {k : κ} {v : ν}
    (h : t.get? k = some v) : t.insert k v = t := by
  refine ext_get? fun k' => ?_
  rw [get?_insert]
  split
  · next heq => exact heq ▸ h.symm
  · rfl

omit [DecidableEq κ] [Std.LawfulEqOrd κ] in
/-- The keys ascend strictly. -/
theorem pairwise_keys (t : Table κ ν) :
    t.keys.Pairwise fun a b => compare a b = .lt := by
  unfold keys
  rw [List.pairwise_map]
  exact t.ascending

omit [DecidableEq κ] in
theorem nodup_keys (t : Table κ ν) : t.keys.Nodup := by
  refine t.pairwise_keys.imp fun {a b} hlt heq => ?_
  rw [heq] at hlt
  simp [Std.ReflCmp.compare_self] at hlt

-- ================================================= filtering and mapping

/-- What holds between the values under any two keys holds between any
two values in a row. -/
theorem pairwise_values {t : Table κ ν} {R : ν → ν → Prop}
    (h : ∀ i j v w, i ≠ j → t.get? i = some v → t.get? j = some w →
      R v w) : t.values.Pairwise R := by
  unfold values
  rw [List.pairwise_map]
  have hkeys : t.entries.Pairwise fun a b => a.1 ≠ b.1 :=
    List.pairwise_map.1 t.nodup_keys
  refine hkeys.imp_of_mem fun {a b} ha hb hne => ?_
  exact h a.1 b.1 a.2 b.2 hne ((get?_eq_some_iff _ _ _).2 ha)
    ((get?_eq_some_iff _ _ _).2 hb)

@[simp] theorem get?_filter (t : Table κ ν) (p : κ → ν → Bool) (k : κ) :
    (t.filter p).get? k = (t.get? k).filter (p k) := by
  refine Option.ext fun v => ?_
  rw [get?_eq_some_iff, Option.filter_eq_some_iff, get?_eq_some_iff]
  exact List.mem_filter

theorem mem_keys_filter {t : Table κ ν} {p : κ → ν → Bool} {k : κ} :
    k ∈ (t.filter p).keys ↔ ∃ v, t.get? k = some v ∧ p k v = true := by
  rw [mem_keys]
  simp only [get?_filter, Option.filter_eq_some_iff]

omit [Std.LawfulEqOrd κ] in
@[simp] theorem get?_mapValues (t : Table κ ν) (f : κ → ν → μ) (k : κ) :
    (t.mapValues f).get? k = (t.get? k).map (f k) := by
  show ((t.entries.map fun e => (e.1, f e.1 e.2)).find? fun e => e.1 = k).map
      (·.2) = ((t.entries.find? fun e => e.1 = k).map (·.2)).map (f k)
  induction t.entries with
  | nil => rfl
  | cons e rest ih =>
    rw [List.map_cons]
    by_cases h : e.1 = k
    · rw [List.find?_cons_of_pos (by simpa using h),
        List.find?_cons_of_pos (by simpa using h)]
      simp [h]
    · rw [List.find?_cons_of_neg (by simpa using h),
        List.find?_cons_of_neg (by simpa using h)]
      exact ih

omit [Std.LawfulEqOrd κ] in
@[simp] theorem get?_adjust (t : Table κ ν) (k k' : κ) (f : ν → ν) :
    (t.adjust k f).get? k'
      = (t.get? k').map fun v => if k' = k then f v else v :=
  get?_mapValues t _ k'

omit [DecidableEq κ] [Std.LawfulEqOrd κ] in
/-- Mapping keeps the keys, in their order. -/
@[simp] theorem keys_mapValues (t : Table κ ν) (f : κ → ν → μ) :
    (t.mapValues f).keys = t.keys := by
  unfold keys mapValues
  rw [List.map_map]
  rfl

section Lawful

variable [Std.TransOrd κ]

/-- Two tables that store something under the same keys list the same
keys: the order leaves no choice. -/
theorem keys_eq_of_contains {s : Table κ ν} {t : Table κ μ}
    (h : ∀ k, s.contains k = t.contains k) : s.keys = t.keys := by
  have hunit : s.mapValues (fun _ _ => ()) = t.mapValues (fun _ _ => ()) := by
    refine ext_get? fun k => ?_
    have hk := h k
    unfold contains at hk
    rw [get?_mapValues, get?_mapValues]
    cases hs : s.get? k <;> cases ht : t.get? k <;> simp_all
  rw [← keys_mapValues s (fun _ _ => ()), hunit, keys_mapValues]

-- ============================================================ rebuilding

/-- Entries that are inserted one by one: of those under one key the last
counts, and a key that does not occur keeps what it had. -/
theorem get?_foldl_insert (l : List (κ × ν)) (t : Table κ ν) (k : κ)
    (h : k ∉ l.map (·.1)) :
    (l.foldl (fun t e => t.insert e.1 e.2) t).get? k = t.get? k := by
  induction l generalizing t with
  | nil => rfl
  | cons e rest ih =>
    rw [List.map_cons, List.mem_cons, not_or] at h
    rw [List.foldl_cons, ih _ h.2, get?_insert, if_neg (Ne.symm h.1)]

theorem get?_foldl_insert_of_mem {l : List (κ × ν)} {t : Table κ ν} {k : κ}
    {v : ν} (hnd : (l.map (·.1)).Nodup) (hmem : (k, v) ∈ l) :
    (l.foldl (fun t e => t.insert e.1 e.2) t).get? k = some v := by
  induction l generalizing t with
  | nil => cases hmem
  | cons e rest ih =>
    rw [List.map_cons, List.nodup_cons] at hnd
    rw [List.foldl_cons]
    rcases List.mem_cons.1 hmem with rfl | hmem
    · rw [get?_foldl_insert rest _ _ hnd.1, get?_insert, if_pos rfl]
    · exact ih hnd.2 hmem

/-- A list without repeated keys that has exactly a table's entries, in
any order, rebuilds the table. -/
theorem ofList_eq {l : List (κ × ν)} {t : Table κ ν}
    (hnd : (l.map (·.1)).Nodup)
    (h : ∀ k v, (k, v) ∈ l ↔ t.get? k = some v) : ofList l = t := by
  refine ext_get? fun k => ?_
  unfold ofList
  cases ht : t.get? k with
  | some v => exact get?_foldl_insert_of_mem hnd ((h k v).2 ht)
  | none =>
    rw [get?_foldl_insert, get?_empty]
    intro hmem
    obtain ⟨⟨k', v⟩, hkv, rfl⟩ := List.mem_map.1 hmem
    rw [(h k' v).1 hkv] at ht
    cases ht

/-- A table is rebuilt from its entries. -/
theorem ofList_entries (t : Table κ ν) : ofList t.entries = t :=
  ofList_eq t.nodup_keys fun k v => (get?_eq_some_iff t k v).symm

/-- A table whose values know their keys is rebuilt from its values in any
order. -/
theorem ofList_values {t : Table κ ν} (f : ν → μ) (key : μ → κ)
    (hkey : ∀ k v, t.get? k = some v → key (f v) = k) {l : List ν}
    (hl : l.Perm t.values) :
    ofList (l.map fun v => (key (f v), f v))
      = t.mapValues fun _ v => f v := by
  refine ofList_eq ?_ fun k w => ?_
  · have hkeys : t.values.map (fun v => key (f v)) = t.keys := by
      unfold values keys
      rw [List.map_map]
      refine List.map_congr_left fun e he => ?_
      exact hkey e.1 e.2 ((get?_eq_some_iff _ _ _).2 he)
    rw [List.map_map]
    refine (hl.map fun v => key (f v)).nodup_iff.2 ?_
    rw [hkeys]
    exact t.nodup_keys
  · rw [List.mem_map, get?_mapValues, Option.map_eq_some_iff]
    constructor
    · intro hex
      obtain ⟨v, hv, heq⟩ := hex
      obtain ⟨k', hk'⟩ := mem_values.1 (hl.mem_iff.1 hv)
      obtain ⟨rfl, rfl⟩ := Prod.mk.inj heq
      exact ⟨v, (hkey k' v hk').symm ▸ hk', rfl⟩
    · intro hex
      obtain ⟨v, hv, rfl⟩ := hex
      refine ⟨v, hl.mem_iff.2 (mem_values.2 ⟨k, hv⟩), ?_⟩
      rw [hkey k v hv]

end Lawful

-- ======================================================== kinds of values

section Kinds

variable {κ ν μ : Type} [Ord κ] {P : ν → Prop} {t : Table κ ν}

/-- Whether all values of a table are of some kind. -/
def All (P : ν → Prop) (t : Table κ ν) : Prop := ∀ v ∈ t.values, P v

theorem All.empty : All P (.empty : Table κ ν) := nofun

theorem All.insert [Std.TransOrd κ] [Std.LawfulEqOrd κ] (h : t.All P)
    (k : κ) {v : ν} (hv : P v) : (t.insert k v).All P := by
  intro w hw
  obtain ⟨e, he, rfl⟩ := List.mem_map.1 hw
  rcases mem_put he with rfl | hmem
  · exact hv
  · exact h _ (List.mem_map_of_mem hmem)

theorem All.erase [DecidableEq κ] (h : t.All P) (k : κ) :
    (t.erase k).All P := by
  intro w hw
  obtain ⟨e, he, rfl⟩ := List.mem_map.1 hw
  exact h _ (List.mem_map_of_mem ((List.mem_filter.1 he).1))

theorem All.filter (h : t.All P) (p : κ → ν → Bool) :
    (t.filter p).All P := by
  intro w hw
  obtain ⟨e, he, rfl⟩ := List.mem_map.1 hw
  exact h _ (List.mem_map_of_mem ((List.mem_filter.1 he).1))

theorem All.mapValues {Q : μ → Prop} (h : t.All P) {f : κ → ν → μ}
    (hf : ∀ k v, P v → Q (f k v)) : (t.mapValues f).All Q := by
  intro w hw
  obtain ⟨e, he, rfl⟩ := List.mem_map.1 hw
  obtain ⟨e', he', rfl⟩ := List.mem_map.1 he
  exact hf _ _ (h _ (List.mem_map_of_mem he'))

theorem All.adjust [DecidableEq κ] (h : t.All P) (k : κ) {f : ν → ν}
    (hf : ∀ v, P v → P (f v)) : (t.adjust k f).All P := by
  refine h.mapValues fun k' v hv => ?_
  split
  · exact hf v hv
  · exact hv

theorem All.ofList [Std.TransOrd κ] [Std.LawfulEqOrd κ]
    {l : List (κ × ν)} (h : ∀ e ∈ l, P e.2) : (Table.ofList l).All P :=
  List.foldlRecOn l _ .empty fun _ ht e he => ht.insert e.1 (h e he)

theorem All.get [DecidableEq κ] [Std.LawfulEqOrd κ] (h : t.All P) {k : κ}
    {v : ν} (hk : t.get? k = some v) : P v :=
  h v (mem_values.2 ⟨k, hk⟩)

theorem All.entry (h : t.All P) {e : κ × ν} (he : e ∈ t.entries) :
    P e.2 :=
  h e.2 (List.mem_map_of_mem he)

end Kinds

end LabLease.Table
