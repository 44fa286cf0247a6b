/-
Values whose numbers are integers, and the trees that their texts are
read as. Such a tree has its value's meaning back, if it is not too deep
and the members of its objects are in order.

Objects of the wire format itself have their members in an order of their
own. That matters to no reader of a record, but the free parameters of a
resource are values, and these come back with their members in order.
-/
import LabLease.Json.Value
import LabLease.Proofs.Number.Digits
import LabLease.Proofs.Table

namespace LabLease.Json

-- ============================================================== integers

namespace Numeral

/-- The literal of an integer. -/
def ofInt : Int → Numeral
  | .ofNat n => ⟨false, (Nat.toDigits 10 n).map digitValue, [], none⟩
  | .negSucc n => ⟨true, (Nat.toDigits 10 (n + 1)).map digitValue, [], none⟩

theorem le_ofDigitChars (ds : List Char) (n : Nat) :
    n ≤ Nat.ofDigitChars 10 ds n := by
  induction ds generalizing n with
  | nil => exact Nat.le_refl n
  | cons d ds ih =>
    rw [Nat.ofDigitChars_cons]
    have := ih (10 * n + (d.toNat - '0'.toNat))
    omega

/-- Digits that fit in 64 bits are taken in whole. -/
theorem absorb_digits (ds : List Char) (n : Nat)
    (h : Nat.ofDigitChars 10 ds n < wordLimit) :
    absorb n (ds.map digitValue) = (Nat.ofDigitChars 10 ds n, []) := by
  induction ds generalizing n with
  | nil => rfl
  | cons d ds ih =>
    rw [Nat.ofDigitChars_cons] at h ⊢
    have hnext : n * 10 + digitValue d
        = 10 * n + (d.toNat - '0'.toNat) := by
      rw [Nat.mul_comm]
      rfl
    have hle := le_ofDigitChars ds (10 * n + (d.toNat - '0'.toNat))
    rw [List.map_cons, absorb, hnext, if_pos (by omega)]
    exact ih _ h

/-- Digits that are taken in whole, however many, are the number. -/
theorem eq_of_absorb (ds : List Char) (n : Nat)
    (h : (absorb n (ds.map digitValue)).2.isEmpty = true) :
    (absorb n (ds.map digitValue)).1 = Nat.ofDigitChars 10 ds n := by
  induction ds generalizing n with
  | nil => rfl
  | cons d ds ih =>
    rw [List.map_cons, absorb] at h ⊢
    split at h
    · next hlt =>
      rw [if_pos hlt, ih _ h, Nat.ofDigitChars_cons, Nat.mul_comm]
      rfl
    · cases h

end Numeral

/-- An integer of 64 bits, with a sign or without. -/
def Number.isWord : Number → Bool
  | .integer n => -(twoTo 63 : Int) ≤ n && n < twoTo 64
  | .real _ => false

namespace Numeral

/-- The literal of an integer denotes it. -/
theorem integer?_ofInt {n : Int}
    (h : (Number.integer n).isWord = true) :
    (ofInt n).integer? = some n := by
  unfold Number.isWord at h
  rw [Bool.and_eq_true, decide_eq_true_eq, decide_eq_true_eq] at h
  cases n with
  | ofNat n =>
    have hfits : n < wordLimit := Int.ofNat_lt.1 h.2
    have habsorb := absorb_digits (Nat.toDigits 10 n) 0
      (by rw [Nat.ofDigitChars_ten_toDigits]; exact hfits)
    rw [Nat.ofDigitChars_ten_toDigits] at habsorb
    unfold integer? ofInt isWhole
    dsimp only
    rw [habsorb]
    rfl
  | negSucc n =>
    have hlow : n + 1 ≤ twoTo 63 := by
      have := h.1
      omega
    have hlimit : twoTo 63 < wordLimit := by decide
    have habsorb := absorb_digits (Nat.toDigits 10 (n + 1)) 0
      (by rw [Nat.ofDigitChars_ten_toDigits]; omega)
    rw [Nat.ofDigitChars_ten_toDigits] at habsorb
    unfold integer? ofInt isWhole
    dsimp only
    rw [habsorb]
    show (if 0 < n + 1 ∧ n + 1 ≤ twoTo 63 then _ else _) = _
    rw [if_pos ⟨Nat.succ_pos n, hlow⟩]
    rfl

/-- An integer that does not fit in 64 bits is none to a reader. -/
theorem integer?_ofInt_eq_none {n : Int}
    (h : (absorb 0 (ofInt n).whole).2.isEmpty = false) :
    (ofInt n).integer? = none := by
  unfold integer?
  dsimp only
  rw [h, Bool.not_false, Bool.or_true]
  rfl

/-- The literal of an integer denotes no other, whatever its size. -/
theorem eq_of_integer?_ofInt {n i : Int}
    (h : (ofInt n).integer? = some i) : i = n := by
  have hall : (absorb 0 (ofInt n).whole).2.isEmpty = true := by
    cases hempty : (absorb 0 (ofInt n).whole).2.isEmpty with
    | true => rfl
    | false =>
      rw [integer?_ofInt_eq_none hempty] at h
      cases h
  have hwhole : (ofInt n).isWhole = true := by cases n <;> rfl
  unfold integer? at h
  dsimp only at h
  rw [hall, hwhole, Bool.not_true, Bool.or_self, if_neg Bool.false_ne_true]
    at h
  cases n with
  | ofNat n =>
    have hdigits := eq_of_absorb (Nat.toDigits 10 n) 0 hall
    rw [Nat.ofDigitChars_ten_toDigits] at hdigits
    cases h
    exact congrArg Int.ofNat hdigits
  | negSucc n =>
    have hdigits := eq_of_absorb (Nat.toDigits 10 (n + 1)) 0 hall
    rw [Nat.ofDigitChars_ten_toDigits] at hdigits
    rw [if_pos (show (ofInt (.negSucc n)).negative = true from rfl)] at h
    split at h
    · cases h
      exact congrArg (fun m : Nat => -(m : Int)) hdigits
    · cases h

end Numeral

namespace Value

-- ============================================================== measures

/-- What holds of scalars, and of a container if it holds of all that is
in it, holds of every value. -/
@[elab_as_elim, induction_eliminator]
theorem induct {P : Value → Prop} (null : P .null)
    (bool : ∀ b, P (.bool b)) (number : ∀ n, P (.number n))
    (string : ∀ s, P (.string s))
    (array : ∀ vs, (∀ v ∈ vs, P v) → P (.array vs))
    (object : ∀ ms, (∀ m ∈ ms, P m.2) → P (.object ms)) :
    ∀ v, P v := by
  intro v
  refine Value.rec (motive_1 := P) (motive_2 := fun vs => ∀ v ∈ vs, P v)
    (motive_3 := fun ms => ∀ m ∈ ms, P m.2) (motive_4 := fun m => P m.2)
    null bool number string array object ?_ ?_ ?_ ?_ ?_ v
  · exact fun v hv => absurd hv List.not_mem_nil
  · exact fun v vs hv hvs => List.forall_mem_cons.2 ⟨hv, hvs⟩
  · exact fun m hm => absurd hm List.not_mem_nil
  · exact fun m ms hm hms => List.forall_mem_cons.2 ⟨hm, hms⟩
  · exact fun _ _ hv => hv

mutual

/-- How many containers are open at once in the text of a value. -/
def depth : Value → Nat
  | .array vs => depthItems vs + 1
  | .object ms => depthMembers ms + 1
  | _ => 0

def depthItems : List Value → Nat
  | [] => 0
  | v :: vs => max v.depth (depthItems vs)

def depthMembers : List (String × Value) → Nat
  | [] => 0
  | (_, v) :: ms => max v.depth (depthMembers ms)

end

theorem depth_le_items {v : Value} {vs : List Value} (h : v ∈ vs) :
    v.depth ≤ depthItems vs := by
  induction vs with
  | nil => cases h
  | cons w vs ih =>
    rw [depthItems]
    rcases List.mem_cons.1 h with rfl | hmem
    · exact Nat.le_max_left _ _
    · exact Nat.le_trans (ih hmem) (Nat.le_max_right _ _)

theorem depth_le_members {m : String × Value}
    {ms : List (String × Value)} (h : m ∈ ms) :
    m.2.depth ≤ depthMembers ms := by
  induction ms with
  | nil => cases h
  | cons w ms ih =>
    rw [depthMembers]
    rcases List.mem_cons.1 h with rfl | hmem
    · exact Nat.le_max_left _ _
    · exact Nat.le_trans (ih hmem) (Nat.le_max_right _ _)

mutual

/-- Whether every number is an integer of 64 bits. -/
def isPlain : Value → Bool
  | .number n => n.isWord
  | .array vs => arePlain vs
  | .object ms => membersArePlain ms
  | _ => true

def arePlain : List Value → Bool
  | [] => true
  | v :: vs => v.isPlain && arePlain vs

def membersArePlain : List (String × Value) → Bool
  | [] => true
  | (_, v) :: ms => v.isPlain && membersArePlain ms

end

theorem isPlain_array {vs : List Value} :
    (Value.array vs).isPlain = true ↔ ∀ v ∈ vs, v.isPlain = true := by
  show arePlain vs = true ↔ _
  induction vs with
  | nil => simp [arePlain]
  | cons v vs ih => simp [arePlain, ih]

theorem isPlain_object {ms : List (String × Value)} :
    (Value.object ms).isPlain = true
      ↔ ∀ m ∈ ms, m.2.isPlain = true := by
  show membersArePlain ms = true ↔ _
  induction ms with
  | nil => simp [membersArePlain]
  | cons m ms ih => simp [membersArePlain, ih]

mutual

/-- Whether the members of every object are in the order of their names,
each name once. -/
def isOrdered : Value → Bool
  | .array vs => areOrdered vs
  | .object ms =>
    decide (ms.Pairwise fun a b => compare a.1 b.1 = .lt)
      && membersAreOrdered ms
  | _ => true

def areOrdered : List Value → Bool
  | [] => true
  | v :: vs => v.isOrdered && areOrdered vs

def membersAreOrdered : List (String × Value) → Bool
  | [] => true
  | (_, v) :: ms => v.isOrdered && membersAreOrdered ms

end

theorem isOrdered_array {vs : List Value} :
    (Value.array vs).isOrdered = true
      ↔ ∀ v ∈ vs, v.isOrdered = true := by
  show areOrdered vs = true ↔ _
  induction vs with
  | nil => simp [areOrdered]
  | cons v vs ih => simp [areOrdered, ih]

theorem isOrdered_object {ms : List (String × Value)} :
    (Value.object ms).isOrdered = true
      ↔ ms.Pairwise (fun a b => compare a.1 b.1 = .lt)
        ∧ ∀ m ∈ ms, m.2.isOrdered = true := by
  have hmembers : membersAreOrdered ms = true
      ↔ ∀ m ∈ ms, m.2.isOrdered = true := by
    induction ms with
    | nil => simp [membersAreOrdered]
    | cons m ms ih => simp [membersAreOrdered, ih]
  rw [isOrdered, Bool.and_eq_true, decide_eq_true_eq, hmembers]

-- ================================================================= trees

mutual

/-- The tree that the text of a value is read as, if its numbers are
integers. -/
def tree : Value → Tree
  | .null => .null
  | .bool b => .bool b
  | .number (.integer n) => .number (.ofInt n)
  | .number (.real x) => .real (some x)
  | .string s => .string (some s)
  | .array vs => .array (trees vs)
  | .object ms => .object (memberTrees ms)

def trees : List Value → List Tree
  | [] => []
  | v :: vs => v.tree :: trees vs

def memberTrees :
    List (String × Value) → List (Option String × Tree)
  | [] => []
  | (name, v) :: ms => (some name, v.tree) :: memberTrees ms

end

theorem tree_array (vs : List Value) :
    (Value.array vs).tree = .array (vs.map tree) := by
  rw [tree]
  congr 1
  induction vs with
  | nil => rfl
  | cons v vs ih => rw [trees, ih]; rfl

theorem tree_object (ms : List (String × Value)) :
    (Value.object ms).tree
      = .object (ms.map fun m => (some m.1, m.2.tree)) := by
  rw [tree]
  congr 1
  induction ms with
  | nil => rfl
  | cons m ms ih => rw [memberTrees, ih]; rfl

-- =============================================================== meaning

/-- The values of trees, one by one. -/
theorem valueItems?_trees (room : Nat) {vs : List Value}
    (h : ∀ v ∈ vs, ∃ w, v.tree.value? room = some w
      ∧ (v.isOrdered = true → w = v)) :
    ∃ ws, Tree.valueItems? room (vs.map tree) = some ws
      ∧ ((∀ v ∈ vs, v.isOrdered = true) → ws = vs) := by
  induction vs with
  | nil => exact ⟨[], rfl, fun _ => rfl⟩
  | cons v vs ih =>
    rw [List.forall_mem_cons] at h
    obtain ⟨w, hw, hsame⟩ := h.1
    obtain ⟨ws, hws, hsames⟩ := ih h.2
    refine ⟨w :: ws, ?_, fun hord => ?_⟩
    · rw [List.map_cons, Tree.valueItems?, hw, hws]
      rfl
    · rw [List.forall_mem_cons] at hord
      rw [hsame hord.1, hsames hord.2]

theorem valueMembers?_trees (room : Nat) {ms : List (String × Value)}
    (h : ∀ m ∈ ms, ∃ w, m.2.tree.value? room = some w
      ∧ (m.2.isOrdered = true → w = m.2)) :
    ∃ ws, Tree.valueMembers? room
        (ms.map fun m => (some m.1, m.2.tree)) = some ws
      ∧ ((∀ m ∈ ms, m.2.isOrdered = true) → ws = ms) := by
  induction ms with
  | nil => exact ⟨[], rfl, fun _ => rfl⟩
  | cons m ms ih =>
    rw [List.forall_mem_cons] at h
    obtain ⟨w, hw, hsame⟩ := h.1
    obtain ⟨ws, hws, hsames⟩ := ih h.2
    refine ⟨(m.1, w) :: ws, ?_, fun hord => ?_⟩
    · rw [List.map_cons, Tree.valueMembers?, hw, hws]
      rfl
    · rw [List.forall_mem_cons] at hord
      rw [hsame hord.1, hsames hord.2]

/-- A tree has a meaning where there is room for it, and that is the
value if the value is in order. -/
theorem value?_tree {v : Value} (hplain : v.isPlain = true)
    {room : Nat} (hroom : v.depth ≤ room) :
    ∃ w, v.tree.value? room = some w ∧ (v.isOrdered = true → w = v) := by
  induction v generalizing room with
  | null => exact ⟨_, rfl, fun _ => rfl⟩
  | bool b => exact ⟨_, rfl, fun _ => rfl⟩
  | string s => exact ⟨_, rfl, fun _ => rfl⟩
  | number n =>
    cases n with
    | real x => cases hplain
    | integer n =>
      refine ⟨_, ?_, fun _ => rfl⟩
      show ((Numeral.ofInt n).number?).map Value.number = _
      unfold Numeral.number?
      rw [Numeral.integer?_ofInt hplain]
      rfl
  | array vs ih =>
    rw [isPlain_array] at hplain
    rw [depth] at hroom
    obtain ⟨room, rfl⟩ : ∃ n, room = n + 1 := ⟨room - 1, by omega⟩
    obtain ⟨ws, hws, hsame⟩ := valueItems?_trees room
      fun v hv => ih v hv (hplain v hv)
        (Nat.le_trans (depth_le_items hv) (Nat.le_of_succ_le_succ hroom))
    refine ⟨.array ws, ?_, fun hord => ?_⟩
    · rw [tree_array, Tree.value?, hws]
      rfl
    · rw [hsame (isOrdered_array.1 hord)]
  | object ms ih =>
    rw [isPlain_object] at hplain
    rw [depth] at hroom
    obtain ⟨room, rfl⟩ : ∃ n, room = n + 1 := ⟨room - 1, by omega⟩
    obtain ⟨ws, hws, hsame⟩ := valueMembers?_trees room
      fun m hm => ih m hm (hplain m hm)
        (Nat.le_trans (depth_le_members hm) (Nat.le_of_succ_le_succ hroom))
    refine ⟨.object (Table.ofList ws).entries, ?_, fun hord => ?_⟩
    · rw [tree_object, Tree.value?, hws]
      rfl
    · obtain ⟨hasc, hord⟩ := isOrdered_object.1 hord
      rw [hsame hord]
      exact congrArg Value.object
        (congrArg Table.entries (Table.ofList_entries ⟨ms, hasc⟩))

theorem isSound_tree {v : Value} (hplain : v.isPlain = true) {room : Nat}
    (hroom : v.depth ≤ room) : v.tree.isSound room = true := by
  obtain ⟨w, hw, -⟩ := value?_tree hplain hroom
  unfold Tree.isSound
  rw [hw]
  rfl

-- ================================================================== room

theorem depthItems_le {vs : List Value} {n : Nat}
    (h : ∀ v ∈ vs, v.depth ≤ n) : depthItems vs ≤ n := by
  induction vs with
  | nil => exact Nat.zero_le n
  | cons v vs ih =>
    rw [List.forall_mem_cons] at h
    exact Nat.max_le.2 ⟨h.1, ih h.2⟩

theorem depthMembers_le {ms : List (String × Value)} {n : Nat}
    (h : ∀ m ∈ ms, m.2.depth ≤ n) : depthMembers ms ≤ n := by
  induction ms with
  | nil => exact Nat.zero_le n
  | cons m ms ih =>
    rw [List.forall_mem_cons] at h
    exact Nat.max_le.2 ⟨h.1, ih h.2⟩

theorem value?_of_items {room : Nat} {vs ws : List Value}
    (h : Tree.valueItems? room (vs.map tree) = some ws) :
    ∀ v ∈ vs, ∃ w, v.tree.value? room = some w := by
  induction vs generalizing ws with
  | nil => exact fun v hv => absurd hv List.not_mem_nil
  | cons v vs ih =>
    obtain ⟨w, hw, h⟩ := Option.bind_eq_some_iff.1 h
    obtain ⟨ws, hws, -⟩ := Option.bind_eq_some_iff.1 h
    exact List.forall_mem_cons.2 ⟨⟨w, hw⟩, ih hws⟩

theorem value?_of_members {room : Nat} {ms ws : List (String × Value)}
    (h : Tree.valueMembers? room (ms.map fun m => (some m.1, m.2.tree))
      = some ws) :
    ∀ m ∈ ms, ∃ w, m.2.tree.value? room = some w := by
  induction ms generalizing ws with
  | nil => exact fun m hm => absurd hm List.not_mem_nil
  | cons m ms ih =>
    obtain ⟨w, hw, h⟩ := Option.bind_eq_some_iff.1 h
    obtain ⟨ws, hws, -⟩ := Option.bind_eq_some_iff.1 h
    exact List.forall_mem_cons.2 ⟨⟨w, hw⟩, ih hws⟩

/-- Nothing has a meaning where there is no room for it. -/
theorem depth_le_of_value? {v w : Value} {room : Nat}
    (h : v.tree.value? room = some w) : v.depth ≤ room := by
  induction v generalizing room w with
  | null => exact Nat.zero_le room
  | bool b => exact Nat.zero_le room
  | number n => exact Nat.zero_le room
  | string s => exact Nat.zero_le room
  | array vs ih =>
    rw [tree_array] at h
    cases room with
    | zero => cases h
    | succ room =>
      obtain ⟨ws, hws, -⟩ := Option.map_eq_some_iff.1 h
      refine Nat.succ_le_succ (depthItems_le fun v hv => ?_)
      obtain ⟨w, hw⟩ := value?_of_items hws v hv
      exact ih v hv hw
  | object ms ih =>
    rw [tree_object] at h
    cases room with
    | zero => cases h
    | succ room =>
      obtain ⟨ws, hws, -⟩ := Option.map_eq_some_iff.1 h
      refine Nat.succ_le_succ (depthMembers_le fun m hm => ?_)
      obtain ⟨w, hw⟩ := value?_of_members hws m hm
      exact ih m hm hw

theorem depth_le_of_isSound {v : Value} {room : Nat}
    (h : v.tree.isSound room = true) : v.depth ≤ room := by
  obtain ⟨w, hw⟩ := Option.isSome_iff_exists.1 h
  exact depth_le_of_value? hw

end Value

end LabLease.Json
