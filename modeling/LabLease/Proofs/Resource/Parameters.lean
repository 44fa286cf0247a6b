/-
What it takes for the parameters of two resources to be the same: that
they are equal, or free ones that are equal once both zeros are written as
one. The sign of a zero is all that is not seen.
-/
import LabLease.Proofs.Json.Value
import LabLease.Resource.Basic

namespace LabLease

/-- The number with one zero for both. -/
def Binary64.normal (x : Binary64) : Binary64 :=
  if x.isZero then .zero else x

/-- Numbers are compared as numbers, so both zeros are one. -/
theorem Binary64.sameNumber_iff {x y : Binary64} :
    x.sameNumber y = true ↔ x.normal = y.normal := by
  have hzero : Binary64.zero.isZero = true := rfl
  unfold sameNumber normal
  by_cases hx : x.isZero = true
  · by_cases hy : y.isZero = true
    · simp [hx, hy]
    · have hne : Binary64.zero ≠ y := fun h => hy (h ▸ hzero)
      have hne' : x ≠ y := fun h => hy (h ▸ hx)
      simp [hx, hy, hne, hne']
  · by_cases hy : y.isZero = true
    · have hne : x ≠ Binary64.zero := fun h => hx (h ▸ hzero)
      have hne' : x ≠ y := fun h => hx (h ▸ hy)
      simp [hx, hy, hne, hne']
    · simp [hx, hy]

namespace Json

def Number.normal : Number → Number
  | .integer n => .integer n
  | .real x => .real x.normal

/-- An integer is never the same as a real. -/
theorem Number.same_iff {m n : Number} :
    m.same n = true ↔ m.normal = n.normal := by
  cases m <;> cases n <;>
    simp [same, normal, Binary64.sameNumber_iff]

namespace Value

mutual

/-- The value with one zero for both. -/
def normal : Value → Value
  | .number n => .number n.normal
  | .array vs => .array (normalItems vs)
  | .object ms => .object (normalMembers ms)
  | v => v

def normalItems : List Value → List Value
  | [] => []
  | v :: vs => v.normal :: normalItems vs

def normalMembers : List (String × Value) → List (String × Value)
  | [] => []
  | (k, v) :: ms => (k, v.normal) :: normalMembers ms

end

/-- Lists are compared item by item. -/
theorem sameItems_iff {vs : List Value}
    (h : ∀ v ∈ vs, ∀ w, same v w = true ↔ v.normal = w.normal) :
    ∀ ws, sameItems vs ws = true ↔ normalItems vs = normalItems ws := by
  induction vs with
  | nil =>
    intro ws
    cases ws <;> simp [sameItems, normalItems]
  | cons v vs ih =>
    obtain ⟨hv, hvs⟩ := List.forall_mem_cons.1 h
    intro ws
    cases ws with
    | nil => simp [sameItems, normalItems]
    | cons w ws => simp [sameItems, normalItems, hv w, ih hvs ws]

/-- Objects are compared member by member, with their names. -/
theorem sameMembers_iff {ms : List (String × Value)}
    (h : ∀ m ∈ ms, ∀ w, same m.2 w = true ↔ m.2.normal = w.normal) :
    ∀ ws, sameMembers ms ws = true
      ↔ normalMembers ms = normalMembers ws := by
  induction ms with
  | nil =>
    intro ws
    cases ws <;> simp [sameMembers, normalMembers]
  | cons m ms ih =>
    obtain ⟨hm, hms⟩ := List.forall_mem_cons.1 h
    intro ws
    cases ws with
    | nil => simp [sameMembers, normalMembers]
    | cons w ws =>
      simp [sameMembers, normalMembers, hm w.2, ih hms ws, and_assoc]

/-- By induction over what a value contains. -/
theorem same_iff (v : Value) :
    ∀ w, same v w = true ↔ v.normal = w.normal := by
  induction v with
  | null | bool b | string s =>
    intro w
    cases w <;> simp [same, normal]
  | number n =>
    intro w
    cases w <;> simp [same, normal, Number.same_iff]
  | array vs ih =>
    intro w
    cases w <;> simp [same, normal, sameItems_iff ih]
  | object ms ih =>
    intro w
    cases w <;> simp [same, normal, sameMembers_iff ih]

end Value

end Json

namespace ResourceParams

variable {p q r : ResourceParams}

/-- Parameters of a known class are the same as nothing but themselves,
and free ones as those that differ in the sign of zeros only. -/
theorem same_iff : p.same q = true ↔ p = q
    ∨ ∃ cls t u, p = .other cls t ∧ q = .other cls u
      ∧ Json.Value.normalMembers t.entries
        = Json.Value.normalMembers u.entries := by
  cases p with
  | other cls t =>
    have hall : ∀ ws, Json.Value.sameMembers t.entries ws = true
        ↔ Json.Value.normalMembers t.entries
          = Json.Value.normalMembers ws :=
      Json.Value.sameMembers_iff fun m _ => Json.Value.same_iff m.2
    cases q with
    | other d u =>
      simp only [same, hall, Bool.and_eq_true, decide_eq_true_eq]
      constructor
      · rintro ⟨rfl, h⟩
        exact Or.inr ⟨cls, t, u, rfl, rfl, h⟩
      · rintro (h | ⟨_, _, _, h, h', hmem⟩)
        · cases h
          exact ⟨rfl, rfl⟩
        · cases h
          cases h'
          exact ⟨rfl, hmem⟩
    | _ => simp [same]
  | _ => simp [same]

/-- To be the same is an equivalence. -/
theorem same_self (p : ResourceParams) : p.same p = true :=
  same_iff.2 (Or.inl rfl)

theorem same_symm (h : p.same q = true) : q.same p = true := by
  rcases same_iff.1 h with rfl | ⟨cls, t, u, rfl, rfl, hmem⟩
  · exact p.same_self
  · exact same_iff.2 (Or.inr ⟨cls, u, t, rfl, rfl, hmem.symm⟩)

theorem same_trans (h : p.same q = true) (h' : q.same r = true) :
    p.same r = true := by
  rcases same_iff.1 h with rfl | ⟨cls, t, u, rfl, rfl, hmem⟩
  · exact h'
  · rcases same_iff.1 h' with rfl | ⟨_, _, w, heq, rfl, hmem'⟩
    · exact h
    · cases heq
      exact same_iff.2 (Or.inr ⟨cls, t, w, rfl, rfl, hmem.trans hmem'⟩)

/-- Parameters that are the same are of one class. -/
theorem cls_of_same (h : p.same q = true) : p.cls = q.cls := by
  rcases same_iff.1 h with rfl | ⟨cls, t, u, rfl, rfl, -⟩ <;> rfl

end ResourceParams

namespace ResourceSpec

/-- An announcement is its group, its name and its parameters. -/
theorem same_iff {s t : ResourceSpec} : s.same t = true ↔
    s.group = t.group ∧ s.name = t.name ∧ s.params.same t.params = true := by
  simp [same, and_assoc]

/-- Announcements that are the same are of one resource. -/
theorem idFor_of_same {s t : ResourceSpec} (h : s.same t = true)
    (exporter : String) : s.idFor exporter = t.idFor exporter := by
  obtain ⟨hgroup, hname, hparams⟩ := same_iff.1 h
  unfold idFor
  rw [hgroup, hname, ResourceParams.cls_of_same hparams]

end ResourceSpec

end LabLease
