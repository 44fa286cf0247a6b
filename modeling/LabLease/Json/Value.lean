/-
JSON values: what a document holds once its literals and escapes have
been given their meaning. `Tree.value?` gives a parsed text that meaning,
down to a nesting of `nestingLimit` containers.
-/
import LabLease.Table
import LabLease.Json.Tree

namespace LabLease.Json

/-- A JSON value. The members of an object are in the order in which
they are written. -/
inductive Value where
  | null
  | bool (b : Bool)
  | number (n : Number)
  | string (s : String)
  | array (items : List Value)
  | object (members : List (String × Value))

namespace Value

def nat (n : Nat) : Value := .number (.integer n)

def int (n : Int) : Value := .number (.integer n)

/-- A list as an array. -/
def list {α : Type} (f : α → Value) (xs : List α) : Value :=
  .array (xs.map f)

/-- An optional value, `null` where there is none. -/
def option {α : Type} (f : α → Value) : Option α → Value
  | none => .null
  | some x => f x

/-- A table as an object, its keys in order. -/
def table {α : Type} (f : α → Value) (t : Table String α) : Value :=
  .object (t.entries.map fun e => (e.1, f e.2))

/-- The member of an object with a given name. -/
def member? (v : Value) (name : String) : Option Value :=
  match v with
  | .object members =>
    (members.find? fun m => m.1 = name).map (·.2)
  | _ => none

-- ============================================================= equality

mutual

/-- Decides equality of two values. -/
def decEq : (v w : Value) → Decidable (v = w)
  | .null, .null => isTrue rfl
  | .bool a, .bool b => decidable_of_iff (a = b) (by simp)
  | .number a, .number b => decidable_of_iff (a = b) (by simp)
  | .string a, .string b => decidable_of_iff (a = b) (by simp)
  | .array a, .array b =>
    have := decEqItems a b
    decidable_of_iff (a = b) (by simp)
  | .object a, .object b =>
    have := decEqMembers a b
    decidable_of_iff (a = b) (by simp)
  | .null, .bool _ | .null, .number _ | .null, .string _
  | .null, .array _ | .null, .object _
  | .bool _, .null | .bool _, .number _ | .bool _, .string _
  | .bool _, .array _ | .bool _, .object _
  | .number _, .null | .number _, .bool _ | .number _, .string _
  | .number _, .array _ | .number _, .object _
  | .string _, .null | .string _, .bool _ | .string _, .number _
  | .string _, .array _ | .string _, .object _
  | .array _, .null | .array _, .bool _ | .array _, .number _
  | .array _, .string _ | .array _, .object _
  | .object _, .null | .object _, .bool _ | .object _, .number _
  | .object _, .string _ | .object _, .array _ =>
    isFalse (by simp)

def decEqItems : (v w : List Value) → Decidable (v = w)
  | [], [] => isTrue rfl
  | a :: v, b :: w =>
    have := decEq a b
    have := decEqItems v w
    decidable_of_iff (a = b ∧ v = w) (by simp)
  | [], _ :: _ | _ :: _, [] => isFalse (by simp)

def decEqMembers : (v w : List (String × Value)) → Decidable (v = w)
  | [], [] => isTrue rfl
  | (j, a) :: v, (k, b) :: w =>
    have := decEq a b
    have := decEqMembers v w
    decidable_of_iff (j = k ∧ a = b ∧ v = w) (by simp [and_assoc])
  | [], _ :: _ | _ :: _, [] => isFalse (by simp)

end

instance : DecidableEq Value := decEq

mutual

/-- Equality of content: as equality, but numbers compare as numbers. -/
def same : Value → Value → Bool
  | .null, .null => true
  | .bool a, .bool b => a = b
  | .number a, .number b => a.same b
  | .string a, .string b => a = b
  | .array a, .array b => sameItems a b
  | .object a, .object b => sameMembers a b
  | _, _ => false

def sameItems : List Value → List Value → Bool
  | [], [] => true
  | a :: v, b :: w => same a b && sameItems v w
  | _, _ => false

def sameMembers : List (String × Value) → List (String × Value) → Bool
  | [], [] => true
  | (j, a) :: v, (k, b) :: w => j = k && same a b && sameMembers v w
  | _, _ => false

end

end Value

-- ============================================================== meaning

/-- How many containers may be open at once while a text is read. -/
def nestingLimit : Nat := 127

namespace Tree

mutual

/-- The value of a parsed text in which `room` more containers may be
opened. Of the members of one name the last counts, and the members are
put in the order of their names. -/
def value? (room : Nat) : Tree → Option Value
  | .null => some .null
  | .bool b => some (.bool b)
  | .number n => n.number?.map .number
  | .real (some x) => some (.number (.real x))
  | .real none => some .null
  | .string s => s.map .string
  | .array items =>
    match room with
    | 0 => none
    | room + 1 => (valueItems? room items).map .array
  | .object members =>
    match room with
    | 0 => none
    | room + 1 => (valueMembers? room members).map fun ms =>
      .object (Table.ofList ms).entries

def valueItems? (room : Nat) : List Tree → Option (List Value)
  | [] => some []
  | t :: rest => do
    return (← value? room t) :: (← valueItems? room rest)

def valueMembers? (room : Nat) :
    List (Option String × Tree) → Option (List (String × Value))
  | [] => some []
  | (name, t) :: rest => do
    return (← name, ← value? room t) :: (← valueMembers? room rest)

end

/-- Whether every part of a parsed text has a meaning. -/
def isSound (room : Nat) (t : Tree) : Bool := (t.value? room).isSome

end Tree

/-- Reads a text that is one value. -/
def Value.parse (s : List Char) : Option Value := do
  (← Tree.parse s).value? nestingLimit

end LabLease.Json
