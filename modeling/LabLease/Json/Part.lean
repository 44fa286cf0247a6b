/-
Typed reading of JSON. A `Part` is a piece of a parsed text together with
how it is being read: straight from the text, where whatever a reader
skips is never looked into, or out of a piece that was taken in whole
before its type was known. The readers below settle what the types of
the wire format share: records given by name or by position, variants
named by a tag, words, optional values, lists and tables.
-/
import LabLease.Json.Value

namespace LabLease.Json

/-- How a part is read. -/
inductive Reading where
  /-- From the text, where so many more containers may be opened. -/
  | direct (room : Nat)
  /-- From a piece taken in whole, whose every part is sound. -/
  | held
deriving DecidableEq, Repr

/-- The reading of what a container holds. -/
def Reading.inside : Reading → Option Reading
  | .direct 0 => none
  | .direct (room + 1) => some (.direct room)
  | .held => some .held

/-- A piece of a parsed text and how it is read. -/
structure Part where
  tree : Tree
  reading : Reading

namespace Part

-- ============================================================== scalars

def text? (p : Part) : Option String :=
  match p.tree with
  | .string s => s
  | _ => none

def bool? (p : Part) : Option Bool :=
  match p.tree with
  | .bool b => some b
  | _ => none

/-- An integer between two bounds, given by an integer literal. -/
def int? (low high : Int) (p : Part) : Option Int :=
  match p.tree with
  | .number n =>
    match n.integer? with
    | some i => if low ≤ i ∧ i ≤ high then some i else none
    | none => none
  | _ => none

/-- An unsigned integer of so many bits. -/
def unsigned? (bits : Nat) (p : Part) : Option Nat :=
  (p.int? 0 (twoTo bits - 1)).map Int.toNat

/-- An unsigned integer of 64 bits. -/
def word? (p : Part) : Option Nat := p.unsigned? 64

/-- A value of any shape. A part that is held has been found to be no
deeper than the limit. -/
def value? (p : Part) : Option Value :=
  match p.reading with
  | .direct room => p.tree.value? room
  | .held => p.tree.value? nestingLimit

/-- Whether the part can be taken in whole. -/
def isSound (p : Part) : Bool :=
  match p.reading with
  | .direct room => p.tree.isSound room
  | .held => true

-- =========================================================== containers

variable {α : Type}

/-- A value that may be `null`. -/
def optional? (read : Part → Option α) (p : Part) : Option (Option α) :=
  match p.tree with
  | .null => some none
  | _ => (read p).map some

def items? (p : Part) : Option (List Part) :=
  match p.tree with
  | .array items => do
    let inside ← p.reading.inside
    return items.map (⟨·, inside⟩)
  | _ => none

def list? (read : Part → Option α) (p : Part) : Option (List α) := do
  (← p.items?).mapM read

/-- The members of an object, every name of which must be sound. -/
def members? (p : Part) : Option (List (String × Part)) :=
  match p.tree with
  | .object members => do
    let inside ← p.reading.inside
    members.mapM fun (name, t) => name.map (·, ⟨t, inside⟩)
  | _ => none

/-- An object as a table; of two members of one name the later
counts. -/
def table? (read : Part → Option α) (p : Part) :
    Option (Table String α) := do
  let entries ← (← p.members?).mapM fun (name, part) =>
    (read part).map (name, ·)
  return Table.ofList entries

/-- One of some words: the word itself, or an object whose one member has
that name and nothing under it. In a held part an empty object counts as
nothing. -/
def choice? (choices : List (String × α)) (p : Part) : Option α :=
  match p.tree with
  | .string (some s) => choices.lookup s
  | .object [(some name, t)] => do
    let inside ← p.reading.inside
    match inside, t with
    | _, .null => choices.lookup name
    | .held, .object [] => choices.lookup name
    | _, _ => none
  | _ => none

-- ============================================================== records

/-- The fields of a record that were given. -/
structure Fields where
  given : List (String × Part)
  /-- Whether they were given by position. -/
  byPosition : Bool

/-- The fields of a record with these names: by name in any order, each
once and among others that are ignored, or by position with the last
ones left out. -/
def fields? (names : List String) (p : Part) : Option Fields :=
  match p.tree with
  | .object _ => do
    let given := (← p.members?).filter fun m => names.contains m.1
    if (given.map (·.1)).Nodup then some ⟨given, false⟩ else none
  | .array items => do
    let parts ← p.items?
    if items.length ≤ names.length then some ⟨names.zip parts, true⟩
    else none
  | _ => none

namespace Fields

/-- A field that must be given. -/
def required (f : Fields) (name : String) (read : Part → Option α) :
    Option α := do
  read (← f.given.lookup name)

/-- A field that has a default. -/
def withDefault (f : Fields) (name : String) (default : α)
    (read : Part → Option α) : Option α :=
  match f.given.lookup name with
  | some p => read p
  | none => some default

/-- A field that may be `null`, or absent in a record given by name. -/
def nullable (f : Fields) (name : String) (read : Part → Option α) :
    Option (Option α) :=
  match f.given.lookup name with
  | some p => p.optional? read
  | none => if f.byPosition then none else some none

end Fields

-- ============================================================= variants

/-- The name of a variant. In a held part its number in the list of
variants may stand for it. -/
def variantName? (names : List String) (p : Part) : Option String :=
  match p.tree, p.reading with
  | .string (some s), _ => if names.contains s then some s else none
  | .number n, .held =>
    match n.integer? with
    | some (.ofNat i) => names[i]?
    | _ => none
  | _, _ => none

/-- A variant and the part that holds its fields. It is an object with
the variant's name under `tag`, or an array with the name in front.
All else in it is taken in whole. -/
def variant? (tag : String) (names : List String) (p : Part) :
    Option (String × Part) :=
  match p.tree with
  | .object members => do
    let parts ← p.members?
    let name ← match parts.filter fun m => m.1 = tag with
      | [(_, t)] => t.variantName? names
      | _ => none
    if parts.all fun m => m.1 = tag || m.2.isSound then
      some (name,
        ⟨.object (members.filter fun m => m.1 ≠ some tag), .held⟩)
    else none
  | .array (_ :: rest) => do
    match ← p.items? with
    | t :: parts =>
      let name ← t.variantName? names
      if parts.all isSound then some (name, ⟨.array rest, .held⟩)
      else none
    | [] => none
  | _ => none

/-- The fields of a variant without fields: members are ignored, items
are not. -/
def noFields? (p : Part) : Option Unit :=
  match p.tree with
  | .object _ | .array [] => some ()
  | _ => none

end Part

/-- Reads a text as a value of a type, white space around it ignored. -/
def parseAs {α : Type} (read : Part → Option α) (s : List Char) :
    Option α := do
  read ⟨← Tree.parse s, .direct nestingLimit⟩

end LabLease.Json
