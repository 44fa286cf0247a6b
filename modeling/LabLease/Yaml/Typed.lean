/-
Typed reading of YAML. What type a scalar has is decided by whoever reads
it: as a text, every scalar is what it says. Only where no type is
expected does a plain scalar become a null, a truth value or a number by
its looks; a tree read that way is one of JSON (`json?`).
-/
import LabLease.Json.Part
import LabLease.Yaml.Node

namespace LabLease.Yaml

-- ============================================================== scalars

def isNullWord (s : String) : Bool :=
  s = "null" || s = "Null" || s = "NULL" || s = "~"

def boolWord? : String → Option Bool
  | "true" | "True" | "TRUE" => some true
  | "false" | "False" | "FALSE" => some false
  | _ => none

/-- The number that digits to a base write, one digit at least. -/
def digits? (base : Nat) (s : List Char) : Option Nat :=
  if s.isEmpty then none
  else s.foldlM (fun n c => do
    let d ← Json.hexValue? c
    if d < base then some (n * base + d) else none) 0

/-- Whether digits have a zero in front, so that they write no number. -/
def hasIdleZero (s : List Char) : Bool :=
  match s with
  | '0' :: d :: rest => (d :: rest).all Char.isDigit
  | _ => false

/-- The number that a text without sign writes, to base 16, 8 or 2 behind
a mark or else to base 10. -/
def magnitude? (s : List Char) : Option Nat :=
  let marked := match s with
    | '0' :: 'x' :: rest => digits? 16 rest
    | '0' :: 'o' :: rest => digits? 8 rest
    | '0' :: 'b' :: rest => digits? 2 rest
    | _ => none
  match marked with
  | some n => some n
  | none => if hasIdleZero s then none else digits? 10 s

/-- The integer that a text writes. -/
def integer? (s : List Char) : Option Int :=
  match s with
  | '-' :: rest => (magnitude? rest).map fun n => -(n : Int)
  | '+' :: rest => (magnitude? rest).map fun n => (n : Int)
  | _ => (magnitude? s).map fun n => (n : Int)

/-- The literal of an integer. -/
def numeralOf (n : Int) : Json.Numeral :=
  { negative := n < 0
    whole := (Nat.toDigits 10 n.natAbs).map Json.digitValue
    fraction := []
    exponent := none }

/-- A number with a point, an exponent or a great many digits. Digits may
be missing on one side of the point. Nothing where it is too large. -/
def real? (s : List Char) : Option Binary64 := do
  let (negative, s) := match s with
    | '-' :: rest => (true, rest)
    | '+' :: '+' :: _ => (false, [])
    | '+' :: '-' :: _ => (false, [])
    | '+' :: rest => (false, rest)
    | _ => (false, s)
  let (whole, s) := Json.readDigits s
  let (fraction, s) := match s with
    | '.' :: rest => Json.readDigits rest
    | _ => ([], s)
  if whole.isEmpty && fraction.isEmpty then none
  else
    let (exponent, s) ← Json.readExponent s
    if !s.isEmpty then none
    else
      Binary64.nearest negative (Json.natOfDigits (whole ++ fraction))
        (exponent.getD 0 - fraction.length)

/-- Whether a text writes an infinity or what is no number. -/
def isUnbounded (s : String) : Bool :=
  [".inf", ".Inf", ".INF", "+.inf", "+.Inf", "+.INF", "-.inf", "-.Inf",
    "-.INF", ".nan", ".NaN", ".NAN"].contains s

/-- What a plain scalar is by its looks. An integer that fits in 128 bits
and not in 64 is refused; one that is larger still is a real number. -/
def bareValue? (s : String) : Option Json.Tree :=
  if s.isEmpty || isNullWord s then some .null
  else match boolWord? s with
    | some b => some (.bool b)
    | none =>
      let cs := s.toList
      let real : Json.Tree :=
        let unsigned := match cs with
          | '-' :: rest | '+' :: rest => rest
          | _ => cs
        if hasIdleZero unsigned then .string (some s)
        else if isUnbounded s then .real none
        else match real? cs with
          | some x => .real (some x)
          | none => .string (some s)
      match integer? cs with
      | some n =>
        if -(twoTo 63 : Int) ≤ n ∧ n < twoTo 64 then
          some (.number (numeralOf n))
        else if -(twoTo 127 : Int) ≤ n ∧ n < twoTo 128 then none
        else some real
      | none => some real

/-- The tag of one of the usual types. -/
def usualTag (name : String) : String := "tag:yaml.org,2002:" ++ name

namespace Node

-- ============================================================ any value

/-- What a scalar is where no type is expected. -/
def scalarValue? (tag : Option String) (style : Style) (s : String) :
    Option Json.Tree :=
  match tag with
  | none =>
    if style = .plain then bareValue? s else some (.string (some s))
  | some t =>
    if t.startsWith "!" then none
    else if t = usualTag "bool" then (boolWord? s).map .bool
    else if t = usualTag "null" then
      if isNullWord s then some .null else none
    else if t = usualTag "int" then
      match integer? s.toList with
      | some n =>
        if -(twoTo 63 : Int) ≤ n ∧ n < twoTo 64 then
          some (.number (numeralOf n))
        else none
      | none => none
    else if t = usualTag "float" then
      if isUnbounded s then some (.real none)
      else (real? s.toList).map fun x => .real (some x)
    else some (.string (some s))

/-- Whether a tag leaves the type of a collection open. -/
def isOpenTag (tag : Option String) : Bool :=
  !tag.any (·.startsWith "!")

mutual

/-- A tree as JSON where no type is expected. A name that is no text
makes it unsound. -/
def json? : Node → Option Json.Tree
  | .scalar tag style s => scalarValue? tag style s
  | .sequence tag items =>
    if isOpenTag tag then (jsonItems? items).map .array else none
  | .mapping tag entries =>
    if isOpenTag tag then (jsonMembers? entries).map .object else none

def jsonItems? : List Node → Option (List Json.Tree)
  | [] => some []
  | n :: rest => do return (← n.json?) :: (← jsonItems? rest)

def jsonMembers? :
    List (Node × Node) → Option (List (Option String × Json.Tree))
  | [] => some []
  | (k, v) :: rest => do
    let name := match ← k.json? with
      | .string s => s
      | _ => none
    return (name, ← v.json?) :: (← jsonMembers? rest)

end

-- ========================================================= typed values

def text? : Node → Option String
  | .scalar _ _ s => some s
  | _ => none

/-- The text of a scalar that can be of a type other than text. -/
def bare? (type : String) : Node → Option String
  | .scalar tag style s =>
    if style = .plain
        || style = .literal && tag = some (usualTag type) then some s
    else none
  | _ => none

def bool? (n : Node) : Option Bool := do boolWord? (← n.bare? "bool")

/-- An unsigned integer of so many bits. -/
def unsigned? (bits : Nat) (n : Node) : Option Nat := do
  match integer? (← n.bare? "int").toList with
  | some i =>
    if 0 ≤ i ∧ i < twoTo bits then
      if (← n.bare? "int").startsWith "-" then none else some i.toNat
    else none
  | none => none

def word? (n : Node) : Option Nat := n.unsigned? 64

variable {α : Type}

/-- A value that may be null. -/
def optional? (read : Node → Option α) (n : Node) :
    Option (Option α) :=
  match n with
  | .scalar none .plain s =>
    if s.isEmpty || isNullWord s then some none else (read n).map some
  | .scalar (some tag) .plain s =>
    if tag = usualTag "null" then
      if isNullWord s then some none else none
    else (read n).map some
  | _ => (read n).map some

/-- A list, which may be left out. -/
def list? (read : Node → Option α) : Node → Option (List α)
  | .sequence _ items => items.mapM read
  | .scalar _ .plain "" => some []
  | _ => none

/-- The fields of a record by their names, among others that are ignored,
each once. A record may be left out. -/
def fields? (names : List String) :
    Node → Option (List (String × Node))
  | .mapping _ entries => do
    let named ← entries.mapM fun (k, v) => k.text?.map (·, v)
    let given := named.filter fun m => names.contains m.1
    if (given.map (·.1)).Nodup then some given else none
  | .scalar _ .plain "" => some []
  | _ => none

end Node

end LabLease.Yaml
