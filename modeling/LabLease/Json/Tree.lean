/-
A JSON text by its grammar alone: members in the order written, repeated
names kept, numbers as their literals. Whether a literal is in range,
an escape names a character or the nesting is too deep is asked only of
the parts that a reader looks at, so the tree records it and does not
refuse it.
-/
import LabLease.Json.Numeral

namespace LabLease.Json

/-- A JSON text by its grammar. A string, and a member's name, is `none`
when its escapes name half of a surrogate pair. -/
inductive Tree where
  | null
  | bool (b : Bool)
  | number (n : Numeral)
  /-- A real number that was not written as a literal of JSON; nothing if
  it is infinite or no number. -/
  | real (x : Option Binary64)
  | string (s : Option String)
  | array (items : List Tree)
  | object (members : List (Option String × Tree))

-- =========================================================== characters

/-- The four characters that may stand between tokens. -/
def isSpace (c : Char) : Bool :=
  c = ' ' || c = '\t' || c = '\n' || c = '\r'

def skipSpace (s : List Char) : List Char := s.dropWhile isSpace

def hexValue? (c : Char) : Option Nat :=
  if '0' ≤ c ∧ c ≤ '9' then some (c.toNat - '0'.toNat)
  else if 'a' ≤ c ∧ c ≤ 'f' then some (c.toNat - 'a'.toNat + 10)
  else if 'A' ≤ c ∧ c ≤ 'F' then some (c.toNat - 'A'.toNat + 10)
  else none

/-- The 16-bit unit that four hexadecimal digits name. -/
def unit? (a b c d : Char) : Option Nat := do
  return (← hexValue? a) * 4096 + (← hexValue? b) * 256
    + (← hexValue? c) * 16 + (← hexValue? d)

/-- The escapes of a backslash and one more character. -/
def escaped? : Char → Option Char
  | '"' => some '"'
  | '\\' => some '\\'
  | '/' => some '/'
  | 'b' => some '\x08'
  | 'f' => some '\x0c'
  | 'n' => some '\n'
  | 'r' => some '\r'
  | 't' => some '\t'
  | _ => none

-- ============================================================== strings

/-- What a string has come to: its characters so far, last first, and a
high surrogate that waits for its low one. -/
structure Gathered where
  reversed : List Char := []
  waiting : Option Nat := none
  sound : Bool := true

namespace Gathered

/-- One character more. A surrogate that still waits is now alone. -/
def char (g : Gathered) (c : Char) : Gathered :=
  ⟨c :: g.reversed, none, g.sound && g.waiting.isNone⟩

/-- One escaped 16-bit unit more. -/
def unit (g : Gathered) (u : Nat) : Gathered :=
  if 0xD800 ≤ u ∧ u < 0xDC00 then
    ⟨g.reversed, some u, g.sound && g.waiting.isNone⟩
  else if 0xDC00 ≤ u ∧ u < 0xE000 then
    match g.waiting with
    | some high =>
      let code := 0x10000 + (high - 0xD800) * 0x400 + (u - 0xDC00)
      ⟨Char.ofNat code :: g.reversed, none, g.sound⟩
    | none => { g with sound := false }
  else g.char (Char.ofNat u)

def result (g : Gathered) : Option String :=
  if g.sound && g.waiting.isNone then
    some (String.ofList g.reversed.reverse)
  else none

end Gathered

/-- Reads a string behind its opening quote. -/
def readString (g : Gathered) :
    List Char → Option (Option String × List Char)
  | '"' :: rest => some (g.result, rest)
  | '\\' :: 'u' :: a :: b :: c :: d :: rest =>
    match unit? a b c d with
    | some u => readString (g.unit u) rest
    | none => none
  | '\\' :: e :: rest =>
    match escaped? e with
    | some c => readString (g.char c) rest
    | none => none
  | c :: rest =>
    if c.toNat < 0x20 ∨ c = '\\' then none
    else readString (g.char c) rest
  | [] => none

-- ============================================================== numbers

def digitValue (c : Char) : Nat := c.toNat - '0'.toNat

/-- Reads a run of digits, none or more. -/
def readDigits (s : List Char) : List Nat × List Char :=
  ((s.takeWhile Char.isDigit).map digitValue, s.dropWhile Char.isDigit)

/-- Reads the digits behind a point, if there is one. -/
def readFraction : List Char → Option (List Nat × List Char)
  | '.' :: s =>
    match readDigits s with
    | ([], _) => none
    | (ds, rest) => some (ds, rest)
  | s => some ([], s)

def natOfDigits (ds : List Nat) : Nat :=
  ds.foldl (fun n d => n * 10 + d) 0

/-- Reads an exponent, if there is one. -/
def readExponent (s : List Char) : Option (Option Int × List Char) :=
  match s with
  | c :: rest =>
    if c = 'e' ∨ c = 'E' then
      let (sign, digits) : Int × List Char :=
        match rest with
        | '-' :: rest => (-1, rest)
        | '+' :: rest => (1, rest)
        | _ => (1, rest)
      match readDigits digits with
      | ([], _) => none
      | (ds, rest) => some (some (sign * natOfDigits ds), rest)
    else some (none, s)
  | [] => some (none, s)

/-- Reads a number. A leading zero stands alone. -/
def readNumeral (s : List Char) : Option (Numeral × List Char) := do
  let (negative, s) := match s with
    | '-' :: rest => (true, rest)
    | _ => (false, s)
  let (whole, s) := readDigits s
  match whole with
  | [] => none
  | 0 :: _ :: _ => none
  | _ => do
    let (fraction, s) ← readFraction s
    let (exponent, s) ← readExponent s
    return (⟨negative, whole, fraction, exponent⟩, s)

-- =============================================================== values

mutual

/-- Reads one value. `fuel` bounds the tokens it may take. -/
def readValue (fuel : Nat) (s : List Char) :
    Option (Tree × List Char) :=
  match fuel with
  | 0 => none
  | fuel + 1 =>
    match skipSpace s with
    | 'n' :: 'u' :: 'l' :: 'l' :: rest => some (.null, rest)
    | 't' :: 'r' :: 'u' :: 'e' :: rest => some (.bool true, rest)
    | 'f' :: 'a' :: 'l' :: 's' :: 'e' :: rest =>
      some (.bool false, rest)
    | '"' :: rest =>
      (readString {} rest).map fun (s, rest) => (.string s, rest)
    | '[' :: rest =>
      match skipSpace rest with
      | ']' :: rest => some (.array [], rest)
      | rest => readItems fuel [] rest
    | '\x7b' :: rest =>
      match skipSpace rest with
      | '\x7d' :: rest => some (.object [], rest)
      | rest => readMembers fuel [] rest
    | s => (readNumeral s).map fun (n, rest) => (.number n, rest)

/-- Reads the items of an array from one of them to the closing
bracket. -/
def readItems (fuel : Nat) (before : List Tree) (s : List Char) :
    Option (Tree × List Char) :=
  match fuel with
  | 0 => none
  | fuel + 1 => do
    let (item, s) ← readValue fuel s
    match skipSpace s with
    | ',' :: s => readItems fuel (item :: before) s
    | ']' :: rest => some (.array (item :: before).reverse, rest)
    | _ => none

/-- Reads the members of an object from one of them to the closing
brace. -/
def readMembers (fuel : Nat) (before : List (Option String × Tree))
    (s : List Char) : Option (Tree × List Char) :=
  match fuel with
  | 0 => none
  | fuel + 1 =>
    match skipSpace s with
    | '"' :: s => do
      let (name, s) ← readString {} s
      match skipSpace s with
      | ':' :: s => do
        let (value, s) ← readValue fuel s
        match skipSpace s with
        | ',' :: s => readMembers fuel ((name, value) :: before) s
        | '\x7d' :: rest =>
          some (.object ((name, value) :: before).reverse, rest)
        | _ => none
      | _ => none
    | _ => none

end

/-- Reads a text that is one value and nothing else. Every call for a
value or an item takes a token, of which there are no more than
characters, so the fuel does not run out. -/
def Tree.parse (s : List Char) : Option Tree :=
  match readValue (2 * s.length + 2) s with
  | some (t, rest) => if (skipSpace rest).isEmpty then some t else none
  | none => none

end LabLease.Json
