/-
Values as JSON text, in two layouts: on one line without spaces, and
indented with one item or member per line. Every function writes in front
of a text that is given, so the pieces need no gluing.
-/
import LabLease.Number.Shortest
import LabLease.Json.Value

namespace LabLease.Json

def hexDigit (n : Nat) : Char :=
  if n < 10 then Char.ofNat ('0'.toNat + n)
  else Char.ofNat ('a'.toNat + (n - 10))

/-- A character inside a string. Quotes, backslashes and control
characters are escaped, all others stand for themselves. -/
def escape (c : Char) : List Char :=
  if c = '"' then ['\\', '"']
  else if c = '\\' then ['\\', '\\']
  else if c = '\x08' then ['\\', 'b']
  else if c = '\t' then ['\\', 't']
  else if c = '\n' then ['\\', 'n']
  else if c = '\x0c' then ['\\', 'f']
  else if c = '\r' then ['\\', 'r']
  else if c.toNat < 0x20 then
    ['\\', 'u', '0', '0', hexDigit (c.toNat / 16), hexDigit (c.toNat % 16)]
  else [c]

/-- A string in quotes. -/
def writeString (s : String) (rest : List Char) : List Char :=
  '"' :: s.toList.flatMap escape ++ '"' :: rest

def writeInteger : Int → List Char → List Char
  | .ofNat n, rest => Nat.toDigits 10 n ++ rest
  | .negSucc n, rest => '-' :: Nat.toDigits 10 (n + 1) ++ rest

def writeNumber : Number → List Char → List Char
  | .integer n, rest => writeInteger n rest
  | .real x, rest => x.render ++ rest

def writeBool : Bool → List Char → List Char
  | true, rest => 't' :: 'r' :: 'u' :: 'e' :: rest
  | false, rest => 'f' :: 'a' :: 'l' :: 's' :: 'e' :: rest

def writeNull (rest : List Char) : List Char :=
  'n' :: 'u' :: 'l' :: 'l' :: rest

-- ============================================================= one line

mutual

/-- A value without any space. -/
def Value.write : Value → List Char → List Char
  | .null, rest => writeNull rest
  | .bool b, rest => writeBool b rest
  | .number n, rest => writeNumber n rest
  | .string s, rest => writeString s rest
  | .array [], rest => '[' :: ']' :: rest
  | .array (v :: vs), rest => '[' :: v.write (writeItems vs rest)
  | .object [], rest => '\x7b' :: '\x7d' :: rest
  | .object ((name, v) :: ms), rest =>
    '\x7b' :: writeString name (':' :: v.write (writeMembers ms rest))

/-- The items behind the first, up to the closing bracket. -/
def writeItems : List Value → List Char → List Char
  | [], rest => ']' :: rest
  | v :: vs, rest => ',' :: v.write (writeItems vs rest)

/-- The members behind the first, up to the closing brace. -/
def writeMembers : List (String × Value) → List Char → List Char
  | [], rest => '\x7d' :: rest
  | (name, v) :: ms, rest =>
    ',' :: writeString name (':' :: v.write (writeMembers ms rest))

end

/-- The text of a value on one line. -/
def Value.render (v : Value) : String := String.ofList (v.write [])

-- ============================================================= indented

/-- A line break and two spaces per level. -/
def breakLine (level : Nat) (rest : List Char) : List Char :=
  '\n' :: List.replicate (2 * level) ' ' ++ rest

mutual

/-- A value at a nesting level, its items and members on lines of their
own one level further in. -/
def Value.writeIndented (level : Nat) : Value → List Char → List Char
  | .null, rest => writeNull rest
  | .bool b, rest => writeBool b rest
  | .number n, rest => writeNumber n rest
  | .string s, rest => writeString s rest
  | .array [], rest => '[' :: ']' :: rest
  | .array (v :: vs), rest =>
    '[' :: breakLine (level + 1)
      (v.writeIndented (level + 1) (writeIndentedItems level vs rest))
  | .object [], rest => '\x7b' :: '\x7d' :: rest
  | .object ((name, v) :: ms), rest =>
    '\x7b' :: breakLine (level + 1) (writeString name
      (':' :: ' ' :: v.writeIndented (level + 1)
        (writeIndentedMembers level ms rest)))

def writeIndentedItems (level : Nat) :
    List Value → List Char → List Char
  | [], rest => breakLine level (']' :: rest)
  | v :: vs, rest =>
    ',' :: breakLine (level + 1)
      (v.writeIndented (level + 1) (writeIndentedItems level vs rest))

def writeIndentedMembers (level : Nat) :
    List (String × Value) → List Char → List Char
  | [], rest => breakLine level ('\x7d' :: rest)
  | (name, v) :: ms, rest =>
    ',' :: breakLine (level + 1) (writeString name
      (':' :: ' ' :: v.writeIndented (level + 1)
        (writeIndentedMembers level ms rest)))

end

/-- The text of a value over several lines. -/
def Value.renderIndented (v : Value) : String :=
  String.ofList (v.writeIndented 0 [])

end LabLease.Json
