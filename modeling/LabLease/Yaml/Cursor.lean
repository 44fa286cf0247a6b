/-
A place in a YAML text: what is still to be read, and the line and
column reached. Indentation is counted in characters.
-/
namespace LabLease.Yaml

structure Cursor where
  rest : List Char
  line : Nat := 0
  column : Nat := 0
  /-- How many characters lie behind. -/
  index : Nat := 0

-- =========================================================== characters

def isBreak (c : Char) : Bool :=
  c = '\n' || c = '\r' || c = '\u0085' || c = '\u2028' || c = '\u2029'

def isGapChar (c : Char) : Bool := c = ' ' || c = '\t'

/-- Whether a word ends here. -/
def endsWord : List Char → Bool
  | [] => true
  | c :: _ => isGapChar c || isBreak c

/-- The characters of names of anchors and directives. -/
def isNameChar (c : Char) : Bool :=
  c.isAlphanum || c = '_' || c = '-'

/-- The characters that a text may hold at all. -/
def isPermitted (c : Char) : Bool :=
  let n := c.toNat
  n = 0x09 || n = 0x0A || n = 0x0D || 0x20 ≤ n && n ≤ 0x7E || n = 0x85
    || 0xA0 ≤ n && n ≤ 0xD7FF || 0xE000 ≤ n && n ≤ 0xFFFD || 0x10000 ≤ n

namespace Cursor

/-- The start of a text. A byte order mark there is passed over. -/
def start : List Char → Cursor
  | '\ufeff' :: rest => { rest, column := 1, index := 1 }
  | rest => { rest }

def skip (c : Cursor) (n : Nat) : Cursor :=
  { c with rest := c.rest.drop n, column := c.column + n
           index := c.index + n }

/-- Takes the characters of a kind that follow. -/
def takeWhile (c : Cursor) (p : Char → Bool) : List Char × Cursor :=
  let taken := c.rest.takeWhile p
  (taken, c.skip taken.length)

def skipWhile (c : Cursor) (p : Char → Bool) : Cursor :=
  (c.takeWhile p).2

/-- Takes a line break, if there is one. The usual ones all count as a
line feed. -/
def takeBreak? (c : Cursor) : Option (Char × Cursor) :=
  let after (n : Nat) (rest : List Char) : Cursor :=
    { rest, line := c.line + 1, column := 0, index := c.index + n }
  match c.rest with
  | '\r' :: '\n' :: rest => some ('\n', after 2 rest)
  | b :: rest =>
    if b = '\u2028' || b = '\u2029' then some (b, after 1 rest)
    else if isBreak b then some ('\n', after 1 rest)
    else none
  | [] => none

/-- Passes over a comment, if one starts here. -/
def skipComment (c : Cursor) : Cursor :=
  if c.rest.head? = some '#' then c.skipWhile fun x => !isBreak x else c

/-- Passes over what may follow the last word of a line, and over the
end of that line. -/
def endLine? (c : Cursor) : Option Cursor :=
  let c := (c.skipWhile isGapChar).skipComment
  match c.takeBreak? with
  | some (_, c) => some c
  | none => if c.rest.isEmpty then some c else none

/-- Whether three of a character stand alone at the start of a line. -/
def atTriple (c : Cursor) (mark : Char) : Bool :=
  c.column = 0 && match c.rest with
    | x :: y :: z :: rest =>
      x = mark && y = mark && z = mark && endsWord rest
    | _ => false

/-- Whether a document starts or ends here. -/
def atDocumentMark (c : Cursor) : Bool := c.atTriple '-' || c.atTriple '.'

end Cursor

end LabLease.Yaml
