/-
Scalars of a YAML text: plain, in quotes, or as a block of lines. Lines
of the first two are folded: one break between words counts as a space,
and each further break as itself.
-/
import LabLease.Json.Tree
import LabLease.Yaml.Cursor

namespace LabLease.Yaml

/-- How a scalar was written. -/
inductive Style where
  | plain
  | quoted
  | literal
  | folded
deriving DecidableEq, Repr

-- ================================================================= gaps

/-- What lies between two words of a scalar. -/
structure Gap where
  /-- What stands in front of the first break. -/
  blanks : List Char := []
  /-- The breaks in order. -/
  breaks : List Char := []
  /-- Whether the gap began with a break that was escaped. -/
  escaped : Bool := false

namespace Gap

def isMultiline (g : Gap) : Bool := g.escaped || !g.breaks.isEmpty

/-- What a gap comes to in the scalar. -/
def text (g : Gap) : List Char :=
  match g.breaks with
  | [] => if g.escaped then [] else g.blanks
  | b :: more =>
    if g.escaped then b :: more
    else if b ≠ '\n' then b :: more
    else if more.isEmpty then [' ']
    else more

end Gap

/-- Reads the blanks and breaks that follow. A tab may not stand where
the indentation of a line is measured. -/
def readGap (indent : Int) : Nat → Gap → Cursor → Option (Gap × Cursor)
  | 0, g, c => some (g, c)
  | fuel + 1, g, c =>
    match c.rest with
    | [] => some (g, c)
    | x :: _ =>
      if isGapChar x then
        if g.isMultiline then
          if x = '\t' && c.column < indent then none
          else readGap indent fuel g (c.skip 1)
        else readGap indent fuel { g with blanks := g.blanks ++ [x] }
          (c.skip 1)
      else match c.takeBreak? with
        | some (b, c) =>
          readGap indent fuel { g with breaks := g.breaks ++ [b] } c
        | none => some (g, c)

def Cursor.gap (c : Cursor) (indent : Int) (escaped : Bool) :
    Option (Gap × Cursor) :=
  readGap indent (c.rest.length + 1) { escaped } c

-- =============================================================== quoted

/-- The character of a backslash and one more, in double quotes. -/
def escaped? : Char → Option Char
  | '0' => some (Char.ofNat 0)
  | 'a' => some (Char.ofNat 7)
  | 'b' => some (Char.ofNat 8)
  | 't' | '\t' => some '\t'
  | 'n' => some '\n'
  | 'v' => some (Char.ofNat 11)
  | 'f' => some (Char.ofNat 12)
  | 'r' => some '\r'
  | 'e' => some (Char.ofNat 27)
  | ' ' => some ' '
  | '"' => some '"'
  | '/' => some '/'
  | '\\' => some '\\'
  | 'N' => some '\u0085'
  | '_' => some '\u00a0'
  | 'L' => some '\u2028'
  | 'P' => some '\u2029'
  | _ => none

/-- How many hexadecimal digits follow a letter behind a backslash. -/
def codeLength? : Char → Option Nat
  | 'x' => some 2
  | 'u' => some 4
  | 'U' => some 8
  | _ => none

/-- The character whose number so many hexadecimal digits give. -/
def code? (n : Nat) (s : List Char) : Option Char := do
  if (s.take n).length ≠ n then none
  let value ← (s.take n).foldlM (fun v d =>
    (Json.hexValue? d).map (v * 16 + ·)) 0
  if value < 0xD800 ∨ 0xDFFF < value ∧ value ≤ 0x10FFFF then
    some (Char.ofNat value)
  else none

/-- Reads on to the closing quote. `out` is what there is so far, last
character first. -/
def readQuoted (double : Bool) :
    Nat → List Char → Cursor → Option (List Char × Cursor)
  | 0, _, _ => none
  | fuel + 1, out, c => do
    if c.atDocumentMark then none
    match c.rest with
    | [] => none
    | x :: rest =>
      if isGapChar x || isBreak x then
        let (gap, c) ← c.gap 0 false
        readQuoted double fuel (gap.text.reverse ++ out) c
      else if double then
        match x, rest with
        | '"', _ => some (out.reverse, c.skip 1)
        | '\\', e :: rest =>
          if isBreak e then
            let (_, c) ← (c.skip 1).takeBreak?
            let (gap, c) ← c.gap 0 true
            readQuoted double fuel (gap.text.reverse ++ out) c
          else match codeLength? e with
            | some n =>
              readQuoted double fuel ((← code? n rest) :: out)
                (c.skip (n + 2))
            | none =>
              readQuoted double fuel ((← escaped? e) :: out) (c.skip 2)
        | _, _ => readQuoted double fuel (x :: out) (c.skip 1)
      else
        match x, rest with
        | '\'', '\'' :: _ => readQuoted double fuel ('\'' :: out) (c.skip 2)
        | '\'', _ => some (out.reverse, c.skip 1)
        | _, _ => readQuoted double fuel (x :: out) (c.skip 1)

/-- Reads a scalar in quotes, the cursor being at the first one. -/
def Cursor.quoted? (c : Cursor) (double : Bool) :
    Option (String × Cursor) := do
  let (s, c) ← readQuoted double (c.rest.length + 1) [] (c.skip 1)
  return (.ofList s, c)

-- ================================================================ plain

def isFlowMark (c : Char) : Bool :=
  c = ',' || c = '[' || c = ']' || c = '\x7b' || c = '\x7d'

/-- The length of the word of a plain scalar that starts here, possibly
zero. A colon with a mark of a collection behind it is refused there. -/
def wordLength? (flow : Bool) : List Char → Option Nat
  | [] => some 0
  | x :: rest =>
    if isGapChar x || isBreak x then some 0
    else if x = ':' && endsWord rest then some 0
    else if x = ':' && flow
        && rest.head?.any (fun y => isFlowMark y || y = '?') then none
    else if flow && isFlowMark x then some 0
    else (wordLength? flow rest).map (· + 1)

/-- Reads on to the end of a plain scalar. `gap` is what came behind the
last word; it counts only if another word follows. Tells too whether the
cursor has come to a new line. -/
def readPlain (flow : Bool) (indent : Int) :
    Nat → List Char → Gap → Cursor → Option (List Char × Bool × Cursor)
  | 0, _, _, _ => none
  | fuel + 1, out, gap, c => do
    let stop := some (out, gap.isMultiline, c)
    if c.atDocumentMark || c.rest.head? = some '#' then stop
    else
      let n ← wordLength? flow c.rest
      if n = 0 then stop
      else
        let out := out ++ gap.text ++ c.rest.take n
        let c := c.skip n
        let (gap, after) ← c.gap indent false
        if after.index = c.index then some (out, false, c)
        else if !flow && after.column < indent then
          some (out, gap.isMultiline, after)
        else readPlain flow indent fuel out gap after

/-- Reads a plain scalar inside a block of some indentation. -/
def Cursor.plain? (c : Cursor) (flow : Bool) (indent : Int) :
    Option (String × Bool × Cursor) := do
  let (s, multiline, c) ←
    readPlain flow (indent + 1) (c.rest.length + 1) [] {} c
  return (.ofList s, multiline, c)

-- =============================================================== blocks

/-- What becomes of the breaks at the end of a block. -/
inductive Chomping where
  /-- All of them go. -/
  | strip
  /-- The first one stays. -/
  | clip
  /-- All of them stay. -/
  | keep
deriving DecidableEq, Repr

/-- The indicators behind the mark of a block, in either order: what
becomes of the last breaks, and how far the block is indented. -/
def blockHeader? : List Char → Option (Chomping × Nat × Nat)
  | s =>
    let chomping? : List Char → Option Chomping
      | '+' :: _ => some .keep
      | '-' :: _ => some .strip
      | _ => none
    let digit? : List Char → Option Nat
      | d :: _ => if d.isDigit then some (Json.digitValue d) else none
      | [] => none
    let (chomping, digit, length) : Option Chomping × Option Nat × Nat :=
      match chomping? s, digit? s with
      | some ch, _ =>
        match digit? (s.drop 1) with
        | some d => (some ch, some d, 2)
        | none => (some ch, none, 1)
      | none, some d =>
        match chomping? (s.drop 1) with
        | some ch => (some ch, some d, 2)
        | none => (none, some d, 1)
      | none, none => (none, none, 0)
    if digit = some 0 then none
    else some (chomping.getD .clip, digit.getD 0, length)

/-- Reads the breaks of empty lines and the indentation of the first line
that is not empty. With no indentation given, tells how far the widest of
these lines goes. -/
def readIndent (indent : Nat) :
    Nat → Nat → List Char → Cursor → Option (List Char × Nat × Cursor)
  | 0, _, _, _ => none
  | fuel + 1, widest, breaks, c =>
    let spaces := (c.rest.takeWhile (· = ' ')).length
    let c := c.skip
      (if indent = 0 then spaces else min spaces (indent - c.column))
    let widest := max widest c.column
    if (indent = 0 || c.column < indent) && c.rest.head? = some '\t' then
      none
    else match c.takeBreak? with
      | some (b, c) => readIndent indent fuel widest (breaks ++ [b]) c
      | none => some (breaks, widest, c)

/-- A block as far as it has been read. -/
structure Block where
  text : List Char := []
  /-- The break behind the last line. -/
  lastBreak : Option Char := none
  /-- The breaks of the empty lines behind that. -/
  breaks : List Char := []
  /-- Whether the last line began with a blank. -/
  indented : Bool := false

/-- One line more. Between lines that do not begin with a blank, a folded
block has a space for the first break if no other follows. -/
def Block.addLine (b : Block) (literal : Bool) (line : List Char) : Block :=
  let indented := line.head?.any isGapChar
  let between : List Char :=
    if !literal && b.lastBreak = some '\n' && !b.indented && !indented then
      if b.breaks.isEmpty then [' '] else []
    else b.lastBreak.toList
  { text := b.text ++ between ++ b.breaks ++ line, indented }

def Block.finish (b : Block) : Chomping → List Char
  | .strip => b.text
  | .clip => b.text ++ b.lastBreak.toList
  | .keep => b.text ++ b.lastBreak.toList ++ b.breaks

/-- Reads the lines of a block of some indentation. -/
def readBlock (literal : Bool) (indent : Nat) :
    Nat → Block → Cursor → Option (Block × Cursor)
  | 0, _, _ => none
  | fuel + 1, b, c => do
    if c.column ≠ indent || c.rest.isEmpty then some (b, c)
    else
      let (line, c) := c.takeWhile fun x => !isBreak x
      let b := b.addLine literal line
      let (lastBreak, c) := match c.takeBreak? with
        | some (x, c) => (some x, c)
        | none => (none, c)
      let (breaks, _, c) ← readIndent indent (c.rest.length + 1) 0 [] c
      readBlock literal indent fuel { b with lastBreak, breaks } c

/-- Reads a block inside another of some indentation, the cursor being at
its mark. -/
def Cursor.block? (c : Cursor) (literal : Bool) (parent : Int) :
    Option (String × Cursor) := do
  let (chomping, increment, length) ← blockHeader? (c.rest.drop 1)
  let c ← (c.skip (length + 1)).endLine?
  let given := if increment = 0 then 0
    else (max parent 0 + increment).toNat
  let (breaks, widest, c) ← readIndent given (c.rest.length + 1) 0 [] c
  let indent := if given ≠ 0 then given
    else max widest (max (parent + 1) 1).toNat
  let (b, c) ←
    readBlock literal indent (c.rest.length + 1) { breaks } c
  return (.ofList (b.finish chomping), c)

end LabLease.Yaml
