/-
The tokens of a YAML text. Indentation becomes tokens of its own, which
open and close the blocks, and the key of a pair gets a token in front of
it once the colon behind it has been found.
-/
import LabLease.Text.Utf8
import LabLease.Yaml.Scalar

namespace LabLease.Yaml

inductive Token where
  /-- The version of YAML that a document is written in. -/
  | version (major minor : Nat)
  /-- What a handle in tags stands for. -/
  | handle (handle meaning : String)
  | documentStart
  | documentEnd
  | blockSequence
  | blockMapping
  | blockEnd
  | flowSequence
  | flowSequenceEnd
  | flowMapping
  | flowMappingEnd
  | blockEntry
  | flowEntry
  | key
  | value
  | alias (name : String)
  | anchor (name : String)
  | tag (handle suffix : String)
  | scalar (style : Style) (text : String)
deriving DecidableEq, Repr

/-- A token that becomes a key if a colon follows it on its line. -/
structure KeyCandidate where
  /-- Whether nothing but a key may stand here. -/
  required : Bool
  /-- How many tokens stand before it. -/
  position : Nat
  line : Nat
  index : Nat
  column : Nat

/-- A text that has been read as tokens up to a cursor. -/
structure Scanner where
  cursor : Cursor
  /-- The tokens so far, last first. -/
  tokens : List Token := []
  /-- The column of the innermost block; -1 outside of all. -/
  indent : Int := -1
  /-- The columns of the blocks around it, innermost first. -/
  indents : List Int := []
  /-- The candidate on the innermost level of flow collections. -/
  candidate : Option KeyCandidate := none
  /-- The candidates on the levels around it, innermost first. -/
  outer : List (Option KeyCandidate) := []
  /-- Whether a key may start here. -/
  keyAllowed : Bool := true

namespace Scanner

/-- Whether the cursor is inside a flow collection. -/
def inFlow (s : Scanner) : Bool := !s.outer.isEmpty

def put (s : Scanner) (t : Token) : Scanner :=
  { s with tokens := t :: s.tokens }

/-- Puts a token behind so many others. -/
def putAt (s : Scanner) (position : Nat) (t : Token) : Scanner :=
  { s with tokens := s.tokens.insertIdx (s.tokens.length - position) t }

def skip (s : Scanner) (n : Nat) : Scanner :=
  { s with cursor := s.cursor.skip n }

-- ================================================================= keys

/-- Gives up the candidate, unless it had to be a key. -/
def dropCandidate (s : Scanner) : Option Scanner :=
  if s.candidate.any (·.required) then none
  else some { s with candidate := none }

/-- Notes that the token to come may be a key. -/
def noteCandidate (s : Scanner) : Option Scanner :=
  if s.keyAllowed then
    (s.dropCandidate).map fun s => { s with
      candidate := some {
        required := !s.inFlow && s.indent = s.cursor.column
        position := s.tokens.length
        line := s.cursor.line
        index := s.cursor.index
        column := s.cursor.column } }
  else some s

/-- A key and its colon stand on one line and not too far apart. -/
def freshCandidate (c : Cursor) :
    Option KeyCandidate → Option (Option KeyCandidate)
  | none => some none
  | some k =>
    if k.line < c.line || k.index + 1024 < c.index then
      if k.required then none else some none
    else some (some k)

/-- Gives up the candidates that are too far behind. -/
def refresh (s : Scanner) : Option Scanner := do
  return { s with
    candidate := ← freshCandidate s.cursor s.candidate
    outer := ← s.outer.mapM (freshCandidate s.cursor) }

-- =============================================================== blocks

/-- Opens a block at a column that is further in than the last one. Its
token goes behind so many others, or behind all. -/
def openBlock (s : Scanner) (column : Nat) (position : Option Nat)
    (t : Token) : Scanner :=
  if !s.inFlow && s.indent < column then
    let s := { s with indents := s.indent :: s.indents, indent := column }
    s.putAt (position.getD s.tokens.length) t
  else s

/-- Closes the blocks that are further in than a column. -/
def closeBlocks (s : Scanner) (column : Int) : Scanner :=
  if s.inFlow then s else go s.indents s
where
  go : List Int → Scanner → Scanner
    | i :: rest, s =>
      if column < s.indent then
        go rest ({ s with indent := i, indents := rest }.put .blockEnd)
      else s
    | [], s => s

-- =============================================================== blanks

/-- Passes over blanks, comments and breaks up to the next token. A tab
may not stand where a key may start. -/
def skipBlanks (s : Scanner) : Scanner :=
  go (s.cursor.rest.length + 1) s
where
  go : Nat → Scanner → Scanner
    | 0, s => s
    | fuel + 1, s =>
      let tabs := s.inFlow || !s.keyAllowed
      let c := (s.cursor.skipWhile fun x =>
        x = ' ' || tabs && x = '\t').skipComment
      match c.takeBreak? with
      | some (_, c) =>
        go fuel { s with cursor := c, keyAllowed := !s.inFlow || s.keyAllowed }
      | none => { s with cursor := c }

-- ================================================================= tags

/-- The characters of a tag behind its handle. -/
def isTagChar (verbatim : Bool) (c : Char) : Bool :=
  isNameChar c || ";/?:@&=+$.!~*'()%".toList.contains c
    || verbatim && (c = ',' || c = '[' || c = ']')

/-- The text of a part of a tag, with numbers behind percent signs as the
octets they are. -/
def tagText? (s : List Char) : Option String :=
  (go s).map fun octets => .ofList (Text.Utf8.decode octets)
where
  go : List Char → Option (List UInt8)
    | '%' :: a :: b :: rest => do
      let n := (← Json.hexValue? a) * 16 + (← Json.hexValue? b)
      return UInt8.ofNat n :: (← go rest)
    | c :: rest =>
      if c = '%' then none
      else (go rest).map (Text.Utf8.encode [c] ++ ·)
    | [] => some []

/-- A handle: an exclamation mark, or a name between two. -/
def takeHandle (c : Cursor) : String × Cursor :=
  let (name, after) := (c.skip 1).takeWhile isNameChar
  if after.rest.head? = some '!' then
    (.ofList ('!' :: name ++ ['!']), after.skip 1)
  else (.ofList ('!' :: name), after)

/-- Takes a tag: its handle and the rest of it. -/
def takeTag? (c : Cursor) : Option (String × String × Cursor) := do
  if (c.rest.drop 1).head? = some '<' then
    let (uri, c) := (c.skip 2).takeWhile (isTagChar true)
    if uri.isEmpty || c.rest.head? ≠ some '>' then none
    else return ("", ← tagText? uri, c.skip 1)
  else
    let (handle, after) := takeHandle c
    if 1 < handle.length && handle.endsWith "!" then
      let (suffix, c) := after.takeWhile (isTagChar false)
      if suffix.isEmpty then none
      else return (handle, ← tagText? suffix, c)
    else
      let (suffix, c) := (c.skip 1).takeWhile (isTagChar false)
      if suffix.isEmpty then return ("", "!", c)
      else return ("!", ← tagText? suffix, c)

def scanTag (s : Scanner) : Option Scanner := do
  let s ← s.noteCandidate
  let (handle, suffix, c) ← takeTag? s.cursor
  if endsWord c.rest || s.inFlow && c.rest.head? = some ',' then
    return { s with cursor := c, keyAllowed := false }.put
      (.tag handle suffix)
  else none

-- =========================================================== directives

def number? (s : List Char) : Option Nat :=
  if s.isEmpty || 9 < s.length then none
  else some (Json.natOfDigits (s.map Json.digitValue))

def takeVersion? (c : Cursor) : Option (Token × Cursor) := do
  let (major, c) := (c.skipWhile isGapChar).takeWhile Char.isDigit
  if c.rest.head? ≠ some '.' then none
  else
    let (minor, c) := (c.skip 1).takeWhile Char.isDigit
    return (.version (← number? major) (← number? minor), c)

def takeHandleMeaning? (c : Cursor) : Option (Token × Cursor) := do
  let c := c.skipWhile isGapChar
  if c.rest.head? ≠ some '!' then none
  else
    let (handle, after) := takeHandle c
    if !handle.endsWith "!" || !after.rest.head?.any isGapChar then none
    else
      let (uri, c) := (after.skipWhile isGapChar).takeWhile (isTagChar true)
      if uri.isEmpty || !endsWord c.rest then none
      else return (.handle handle (← tagText? uri), c)

def scanDirective (s : Scanner) : Option Scanner := do
  let s ← (s.closeBlocks (-1)).dropCandidate
  let (name, c) := (s.cursor.skip 1).takeWhile isNameChar
  if !endsWord c.rest then none
  else
    let (t, c) ← match String.ofList name with
      | "YAML" => takeVersion? c
      | "TAG" => takeHandleMeaning? c
      | _ => none
    let c ← c.endLine?
    return { s with cursor := c, keyAllowed := false }.put t

-- =========================================================== indicators

/-- A mark between documents. -/
def scanDocumentMark (s : Scanner) (t : Token) : Option Scanner := do
  let s ← (s.closeBlocks (-1)).dropCandidate
  return ({ s with keyAllowed := false }.put t).skip 3

/-- The start of a flow collection, which may be a key itself. -/
def scanFlowStart (s : Scanner) (t : Token) : Option Scanner := do
  let s ← s.noteCandidate
  return ({ s with
    outer := s.candidate :: s.outer
    candidate := none
    keyAllowed := true }.put t).skip 1

def scanFlowEnd (s : Scanner) (t : Token) : Option Scanner := do
  let s ← s.dropCandidate
  let (candidate, outer) := match s.outer with
    | k :: outer => (k, outer)
    | [] => (none, [])
  return ({ s with candidate, outer, keyAllowed := false }.put t).skip 1

def scanFlowEntry (s : Scanner) : Option Scanner := do
  let s ← s.dropCandidate
  return ({ s with keyAllowed := true }.put .flowEntry).skip 1

def scanBlockEntry (s : Scanner) : Option Scanner := do
  if !s.inFlow && !s.keyAllowed then none
  else
    let s ← (s.openBlock s.cursor.column none .blockSequence).dropCandidate
    return ({ s with keyAllowed := true }.put .blockEntry).skip 1

def scanKey (s : Scanner) : Option Scanner := do
  if !s.inFlow && !s.keyAllowed then none
  else
    let s ← (s.openBlock s.cursor.column none .blockMapping).dropCandidate
    return ({ s with keyAllowed := !s.inFlow }.put .key).skip 1

/-- A colon. What may be a key in front of it is one. -/
def scanValue (s : Scanner) : Option Scanner :=
  match s.candidate with
  | some k =>
    let s := s.putAt k.position .key
    let s := s.openBlock k.column (some k.position) .blockMapping
    some (({ s with candidate := none, keyAllowed := false }.put
      .value).skip 1)
  | none =>
    if !s.inFlow && !s.keyAllowed then none
    else
      let s := s.openBlock s.cursor.column none .blockMapping
      some (({ s with keyAllowed := !s.inFlow }.put .value).skip 1)

/-- An anchor or a reference to one. -/
def scanAnchor (s : Scanner) (t : String → Token) : Option Scanner := do
  let s ← s.noteCandidate
  let (name, c) := (s.cursor.skip 1).takeWhile isNameChar
  let ends := endsWord c.rest
    || c.rest.head?.any fun x => "?:,]\x7d%@`".toList.contains x
  if name.isEmpty || !ends then none
  else
    return { s with cursor := c, keyAllowed := false }.put
      (t (.ofList name))

-- ============================================================== scalars

def scanBlockScalar (s : Scanner) (literal : Bool) : Option Scanner := do
  let s ← s.dropCandidate
  let (text, cursor) ← s.cursor.block? literal s.indent
  let style := if literal then .literal else .folded
  return { s with cursor, keyAllowed := true }.put (.scalar style text)

def scanQuoted (s : Scanner) (double : Bool) : Option Scanner := do
  let s ← s.noteCandidate
  let (text, cursor) ← s.cursor.quoted? double
  return { s with cursor, keyAllowed := false }.put (.scalar .quoted text)

/-- A plain scalar. Behind one that ends with its line a key may
start. -/
def scanPlain (s : Scanner) : Option Scanner := do
  let s ← s.noteCandidate
  let (text, multiline, cursor) ← s.cursor.plain? s.inFlow s.indent
  return { s with cursor, keyAllowed := multiline }.put
    (.scalar .plain text)

/-- Whether a plain scalar may start here. -/
def startsPlain (s : Scanner) : Bool :=
  match s.cursor.rest with
  | [] => false
  | c :: rest =>
    let indicator := "-?:,[]\x7b\x7d#&*!|>'\"%@`".toList.contains c
    !isGapChar c && !isBreak c && !indicator
      || c = '-' && !rest.head?.any isGapChar
      || !s.inFlow && (c = '?' || c = ':') && !endsWord rest

-- ================================================================= text

/-- Scans the token at the cursor. -/
def scanToken (s : Scanner) : Option Scanner :=
  let c := s.cursor
  match c.rest with
  | [] => none
  | x :: rest =>
    let alone := s.inFlow || endsWord rest
    if c.column = 0 && x = '%' then s.scanDirective
    else if c.atTriple '-' then s.scanDocumentMark .documentStart
    else if c.atTriple '.' then s.scanDocumentMark .documentEnd
    else match x with
      | '[' => s.scanFlowStart .flowSequence
      | '\x7b' => s.scanFlowStart .flowMapping
      | ']' => s.scanFlowEnd .flowSequenceEnd
      | '\x7d' => s.scanFlowEnd .flowMappingEnd
      | ',' => s.scanFlowEntry
      | '*' => s.scanAnchor .alias
      | '&' => s.scanAnchor .anchor
      | '!' => s.scanTag
      | '\'' => s.scanQuoted false
      | '"' => s.scanQuoted true
      | _ =>
        if x = '-' && endsWord rest then s.scanBlockEntry
        else if x = '?' && alone then s.scanKey
        else if x = ':' && alone then s.scanValue
        else if x = '|' && !s.inFlow then s.scanBlockScalar true
        else if x = '>' && !s.inFlow then s.scanBlockScalar false
        else if s.startsPlain then s.scanPlain
        else none

/-- Scans to the end. Every token takes a character at least. -/
def scanAll : Nat → Scanner → Option Scanner
  | 0, _ => none
  | fuel + 1, s => do
    let s ← s.skipBlanks.refresh
    let s := s.closeBlocks s.cursor.column
    if s.cursor.rest.isEmpty then (s.closeBlocks (-1)).dropCandidate
    else scanAll fuel (← s.scanToken)

end Scanner

/-- The tokens of a text. -/
def Token.scan (text : List Char) : Option (List Token) := do
  if !text.all isPermitted then none
  else
    let s ← Scanner.scanAll (text.length + 1) { cursor := .start text }
    return s.tokens.reverse

end LabLease.Yaml
