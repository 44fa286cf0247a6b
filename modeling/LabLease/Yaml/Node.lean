/-
YAML as a tree. The tokens of a text are read by the grammar of the
language into one document: scalars, sequences and mappings, with every
alias replaced by what it stands for.
-/
import LabLease.Yaml.Token

namespace LabLease.Yaml

inductive Node where
  | scalar (tag : Option String) (style : Style) (text : String)
  | sequence (tag : Option String) (items : List Node)
  | mapping (tag : Option String) (entries : List (Node × Node))

/-- A scalar that was left out. -/
def Node.blank : Node := .scalar none .plain ""

/-- What is left of a text while it is read. -/
structure Remainder where
  tokens : List Token
  /-- What anchors stand for, the last one first. -/
  anchors : List (String × Node) := []
  /-- What handles in tags stand for. -/
  handles : List (String × String) := []

/-- A step of reading, which fails where the grammar is broken. -/
abbrev Reader (α : Type) := StateT Remainder Option α

namespace Reader

/-- The next token, which stays. -/
def peek : Reader (Option Token) := return (← get).tokens.head?

def skip : Reader Unit :=
  modify fun r => { r with tokens := r.tokens.tail }

/-- Takes the next token if it is this one. -/
def accept (t : Token) : Reader Bool := do
  if (← peek) = some t then skip; return true
  else return false

def expect (t : Token) : Reader Unit := do
  if !(← accept t) then failure

/-- Whether the next token is one of these, or there is none. -/
def atOneOf (ts : List Token) : Reader Bool := do
  return (← peek).all ts.contains

-- =========================================================== properties

/-- What may stand in front of a node. -/
structure Properties where
  anchor : Option String := none
  tag : Option (String × String) := none

/-- Reads an anchor and a tag, either or both, in either order. -/
def properties : Reader Properties := do
  match ← peek with
  | some (.anchor name) =>
    skip
    match ← peek with
    | some (.tag handle suffix) =>
      skip
      return ⟨some name, some (handle, suffix)⟩
    | _ => return ⟨some name, none⟩
  | some (.tag handle suffix) =>
    skip
    match ← peek with
    | some (.anchor name) =>
      skip
      return ⟨some name, some (handle, suffix)⟩
    | _ => return ⟨none, some (handle, suffix)⟩
  | _ => return {}

/-- The whole tag of a handle and what follows it. -/
def resolve (tag : Option (String × String)) : Reader (Option String) := do
  match tag with
  | none => return none
  | some ("", suffix) => return some suffix
  | some (handle, suffix) =>
    match (← get).handles.lookup handle with
    | some meaning => return some (meaning ++ suffix)
    | none => failure

/-- Notes what an anchor stands for. -/
def define (anchor : Option String) (n : Node) : Reader Node := do
  if let some name := anchor then
    modify fun r => { r with anchors := (name, n) :: r.anchors }
  return n

-- ================================================================ nodes

mutual

/-- Reads a node. In a block it may be a block itself; as a key or value
it may be a sequence that is indented no further. `fuel` bounds the
tokens it may take. -/
def node (block indentless : Bool) : Nat → Reader Node
  | 0 => failure
  | fuel + 1 => do
    if let some (.alias name) ← peek then
      skip
      match (← get).anchors.lookup name with
      | some n => return n
      | none => failure
    else
      let p ← properties
      let tag ← resolve p.tag
      match ← peek with
      | some (.scalar style text) =>
        skip
        define p.anchor (.scalar (tag.filter (· ≠ "!")) style text)
      | some .flowSequence =>
        skip
        define p.anchor (.sequence tag (← flowItems true fuel))
      | some .flowMapping =>
        skip
        define p.anchor (.mapping tag (← flowPairs true fuel))
      | some .blockEntry =>
        if indentless then
          define p.anchor (.sequence tag (← indentlessItems fuel))
        else left p tag
      | some .blockSequence =>
        if block then
          skip
          define p.anchor (.sequence tag (← blockItems fuel))
        else left p tag
      | some .blockMapping =>
        if block then
          skip
          define p.anchor (.mapping tag (← blockPairs fuel))
        else left p tag
      | _ => left p tag
where
  /-- A node of which there is nothing but properties. -/
  left (p : Properties) (tag : Option String) : Reader Node :=
    if p.anchor.isSome || p.tag.isSome then
      define p.anchor (.scalar (tag.filter (· ≠ "!")) .plain "")
    else failure

def blockItems : Nat → Reader (List Node)
  | 0 => failure
  | fuel + 1 => do
    if ← accept .blockEntry then
      let item ← if ← atOneOf [.blockEntry, .blockEnd] then pure .blank
        else node true false fuel
      return item :: (← blockItems fuel)
    else
      expect .blockEnd
      return []

def indentlessItems : Nat → Reader (List Node)
  | 0 => failure
  | fuel + 1 => do
    if ← accept .blockEntry then
      let item ←
        if ← atOneOf [.blockEntry, .key, .value, .blockEnd] then pure .blank
        else node true false fuel
      return item :: (← indentlessItems fuel)
    else return []

def blockPairs : Nat → Reader (List (Node × Node))
  | 0 => failure
  | fuel + 1 => do
    if ← accept .key then
      let k ← blockPart fuel
      let v ← if ← accept .value then blockPart fuel else pure .blank
      return (k, v) :: (← blockPairs fuel)
    else
      expect .blockEnd
      return []

/-- Reads a key or a value of a block. -/
def blockPart : Nat → Reader Node
  | 0 => failure
  | fuel + 1 => do
    if ← atOneOf [.key, .value, .blockEnd] then return .blank
    else node true true fuel

def flowItems (first : Bool) : Nat → Reader (List Node)
  | 0 => failure
  | fuel + 1 => do
    if ← accept .flowSequenceEnd then return []
    else
      if !first then expect .flowEntry
      if ← accept .flowSequenceEnd then return []
      else
        let item ←
          if ← accept .key then
            let k ← flowPart [.value, .flowEntry, .flowSequenceEnd] fuel
            let v ← if ← accept .value then
                flowPart [.flowEntry, .flowSequenceEnd] fuel
              else pure .blank
            pure (.mapping none [(k, v)])
          else node false false fuel
        return item :: (← flowItems false fuel)

def flowPairs (first : Bool) : Nat → Reader (List (Node × Node))
  | 0 => failure
  | fuel + 1 => do
    if ← accept .flowMappingEnd then return []
    else
      if !first then expect .flowEntry
      if ← accept .flowMappingEnd then return []
      else
        let pair ←
          if ← accept .key then
            let k ← flowPart [.value, .flowEntry, .flowMappingEnd] fuel
            let v ← if ← accept .value then
                flowPart [.flowEntry, .flowMappingEnd] fuel
              else pure .blank
            pure (k, v)
          else pure (← node false false fuel, .blank)
        return pair :: (← flowPairs false fuel)

/-- Reads a part of a pair in a flow collection, if it does not end
here. -/
def flowPart (ends : List Token) : Nat → Reader Node
  | 0 => failure
  | fuel + 1 => do
    if ← atOneOf ends then return .blank
    else node false false fuel

end

-- ============================================================ documents

/-- Reads the directives in front of a document. A version is given once,
and so is each handle. -/
def directives (versioned : Bool) : Nat → Reader Bool
  | 0 => failure
  | fuel + 1 => do
    match ← peek with
    | some (.version major minor) =>
      if versioned || major ≠ 1 || minor ≠ 1 && minor ≠ 2 then failure
      else
        skip
        let _ ← directives true fuel
        return true
    | some (.handle handle meaning) =>
      if ((← get).handles.lookup handle).isSome then failure
      else
        skip
        modify fun r =>
          { r with handles := (handle, meaning) :: r.handles }
        let _ ← directives versioned fuel
        return true
    | _ => return false

/-- The handles that need not be declared. -/
def usualHandles : List (String × String) :=
  [("!", "!"), ("!!", "tag:yaml.org,2002:")]

/-- Reads the only document of a text. A text without one is blank. -/
def document (fuel : Nat) : Reader Node := do
  if (← peek).isNone then return .blank
  let directed ← directives false fuel
  modify fun r => { r with handles := r.handles ++ usualHandles }
  let root ←
    if ← accept .documentStart then
      if ← atDocumentEnd then pure .blank else node true false fuel
    else if directed then failure
    else node true false fuel
  ends fuel
  return root
where
  atDocumentEnd : Reader Bool := do
    match ← peek with
    | none | some .documentStart | some .documentEnd | some (.version ..)
    | some (.handle ..) => return true
    | _ => return false
  /-- Passes over the ends of the document, behind which nothing more may
  come. -/
  ends : Nat → Reader Unit
    | 0 => failure
    | fuel + 1 => do
      if ← accept .documentEnd then ends fuel
      else if (← peek).isSome then failure

end Reader

/-- The tree of a text that holds one document. Every call that reads
takes a token or is one of two for it, so the fuel does not run out. -/
def Node.parse (text : List Char) : Option Node := do
  let tokens ← Token.scan text
  let (n, _) ← (Reader.document (4 * tokens.length + 8)).run { tokens }
  return n

end LabLease.Yaml
