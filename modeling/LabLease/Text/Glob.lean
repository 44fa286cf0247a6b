/-
Shell wildcards: `?` is any character, `*` any run of characters, `[..]`
one character out of a class, `[!..]` one outside it. A `**` stands for
whole components of a path and must be one itself. Every character may
match `/`, and a leading dot is a character like any other.

`Glob.compile` reads a pattern into tokens or says where it is malformed;
`Glob.accepts` decides whether the tokens match a text, one pass over the
text per token.
-/
namespace LabLease.Text

namespace Glob

-- ============================================================= tokens

/-- What a class in brackets lists: a character, or all between two. -/
inductive ClassItem where
  | single (c : Char)
  | range (first last : Char)
deriving DecidableEq, Repr

inductive Token where
  /-- This character and no other. -/
  | literal (c : Char)
  /-- Any one character. -/
  | anyChar
  /-- Any run of characters, the empty one included. -/
  | anyRun
  /-- Whole path components: nothing, all up to a separator, or the whole
  rest. -/
  | anyComponents
  /-- One character of the class. -/
  | within (items : List ClassItem)
  /-- One character outside the class. -/
  | except (items : List ClassItem)
deriving DecidableEq, Repr

/-- Why a pattern is malformed. -/
inductive Flaw where
  /-- Three or more stars in a row. -/
  | starRun
  /-- A `**` with something beside it in its path component. -/
  | partialComponent
  /-- A bracket without its closing one, or a class without a member. -/
  | unclosedClass
deriving DecidableEq, Repr

def Flaw.message : Flaw → String
  | .starRun => "wildcards are either regular `*` or recursive `**`"
  | .partialComponent =>
    "recursive wildcards must form a single path component"
  | .unclosedClass => "invalid range pattern"

/-- A flaw and the position of the character where it shows. -/
structure Malformed where
  position : Nat
  flaw : Flaw
deriving DecidableEq, Repr

def Malformed.message (m : Malformed) : String :=
  s!"Pattern syntax error near position {m.position}: {m.flaw.message}"

-- ========================================================= compilation

/-- The members between the brackets. A `-` makes a range when a
character stands on both sides of it. -/
def classItems : List Char → List ClassItem
  | [] => []
  | a :: '-' :: b :: rest => .range a b :: classItems rest
  | a :: rest => .single a :: classItems rest

/-- The class that starts behind an opening bracket, and the number of
characters it takes there. The first member may be `]`. -/
def classToken : List Char → Option (Token × Nat)
  | '!' :: first :: rest =>
    (rest.idxOf? ']').map fun n =>
      (.except (classItems (first :: rest.take n)), n + 3)
  | first :: rest =>
    if first = '!' then none
    else (rest.idxOf? ']').map fun n =>
      (.within (classItems (first :: rest.take n)), n + 2)
  | [] => none

/-- The token that a character starts, and how many of the characters
behind it belong to it. `before` is the character in front and `pos`
the position. -/
def tokenAt (before : Option Char) (pos : Nat) (c : Char)
    (rest : List Char) : Except Malformed (Token × Nat) :=
  match c, rest with
  | '?', _ => .ok (.anyChar, 0)
  | '*', '*' :: '*' :: _ => .error ⟨pos + 2, .starRun⟩
  | '*', '*' :: rest =>
    if before = none ∨ before = some '/' then
      match rest with
      | [] => .ok (.anyComponents, 1)
      | '/' :: _ => .ok (.anyComponents, 2)
      | _ :: _ => .error ⟨pos + 2, .partialComponent⟩
    else .error ⟨pos - 1, .partialComponent⟩
  | '*', _ => .ok (.anyRun, 0)
  | '[', rest =>
    match classToken rest with
    | some token => .ok token
    | none => .error ⟨pos, .unclosedClass⟩
  | c, _ => .ok (.literal c, 0)

/-- The tokens of the text at `pos`, of which the first `skip`
characters belong to a token already read. -/
def tokensFrom (before : Option Char) (pos skip : Nat) :
    List Char → Except Malformed (List Token)
  | [] => .ok []
  | c :: rest =>
    match skip with
    | skip + 1 => tokensFrom (some c) (pos + 1) skip rest
    | 0 => do
      let (t, taken) ← tokenAt before pos c rest
      return t :: (← tokensFrom (some c) (pos + 1) taken rest)

/-- The tokens of a whole pattern, or where it is malformed. -/
def compile (pattern : List Char) : Except Malformed (List Token) :=
  tokensFrom none 0 0 pattern

-- ============================================================ matching

def ClassItem.has (c : Char) : ClassItem → Bool
  | .single a => c = a
  | .range a b => a ≤ c && c ≤ b

/-- Whether a token that stands for one character takes this one. -/
def Token.takes (c : Char) : Token → Bool
  | .literal a => c = a
  | .anyChar => true
  | .within items => items.any (·.has c)
  | .except items => !items.any (·.has c)
  | .anyRun | .anyComponents => false

/-- Per suffix of a text, longest first: does it start with a character
that the token takes, and does the rest pass? -/
def oneThen (t : Token) : List Char → List Bool → List Bool
  | c :: text, _ :: passes =>
    (t.takes c && passes.headD false) :: oneThen t text passes
  | _, _ => [false]

/-- Per suffix: does it or a later one pass? -/
def runThen : List Char → List Bool → List Bool
  | _ :: text, pass :: passes =>
    let later := runThen text passes
    (pass || later.headD false) :: later
  | _, passes => passes

/-- Per suffix: does a later one pass that stands behind a separator, or
the empty one? -/
def behindSlash : List Char → List Bool → List Bool
  | c :: text, _ :: passes =>
    let later := behindSlash text passes
    (c = '/' && passes.headD false || later.headD false) :: later
  | _, passes => passes

/-- Per suffix of the text, longest first, whether the tokens match all
of it. -/
def verdicts (text : List Char) : List Token → List Bool
  | [] => text.map (fun _ => false) ++ [true]
  | .anyRun :: rest => runThen text (verdicts text rest)
  | .anyComponents :: rest =>
    let passes := verdicts text rest
    passes.zipWith (· || ·) (behindSlash text passes)
  | t :: rest => oneThen t text (verdicts text rest)

/-- Whether the tokens match the whole text. -/
def accepts (ts : List Token) (text : List Char) : Bool :=
  (verdicts text ts).headD false

end Glob

/-- A well-formed wildcard pattern. Its tokens are those of its text, so
two patterns are equal exactly when their texts are. -/
structure Glob where
  text : String
  tokens : List Glob.Token
  compiled : Glob.compile text.toList = .ok tokens
deriving DecidableEq

namespace Glob

/-- Reads a pattern. -/
def parse (text : String) : Except Malformed Glob :=
  match h : compile text.toList with
  | .ok ts => .ok ⟨text, ts, h⟩
  | .error e => .error e

/-- Whether the pattern selects a text. -/
def selects (g : Glob) (s : String) : Bool :=
  accepts g.tokens s.toList

theorem ext_text {g h : Glob} (e : g.text = h.text) : g = h := by
  obtain ⟨t, ts, ht⟩ := g
  obtain ⟨u, us, hu⟩ := h
  subst e
  cases ht.symm.trans hu
  rfl

theorem parse_text (g : Glob) : parse g.text = .ok g := by
  unfold parse
  split
  · next ts h =>
    congr 1
    exact ext_text rfl
  · next e h => cases h.symm.trans g.compiled

theorem text_of_parse {s : String} {g : Glob} (h : parse s = .ok g) :
    g.text = s := by
  unfold parse at h
  split at h <;> cases h
  rfl

end Glob

end LabLease.Text
