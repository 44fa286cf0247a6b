/-
The grammar of command lines: options, which are named and may stand
anywhere, and positionals, which are told apart by their order. What a
value must look like is part of the grammar, so a line that is accepted
needs no further checks.
-/
import LabLease.Command.Word
import LabLease.Number.Whole
import LabLease.Resource.Pattern

namespace LabLease.Command

-- =============================================================== values

/-- The type of a value on the command line. -/
inductive ValueType where
  | text
  /-- A path, which is not empty. -/
  | path
  | tag
  | pattern
  | format
  | unsigned (bits : Nat)
  | signed (bits : Nat)
deriving DecidableEq, Repr

/-- A value on the command line. -/
inductive Argument where
  | text (s : String)
  | tag (key value : String)
  | pattern (p : ResourcePattern)
  | format (f : Format)
  | number (n : Int)

/-- Why a command line cannot be carried out as it stands. -/
inductive Usage where
  | missingRequiredArgument
  | unknownArgument
  | invalidSubcommand
  /-- An option without the value that it needs. -/
  | invalidValue
  /-- A value that is none of its type. -/
  | valueValidation
  | argumentConflict
  /-- A value for an option that takes none. -/
  | tooManyValues
  | missingSubcommand
  | displayHelp
  | displayVersion
  | displayHelpOnMissingArgumentOrSubcommand
deriving DecidableEq, Repr

/-- The name of what is wrong. -/
def Usage.word : Usage → String
  | .missingRequiredArgument => "MissingRequiredArgument"
  | .unknownArgument => "UnknownArgument"
  | .invalidSubcommand => "InvalidSubcommand"
  | .invalidValue => "InvalidValue"
  | .valueValidation => "ValueValidation"
  | .argumentConflict => "ArgumentConflict"
  | .tooManyValues => "TooManyValues"
  | .missingSubcommand => "MissingSubcommand"
  | .displayHelp => "DisplayHelp"
  | .displayVersion => "DisplayVersion"
  | .displayHelpOnMissingArgumentOrSubcommand =>
    "DisplayHelpOnMissingArgumentOrSubcommand"

/-- Reads a value of a type. -/
def ValueType.read (t : ValueType) (s : String) : Except Usage Argument :=
  let valid {α : Type} (x : Option α) (f : α → Argument) :
      Except Usage Argument :=
    match x with
    | some x => .ok (f x)
    | none => .error .valueValidation
  match t with
  | .text => .ok (.text s)
  | .path => if s.isEmpty then .error .invalidValue else .ok (.text s)
  | .tag => valid (parseTag s).toOption fun (k, v) => .tag k v
  | .pattern => valid (ResourcePattern.parse s).toOption .pattern
  | .format => valid (Format.parse s).toOption .format
  | .unsigned bits => valid (Whole.unsigned? bits s) fun n => .number n
  | .signed bits => valid (Whole.signed? bits s) .number

-- ============================================================== grammar

/-- What giving a parameter does. -/
inductive Effect where
  /-- It is on. -/
  | flag
  /-- It has a value, and is given once. -/
  | value
  /-- It has one more value. -/
  | values
  | showHelp
  | showVersion
deriving DecidableEq, Repr

/-- An option or a positional. An option has a letter, a long name or
both. -/
structure Parameter where
  key : String
  short : Option Char := none
  long : Option String := none
  effect : Effect := .value
  type : ValueType := .text
  /-- Whether a value may begin with a hyphen like an option. -/
  hyphens : Bool := false
  required : Bool := false
deriving DecidableEq, Repr

def Parameter.takesValue (p : Parameter) : Bool :=
  p.effect = .value || p.effect = .values

/-- The parameters of a command. -/
structure Grammar where
  options : List Parameter
  /-- In order; only the last of them may have several values. -/
  positionals : List Parameter := []
  /-- Flags of which one at most may be given. -/
  exclusive : List String := []

namespace Grammar

def short? (g : Grammar) (c : Char) : Option Parameter :=
  g.options.find? (·.short = some c)

def long? (g : Grammar) (name : String) : Option Parameter :=
  g.options.find? (·.long = some name)

end Grammar

/-- What was given for each parameter. -/
abbrev Given := Table String (List Argument)

-- ============================================================== reading

/-- A command line that has been read up to some word. -/
structure Progress where
  given : Given := .empty
  /-- The parameter given last with its words, which are not yet looked
  into. -/
  pending : Option (Parameter × List String) := none
  /-- The option that waits for its value. -/
  expecting : Option Parameter := none
  /-- The positionals that are still open. -/
  slots : List Parameter
  /-- Whether only positionals follow. -/
  trailing : Bool := false

namespace Progress

/-- Takes over a parameter with its words. -/
def assign (r : Progress) (p : Parameter) (words : List String) :
    Except Usage Progress := do
  let twice := r.given.contains p.key
  match p.effect with
  | .showHelp => throw .displayHelp
  | .showVersion => throw .displayVersion
  | .flag =>
    if twice then throw .argumentConflict
    return { r with given := r.given.insert p.key [] }
  | .value =>
    if words.isEmpty then throw .invalidValue
    if twice then throw .argumentConflict
    return { r with given := r.given.insert p.key (← words.mapM p.type.read) }
  | .values =>
    if words.isEmpty then throw .invalidValue
    let before := (r.given.get? p.key).getD []
    return { r with
      given := r.given.insert p.key (before ++ (← words.mapM p.type.read)) }

/-- Takes over the parameter that is pending. -/
def settle (r : Progress) : Except Usage Progress :=
  match r.pending with
  | some (p, words) => { r with pending := none }.assign p words
  | none => .ok r

/-- Takes over a parameter behind the one that is pending. -/
def give (r : Progress) (p : Parameter) (words : List String) :
    Except Usage Progress := do
  let r ← r.settle
  { r with expecting := none }.assign p words

/-- Lets an option wait for its value. -/
def await (r : Progress) (p : Parameter) : Except Usage Progress := do
  let r ← r.settle
  return { r with pending := some (p, []), expecting := some p }

/-- Whether the option that waits takes a word that begins with a
hyphen. -/
def takesHyphens (r : Progress) : Bool := r.expecting.any (·.hyphens)

/-- A word as the value of the option that waits. -/
def fill (r : Progress) (word : String) : Progress :=
  { r with
    pending := r.pending.map fun (p, words) => (p, words ++ [word])
    expecting := none }

/-- A word as a positional. What is too much is refused before the one
in front of it is looked into. -/
def place (r : Progress) (word : String) : Except Usage Progress :=
  match r.slots with
  | [] => .error .unknownArgument
  | p :: rest =>
    let several := p.effect = Effect.values
    let r := { r with slots := if several then p :: rest else rest }
    match r.pending with
    | some (q, words) =>
      if q = p then .ok { r with pending := some (q, words ++ [word]) }
      else do
        let r ← r.settle
        return { r with pending := some (p, [word]) }
    | none => .ok { r with pending := some (p, [word]) }

/-- A word that begins with two hyphens: a long name, and behind an
equals sign a value. -/
def long (g : Grammar) (r : Progress) (body : List Char) :
    Except Usage Progress :=
  let name := body.takeWhile (· ≠ '=')
  let value := match body.dropWhile (· ≠ '=') with
    | _ :: v => some (String.ofList v)
    | [] => none
  match g.long? (.ofList name), value with
  | none, _ => .error .unknownArgument
  | some p, some v =>
    if p.takesValue then r.give p [v] else .error .tooManyValues
  | some p, none => if p.takesValue then r.await p else r.give p []

/-- A word that begins with one hyphen: letters of flags, and perhaps one
of an option with its value behind it. -/
def letters (g : Grammar) (r : Progress) :
    List Char → Except Usage Progress
  | [] => .ok r
  | c :: rest =>
    match g.short? c with
    | none => .error .unknownArgument
    | some p =>
      if !p.takesValue then do letters g (← r.give p []) rest
      else match rest with
        | [] => r.await p
        | '=' :: value => r.give p [.ofList value]
        | value => r.give p [.ofList value]

/-- One word more. -/
def step (g : Grammar) (r : Progress) (word : String) :
    Except Usage Progress :=
  let plain : Except Usage Progress :=
    if r.expecting.isSome then .ok (r.fill word) else r.place word
  if r.trailing then r.place word
  else match word.toList with
    | ['-'] => plain
    | ['-', '-'] =>
      if r.takesHyphens then .ok (r.fill word)
      else .ok { r with trailing := true }
    | '-' :: '-' :: body =>
      if r.takesHyphens then .ok (r.fill word) else r.long g body
    | '-' :: body =>
      if r.takesHyphens then .ok (r.fill word) else r.letters g body
    | _ => plain

/-- What was given when the line ends here. -/
def finish (g : Grammar) (r : Progress) : Except Usage Given := do
  let given := (← r.settle).given
  if 1 < (g.exclusive.filter given.contains).length then
    throw .argumentConflict
  let missing := g.positionals.any fun p =>
    p.required && !given.contains p.key
  if missing then throw .missingRequiredArgument
  return given

end Progress

/-- Reads the words of a command. -/
def Grammar.read (g : Grammar) (words : List String) :
    Except Usage Given := do
  (← words.foldlM (Progress.step g) { slots := g.positionals }).finish g

-- ========================================================== subcommands

/-- A program that has commands with options of their own. -/
structure Program where
  /-- The options that stand in front of the command. -/
  grammar : Grammar
  commands : List (String × Grammar)

namespace Program

/-- A request for the help of a command. -/
def help (p : Program) (words : List String) : Usage :=
  let known (name : String) : Bool :=
    name = "help" || (p.commands.lookup name).isSome
  match words with
  | [] => .displayHelp
  | [name] => if known name then .displayHelp else .invalidSubcommand
  | _ => .invalidSubcommand

/-- Reads words up to the command and then its own. What stands in front
of it is looked into last. -/
def readFrom (p : Program) (r : Progress) :
    List String → Except Usage (Given × String × Given)
  | [] => do
    let given ← r.finish p.grammar
    if given.isEmpty then throw .displayHelpOnMissingArgumentOrSubcommand
    throw .missingSubcommand
  | word :: rest => do
    let named := (p.commands.lookup word).isSome || word = "help"
    let command := if r.trailing || r.expecting.isSome then none
      else p.commands.lookup word
    match command with
    | some g =>
      let own ← g.read rest
      return (← r.finish p.grammar, word, own)
    | none =>
      if word = "help" && !r.trailing && r.expecting.isNone then
        throw (p.help rest)
      let isOption := match word.toList with
        | '-' :: _ :: _ => true
        | _ => false
      if r.trailing then
        throw (if named then .unknownArgument else .invalidSubcommand)
      if isOption || r.expecting.isSome then
        p.readFrom (← r.step p.grammar word) rest
      else throw .invalidSubcommand

/-- Reads a command line: what was given in front of the command, its
name, and what was given behind it. -/
def read (p : Program) (words : List String) :
    Except Usage (Given × String × Given) :=
  p.readFrom { slots := p.grammar.positionals } words

end Program

end LabLease.Command
