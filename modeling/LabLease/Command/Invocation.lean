/-
The commands of the program and how they are called.
-/
import LabLease.Command.Grammar

namespace LabLease.Command

/-- What the program is asked to do. -/
inductive Subcommand where
  | coordinator (listen : Option String)
  | exporter (name : Option String)
  | places (filter : Option String) (tags : List (String × String))
      (free held : Bool)
  | resources (pattern : Option ResourcePattern)
  | reservations
  | sessions
  | createPlace (place : String) (patterns : List ResourcePattern)
      (tags : List (String × String))
  | deletePlace (place : String)
  | addMatch (place : String) (pattern : ResourcePattern)
  | deleteMatch (place : String) (pattern : ResourcePattern)
  | setTags (place : String) (tags : List (String × String))
  | setComment (place comment : String)
  /-- A place is held for so many seconds, or until an interrupt. -/
  | acquire (place : String) (hold : Option Nat)
  | release (place : String) (force : Bool)
  | reserve (filters : List ResourcePattern) (priority : Int)
      (wait : Bool) (timeout : Nat)
  | cancelReservation (id : String)
  | monitor

/-- Whether a command acts as a client of a coordinator. -/
def Subcommand.isClient : Subcommand → Bool
  | .coordinator _ | .exporter _ => false
  | _ => true

/-- A command line that has been understood. -/
structure Invocation where
  /-- The path of the configuration file. -/
  config : Option String
  logLevel : Option String
  address : Option String
  format : Format
  command : Subcommand

-- ============================================================== grammar

namespace Invocation

/-- The options that any command takes. -/
def sharedOptions : List Parameter :=
  [{ key := "config", short := 'c', long := "config", type := .path },
   { key := "log-level", short := 'l', long := "log-level" },
   { key := "address", short := 'a', long := "address" },
   { key := "format", short := 'f', long := "format", type := .format },
   { key := "help", short := 'h', long := "help", effect := .showHelp }]

def versionOption : Parameter :=
  { key := "version", short := 'V', long := "version"
    effect := .showVersion }

def tagOption : Parameter :=
  { key := "tags", short := 't', long := "tag", effect := .values
    type := .tag }

def nameSlot : Parameter := { key := "name", required := true }

def patternSlot : Parameter :=
  { key := "pattern", type := .pattern, required := true }

/-- A command with its own options and positionals. -/
def grammarOf (options positionals : List Parameter)
    (exclusive : List String) : Grammar :=
  { options := options ++ sharedOptions, positionals, exclusive }

def program : Program where
  grammar := { options := versionOption :: sharedOptions }
  commands :=
    [("coordinator",
        grammarOf [{ key := "listen", long := "listen" }] [] []),
     ("exporter",
        grammarOf [{ key := "name", short := 'n', long := "name" }] [] []),
     ("places",
        grammarOf
          [{ key := "name", long := "name" }, tagOption,
           { key := "free", long := "free", effect := .flag },
           { key := "held", long := "held", effect := .flag }]
          [] ["free", "held"]),
     ("resources",
        grammarOf [] [{ patternSlot with required := false }] []),
     ("reservations", grammarOf [] [] []),
     ("sessions", grammarOf [] [] []),
     ("create-place",
        grammarOf
          [{ key := "matches", short := 'm', long := "match"
             effect := .values, type := .pattern }, tagOption]
          [nameSlot] []),
     ("delete-place", grammarOf [] [nameSlot] []),
     ("add-match", grammarOf [] [nameSlot, patternSlot] []),
     ("delete-match", grammarOf [] [nameSlot, patternSlot] []),
     ("set-tags",
        grammarOf []
          [nameSlot, { key := "tags", effect := .values, type := .tag }]
          []),
     ("set-comment",
        grammarOf [] [nameSlot, { key := "comment", required := true }] []),
     ("acquire",
        grammarOf
          [{ key := "hold", long := "hold", type := .unsigned 64 }]
          [nameSlot] []),
     ("release",
        grammarOf [{ key := "force", long := "force", effect := .flag }]
          [nameSlot] []),
     ("reserve",
        grammarOf
          [{ key := "priority", short := 'p', long := "priority"
             type := .signed 32, hyphens := true },
           { key := "wait", short := 'w', long := "wait", effect := .flag },
           { key := "timeout", long := "timeout", type := .unsigned 64 }]
          [{ key := "filters", effect := .values, type := .pattern
             required := true }] []),
     ("cancel-reservation",
        grammarOf [] [{ key := "id", required := true }] []),
     ("monitor", grammarOf [] [] [])]

-- =============================================================== values

end Invocation

namespace Given

def values (g : Given) (key : String) : List Argument :=
  (g.get? key).getD []

def text? (g : Given) (key : String) : Option String :=
  match g.values key with
  | .text s :: _ => some s
  | _ => none

def text (g : Given) (key : String) : String := (g.text? key).getD ""

def number? (g : Given) (key : String) : Option Int :=
  match g.values key with
  | .number n :: _ => some n
  | _ => none

def natural (g : Given) (key : String) (default : Nat) : Nat :=
  ((g.number? key).map Int.toNat).getD default

def flag (g : Given) (key : String) : Bool := g.contains key

def format? (g : Given) : Option Format :=
  match g.values "format" with
  | .format f :: _ => some f
  | _ => none

def tags (g : Given) : List (String × String) :=
  (g.values "tags").filterMap fun
    | .tag k v => some (k, v)
    | _ => none

def patterns (g : Given) (key : String) : List ResourcePattern :=
  (g.values key).filterMap fun
    | .pattern p => some p
    | _ => none

end Given

/-- The command of a name with what was given for it. -/
def Subcommand.ofGiven? (name : String) (g : Given) :
    Option Subcommand :=
  let place := g.text "name"
  match name with
  | "coordinator" => some (.coordinator (g.text? "listen"))
  | "exporter" => some (.exporter (g.text? "name"))
  | "places" =>
    some (.places (g.text? "name") g.tags (g.flag "free") (g.flag "held"))
  | "resources" => some (.resources (g.patterns "pattern").head?)
  | "reservations" => some .reservations
  | "sessions" => some .sessions
  | "create-place" => some (.createPlace place (g.patterns "matches") g.tags)
  | "delete-place" => some (.deletePlace place)
  | "add-match" =>
    (g.patterns "pattern").head?.map (.addMatch place)
  | "delete-match" =>
    (g.patterns "pattern").head?.map (.deleteMatch place)
  | "set-tags" => some (.setTags place g.tags)
  | "set-comment" => some (.setComment place (g.text "comment"))
  | "acquire" =>
    some (.acquire place ((g.number? "hold").map Int.toNat))
  | "release" => some (.release place (g.flag "force"))
  | "reserve" =>
    some (.reserve (g.patterns "filters") ((g.number? "priority").getD 0)
      (g.flag "wait") (g.natural "timeout" 3600))
  | "cancel-reservation" => some (.cancelReservation (g.text "id"))
  | "monitor" => some .monitor
  | _ => none

/-- Reads the words of a command line. An option that any command takes
may stand in front of the command too; what stands behind it counts
more. -/
def Invocation.parse (words : List String) : Except Usage Invocation := do
  let (front, name, own) ← program.read words
  match Subcommand.ofGiven? name own with
  | some command =>
    return {
      config := (own.text? "config").or (front.text? "config")
      logLevel := (own.text? "log-level").or (front.text? "log-level")
      address := (own.text? "address").or (front.text? "address")
      format := (own.format?.or front.format?).getD .text
      command }
  | none => throw .invalidSubcommand

end LabLease.Command
