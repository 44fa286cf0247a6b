/-
The program as it is called: what the command line and the configuration
make it do, and how it goes on from there.
-/
import LabLease.Config
import LabLease.Program.Coordinator
import LabLease.Program.Errand
import LabLease.Program.Exporter

namespace LabLease.Program

open Command (Invocation Usage)

/-- A program that runs. -/
inductive Run where
  | coordinator (r : CoordinatorRun)
  | exporter (r : ExporterRun)
  | errand (e : Errand)

namespace Run

/-- What is said to be wrong with a text that is no request. -/
def noRequest (_ : String) : String := "not a request"

/-- Begins what a command line asks for. What it says counts more than
the configuration. -/
def start (i : Invocation) (config : Config) (now : Moment) :
    List Effect × Run :=
  let config := config.withAddress i.address
  match i.command with
  | .coordinator listen =>
    let own := config.coordinator.listen
    let settings :=
      { config.coordinator with listen := listen.getD own }
    let (effects, r) := CoordinatorRun.start settings noRequest now
    (effects, .coordinator r)
  | .exporter name =>
    let settings :=
      { config.exporter with name := name.getD config.exporter.name }
    let (effects, r) := ExporterRun.start settings now
    (effects, .exporter r)
  | command =>
    let (effects, e) := Errand.start command i.format config.client now
    (effects, .errand e)

def step (r : Run) (now : Moment) (o : Occurrence) : List Effect × Run :=
  match r with
  | .coordinator r =>
    let (effects, r) := r.step now o
    (effects, .coordinator r)
  | .exporter r =>
    let (effects, r) := r.step now o
    (effects, .exporter r)
  | .errand e =>
    let (effects, e) := e.step now o
    (effects, .errand e)

end Run

-- ========================================================= configuration

/-- The configuration in a file, which could be read or could not. -/
def configIn (user : String) (file : Except String String) :
    Except Failure Config :=
  match file with
  | .error cause =>
    .error ((Failure.of cause).during "Failed to read config file")
  | .ok text =>
    match Config.parse user text with
    | some c => .ok c
    | none => .error (.of "Failed to parse config file")

/-- The configuration in a file that was asked for by its path. -/
def configAt (user path : String) (file : Except String String) :
    Except Failure Config :=
  (configIn user file).mapError fun f =>
    f.during s!"Failed to load config from {path}"

/-- The words for how much is logged, in letters of either case. The
dotless i is a small letter of this capital too. -/
def isLogLevel (s : String) : Bool :=
  let capital : Char → Char := fun c => if c = 'ı' then 'I' else c.toUpper
  ["TRACE", "DEBUG", "INFO", "WARN", "WARNING", "ERROR"].contains
    (s.map capital)

/-- What is said about a word that does not tell how much is logged. -/
def levelRemarks (level : Option String) : List Effect :=
  match level with
  | some s =>
    if isLogLevel s then []
    else [.remark s!"Warning: Unknown log-level '{s}', defaulting to INFO"]
  | none => []

/-- Begins what a command line asks for, if there is a configuration to
do it by. -/
def launch (i : Invocation) (config : Except Failure Config)
    (now : Moment) : List Effect × Option Run :=
  match config with
  | .ok c =>
    let (effects, r) := Run.start i c now
    (levelRemarks (i.logLevel.or c.logLevel) ++ effects, some r)
  | .error f =>
    let f := f.during "Failed to load configuration"
    (levelRemarks i.logLevel ++ [.finish (.failure f)], none)

-- ================================================================= misuse

/-- What the program is for, and what it can be asked to do. -/
def help : List String :=
  ["Lease lab hardware published by remote exporters", "",
    "Usage: lc [OPTIONS] <COMMAND>", "", "Commands:"]
    ++ Invocation.program.commands.map (fun c => s!"  {c.1}")
    ++ ["", "Options:"]
    ++ Invocation.program.grammar.options.filterMap fun p =>
      p.long.map fun long => s!"      --{long}"

def version : String := "lc 0.1.0"

/-- What is wrong with a command line. -/
def complaint : Usage → String
  | .missingRequiredArgument => "a required argument is missing"
  | .unknownArgument => "there is an unexpected argument"
  | .invalidSubcommand => "there is no such command"
  | .invalidValue => "an option is given without a value"
  | .valueValidation => "a value is not one of its kind"
  | .argumentConflict => "two arguments exclude each other"
  | .tooManyValues => "an option is given a value that it does not take"
  | .missingSubcommand => "a command is missing"
  | .displayHelp | .displayVersion
  | .displayHelpOnMissingArgumentOrSubcommand => "help was asked for"

/-- What is done instead of a command that was not understood. -/
def decline : Usage → List Effect
  | .displayHelp => help.map .print ++ [.finish .success]
  | .displayVersion => [.print version, .finish .success]
  | .displayHelpOnMissingArgumentOrSubcommand =>
    help.map .remark ++ [.finish .misuse]
  | u => [.remark s!"error: {complaint u}", .finish .misuse]

end LabLease.Program
