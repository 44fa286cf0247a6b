/-
Words on the command line that have a type of their own.
-/
namespace LabLease.Command

/-- How results are printed. -/
inductive Format where
  | text
  | json
deriving DecidableEq, Repr

namespace Format

def word : Format → String
  | .text => "text"
  | .json => "json"

/-- Reads a format in letters of either case. No character outside ASCII
has one of these letters as its lower case. -/
def parse (s : String) : Except String Format :=
  match s.toLower with
  | "text" | "plain" => .ok .text
  | "json" => .ok .json
  | _ => .error s!"Unknown format '{s}': expected text or json"

end Format

/-- Reads a tag `key=value`. The key ends at the first equals sign and
is not empty. -/
def parseTag (s : String) : Except String (String × String) :=
  let key := s.toList.takeWhile (· ≠ '=')
  match s.toList.dropWhile (· ≠ '=') with
  | _ :: value =>
    if key.isEmpty then .error (complaint s)
    else .ok (.ofList key, .ofList value)
  | [] => .error (complaint s)
where
  /-- What is wrong with a text that is no tag. -/
  complaint (s : String) : String :=
    s!"Invalid tag '{s}': expected key=value"

end LabLease.Command
