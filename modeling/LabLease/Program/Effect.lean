/-
A program in its surroundings. Whatever it has to do with them is an
effect, and whatever comes of that an occurrence; in between there is
nothing but a step from one state to the next.

What the operating system cannot do it tells by a number, which stands
for a text (`systemFault`).
-/
import LabLease.Refusal

namespace LabLease.Program

/-- How a program ends. -/
inductive Ending where
  | success
  | failure (f : Failure)
  /-- It was not called as it has to be. -/
  | misuse
  /-- It was stopped in the middle of what it did. -/
  | interrupted
deriving DecidableEq

namespace Ending

def ofResult : Except Failure Unit → Ending
  | .ok () => .success
  | .error f => .failure f

/-- The status that is left behind. That of an interrupt is the one by
which shells tell that it was one. -/
def status : Ending → Nat
  | .success => 0
  | .failure _ => 1
  | .misuse => 2
  | .interrupted => 130

end Ending

/-- What a program wants to be done. Connections that it opens or accepts
are known by their numbers. -/
inductive Effect where
  | listen (address : String)
  | connect (peer : Nat) (address : String)
  /-- Sends a text and tells when that is done. -/
  | send (peer : Nat) (text : String)
  | hangUp (peer : Nat)
  /-- A line of the program's output. -/
  | print (line : String)
  /-- A line beside the output. -/
  | remark (line : String)
  | finish (ending : Ending)

/-- What happens to a program. -/
inductive Occurrence where
  | listening (address : String)
  | notListening (cause : String)
  /-- Somebody else has opened a connection. -/
  | accepted (peer : Nat)
  | connected (peer : Nat)
  | notConnected (peer : Nat) (cause : String)
  | received (peer : Nat) (octets : List UInt8)
  | sent (peer : Nat)
  | ended (peer : Nat)
  /-- Whoever runs the program wants it to end. -/
  | interrupted
  /-- Time has passed; something may have come due. -/
  | timePassed

instance : Inhabited Occurrence := ⟨.timePassed⟩

/-- The texts of the faults that files and connections meet, by
number. -/
def systemFaults : List (Nat × String) :=
  [(2, "No such file or directory"), (13, "Permission denied"),
    (20, "Not a directory"), (21, "Is a directory"),
    (22, "Invalid argument"), (24, "Too many open files"),
    (97, "Address family not supported by protocol"),
    (98, "Address already in use"), (99, "Cannot assign requested address"),
    (101, "Network is unreachable"), (104, "Connection reset by peer"),
    (110, "Connection timed out"), (111, "Connection refused"),
    (113, "No route to host")]

/-- The text of a fault, and its number. -/
def systemFault (number : Nat) : String :=
  let text := (systemFaults.lookup number).getD s!"Unknown error {number}"
  s!"{text} (os error {number})"

end LabLease.Program
