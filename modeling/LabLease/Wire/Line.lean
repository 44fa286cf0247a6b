/-
Lines out of a stream of octets. A reader never keeps more than its limit:
a line that grows past it is reported and forgotten, and what follows of
it up to the line feed is read as if it were a line of its own.

Limits are words of the machine. To find out that a line is too long a
reader makes room for one octet more than its limit, and at the largest
word there is no such number: the room comes to nothing, and a reader
without room takes the stream for ended before it has read of it.
-/
import LabLease.Text.Utf8

namespace LabLease

/-- What a reader yields. -/
inductive ReadLine where
  /-- A line without its line feed and a carriage return before that. -/
  | line (text : String)
  /-- More octets than the limit came before a line feed. -/
  | tooLarge
deriving DecidableEq, Repr

/-- A reader between two octets: what has come of the line so far, last
octet first. -/
structure LineReader where
  limit : UInt64
  reversed : List UInt8 := []
  size : Nat := 0

namespace LineReader

def lineFeed : UInt8 := 10

def carriageReturn : UInt8 := 13

/-- The line of some octets, last first. -/
def lineOf (reversed : List UInt8) : ReadLine :=
  .line (.ofList (Text.Utf8.decode reversed.reverse))

/-- A line is ended by a line feed, or a carriage return before it. -/
def withoutReturn : List UInt8 → List UInt8
  | b :: rest => if b = carriageReturn then rest else b :: rest
  | [] => []

/-- How many octets of a line are read before it is too long. The sum wraps
around. -/
def room (r : LineReader) : UInt64 := r.limit + 1

/-- One octet more. -/
def feed (r : LineReader) (b : UInt8) : LineReader × Option ReadLine :=
  if r.room = 0 then (r, none)
  else if b = lineFeed then
    ({ limit := r.limit }, some (lineOf (withoutReturn r.reversed)))
  else if r.limit.toNat ≤ r.size then
    ({ limit := r.limit }, some .tooLarge)
  else ({ r with reversed := b :: r.reversed, size := r.size + 1 }, none)

/-- Some octets more, and all that they complete. -/
def feedAll (r : LineReader) (octets : List UInt8) :
    LineReader × List ReadLine :=
  let (r, reversed) := octets.foldl (fun (r, out) b =>
    match r.feed b with
    | (r, some l) => (r, l :: out)
    | (r, none) => (r, out)) (r, [])
  (r, reversed.reverse)

/-- What is left when the stream ends: a last line without its end. -/
def finish (r : LineReader) : List ReadLine :=
  if r.reversed.isEmpty then [] else [lineOf r.reversed]

/-- Everything that a reader yields of a whole stream. -/
def readAll (limit : UInt64) (octets : List UInt8) : List ReadLine :=
  let (r, out) := feedAll { limit } octets
  out ++ r.finish

end LineReader

end LabLease
