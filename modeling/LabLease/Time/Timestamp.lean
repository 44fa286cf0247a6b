/-
Points in time as calendar date and time of day in UTC, to the
nanosecond, and their text by RFC 3339. A text may give an offset of
under a day, which moves the date by at most one day.

An instant as the coordinator is told it is such a date, which records
are stamped with, and a count of milliseconds, by which deadlines are
measured. Neither is derived from the other.
-/
import LabLease.Number.Whole
import LabLease.Text.Fields

namespace LabLease

/-- A point in time in UTC. In a leap second `nanosecond` counts on past
a thousand million. -/
structure Timestamp where
  year : Int
  month : Nat
  day : Nat
  hour : Nat
  minute : Nat
  second : Nat
  nanosecond : Nat
deriving DecidableEq, Repr, Inhabited

namespace Timestamp

/-- The start of the year 1970. -/
def epoch : Timestamp := ⟨1970, 1, 1, 0, 0, 0, 0⟩

-- ============================================================= calendar

def isLeapYear (year : Int) : Bool :=
  year % 4 = 0 && (year % 100 != 0 || year % 400 = 0)

def daysIn (year : Int) (month : Nat) : Nat :=
  if month = 2 then if isLeapYear year then 29 else 28
  else if month = 4 ∨ month = 6 ∨ month = 9 ∨ month = 11 then 30
  else 31

def nextDay (t : Timestamp) : Timestamp :=
  if t.day < daysIn t.year t.month then { t with day := t.day + 1 }
  else if t.month < 12 then { t with month := t.month + 1, day := 1 }
  else { t with year := t.year + 1, month := 1, day := 1 }

def previousDay (t : Timestamp) : Timestamp :=
  if 1 < t.day then { t with day := t.day - 1 }
  else if 1 < t.month then
    { t with month := t.month - 1, day := daysIn t.year (t.month - 1) }
  else { t with year := t.year - 1, month := 12, day := 31 }

/-- A local time as UTC, `offset` being the minutes by which the local
clock is ahead, less than a day either way. -/
def fromLocal (t : Timestamp) (offset : Int) : Timestamp :=
  let minutes : Int := t.hour * 60 + t.minute - offset
  let day := if minutes < 0 then t.previousDay
    else if 1440 ≤ minutes then t.nextDay else t
  let m := (minutes % 1440).toNat
  { day with hour := m / 60, minute := m % 60 }

/-- The years that a date can have. -/
def yearInRange (year : Int) : Bool := -262143 ≤ year && year ≤ 262142

/-- The point in time so many seconds after the epoch. Years are counted
from March, so that a leap day is the last of its year, and in cycles of
400 years, which all have 146097 days. -/
def ofSeconds (seconds nanosecond : Nat) : Timestamp :=
  let days := seconds / 86400 + 719468
  let cycle := days / 146097
  let dayOfCycle := days % 146097
  let yearOfCycle := (dayOfCycle - dayOfCycle / 1460 + dayOfCycle / 36524
    - dayOfCycle / 146096) / 365
  let dayOfYear := dayOfCycle
    - (365 * yearOfCycle + yearOfCycle / 4 - yearOfCycle / 100)
  let monthFromMarch := (5 * dayOfYear + 2) / 153
  let month := if monthFromMarch < 10 then monthFromMarch + 3
    else monthFromMarch - 9
  let year := yearOfCycle + cycle * 400 + if month ≤ 2 then 1 else 0
  let time := seconds % 86400
  { year, month, day := dayOfYear - (153 * monthFromMarch + 2) / 5 + 1
    hour := time / 3600, minute := time / 60 % 60, second := time % 60
    nanosecond }

-- ============================================================== writing

/-- A number with zeros in front up to a width. -/
def padded (width n : Nat) : List Char :=
  let digits := Nat.toDigits 10 n
  List.replicate (width - digits.length) '0' ++ digits

/-- A year: four digits, or a sign and at least four. -/
def writeYear (year : Int) : List Char :=
  if 0 ≤ year ∧ year ≤ 9999 then padded 4 year.toNat
  else (if year < 0 then '-' else '+') :: padded 4 year.natAbs

/-- The part of a second: none, or three, six or nine places, the least
that loses nothing. -/
def writeFraction (nano : Nat) : List Char :=
  if nano = 0 then []
  else if nano % 1000000 = 0 then '.' :: padded 3 (nano / 1000000)
  else if nano % 1000 = 0 then '.' :: padded 6 (nano / 1000)
  else '.' :: padded 9 nano

/-- The text of a point in time. A leap second is the sixtieth. -/
def render (t : Timestamp) : List Char :=
  let leap := 1000000000 ≤ t.nanosecond
  let second := if leap then t.second + 1 else t.second
  let nano := if leap then t.nanosecond - 1000000000 else t.nanosecond
  writeYear t.year ++ '-' :: padded 2 t.month ++ '-' :: padded 2 t.day
    ++ 'T' :: padded 2 t.hour ++ ':' :: padded 2 t.minute
    ++ ':' :: padded 2 second ++ writeFraction nano ++ ['Z']

def text (t : Timestamp) : String := .ofList t.render

/-- The text of a point in time with the offset of UTC spelled out. -/
def textWithOffset (t : Timestamp) : String :=
  .ofList t.render.dropLast ++ "+00:00"

-- ============================================================== reading

def natOf (digits : List Char) : Nat :=
  digits.foldl (fun n c => n * 10 + (c.toNat - '0'.toNat)) 0

/-- Reads a number of one to `width` digits, white space before it
skipped. -/
def readNumber (width : Nat) (s : List Char) :
    Option (Nat × List Char) :=
  let s := Text.trimStart s
  let digits := (s.take width).takeWhile Char.isDigit
  if digits.isEmpty then none
  else some (natOf digits, s.drop digits.length)

/-- Reads a year. With a sign it may have any number of digits. -/
def readYear (s : List Char) : Option (Int × List Char) :=
  match Text.trimStart s with
  | '-' :: rest => (digits rest).map fun (n, s) => (-(n : Int), s)
  | '+' :: rest => (digits rest).map fun (n, s) => ((n : Int), s)
  | s => (readNumber 4 s).map fun (n, s) => ((n : Int), s)
where
  /-- All digits that stand here, at least one. -/
  digits (s : List Char) : Option (Nat × List Char) :=
    let ds := s.takeWhile Char.isDigit
    if ds.isEmpty then none else some (natOf ds, s.drop ds.length)

/-- Reads a given character, white space before it skipped. -/
def readMark (c : Char) (s : List Char) : Option (List Char) :=
  match Text.trimStart s with
  | d :: rest => if d = c then some rest else none
  | [] => none

/-- Reads a part of a second in nanoseconds, if a point stands here.
Places beyond the ninth are dropped. -/
def readFraction : List Char → Option (Nat × List Char)
  | '.' :: s =>
    let ds := s.takeWhile Char.isDigit
    if ds.isEmpty then none
    else
      let nine := ds.take 9
      some (natOf nine * tenTo (9 - nine.length), s.drop ds.length)
  | s => some (0, s)

/-- Reads an offset from UTC in minutes. -/
def readOffset (s : List Char) : Option (Int × List Char) :=
  match s with
  | 'U' :: r | 'u' :: r =>
    match r with
    | t :: c :: rest =>
      if t.toUpper = 'T' ∧ c.toUpper = 'C' then some (0, rest) else none
    | _ => none
  | 'Z' :: rest | 'z' :: rest => some (0, rest)
  | '+' :: rest => minutes 1 rest
  | '-' :: rest | '−' :: rest => minutes (-1) rest
  | _ => none
where
  /-- Two digits of hours and two of minutes, with colons or white space
  between them. -/
  minutes (sign : Int) : List Char → Option (Int × List Char)
    | a :: b :: rest =>
      match rest.dropWhile fun c => c = ':' || Text.isBlank c with
      | c :: d :: rest =>
        if [a, b, c, d].all Char.isDigit ∧ c ≤ '5' then
          some (sign * (natOf [a, b] * 60 + natOf [c, d]), rest)
        else none
      | _ => none
    | _ => none

/-- Reads a point in time. White space may stand before any number and
mark of date and time, and before the offset. -/
def parse? (s : List Char) : Option Timestamp := do
  let (year, s) ← readYear s
  let s ← readMark '-' s
  let (month, s) ← readNumber 2 s
  let s ← readMark '-' s
  let (day, s) ← readNumber 2 s
  let s ← match s with
    | c :: rest =>
      if c = 'T' ∨ c = 't' ∨ c = ' ' then some rest else none
    | [] => none
  let (hour, s) ← readNumber 2 s
  let s ← readMark ':' s
  let (minute, s) ← readNumber 2 s
  let s ← readMark ':' s
  let (second, s) ← readNumber 2 s
  let (nano, s) ← readFraction s
  let (offset, s) ← readOffset (Text.trimStart s)
  let inRange := yearInRange year && 1 ≤ month && month ≤ 12
    && 1 ≤ day && day ≤ daysIn year month && hour < 24 && minute < 60
    && second ≤ 60 && offset.natAbs < 1440
    && (Text.trimStart s).isEmpty
  let leap := second = 60
  let t : Timestamp :=
    ⟨year, month, day, hour, minute, if leap then 59 else second,
      if leap then nano + 1000000000 else nano⟩
  let utc := t.fromLocal offset
  if inRange && yearInRange utc.year then some utc else none

end Timestamp

-- ============================================================== instants

/-- An instant. -/
structure Moment where
  /-- Milliseconds since some fixed start. -/
  ticks : Nat
  date : Timestamp
deriving DecidableEq, Repr, Inhabited

/-- The milliseconds since an earlier instant; none since a later one. -/
def Moment.since (now : Moment) (start : Nat) : Nat := now.ticks - start

end LabLease
