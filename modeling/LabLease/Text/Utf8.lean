/-
Octets as text, whatever they are. Well-formed UTF-8 is decoded; every
maximal stretch that could have started a character and is broken off,
and every octet that starts none, becomes one replacement character.
-/
namespace LabLease.Text.Utf8

/-- A character of which octets are still to come: the code point so far,
how many octets it lacks, and between what bounds the next one lies. -/
structure Pending where
  code : Nat
  lacks : Nat
  low : Nat
  high : Nat
deriving DecidableEq, Repr

/-- The text decoded so far, last character first, and the character that
is under way. -/
structure State where
  reversed : List Char := []
  pending : Option Pending := none

/-- What stands for octets that are no character. -/
def replacement : Char := '\uFFFD'

/-- An octet at the start of a character. The bounds on the second octet
rule out overlong forms, surrogates and code points out of range. -/
def start (reversed : List Char) (b : Nat) : State :=
  if b < 0x80 then ⟨Char.ofNat b :: reversed, none⟩
  else if 0xC2 ≤ b ∧ b ≤ 0xDF then
    ⟨reversed, some ⟨b - 0xC0, 1, 0x80, 0xBF⟩⟩
  else if 0xE0 ≤ b ∧ b ≤ 0xEF then
    let low := if b = 0xE0 then 0xA0 else 0x80
    let high := if b = 0xED then 0x9F else 0xBF
    ⟨reversed, some ⟨b - 0xE0, 2, low, high⟩⟩
  else if 0xF0 ≤ b ∧ b ≤ 0xF4 then
    let low := if b = 0xF0 then 0x90 else 0x80
    let high := if b = 0xF4 then 0x8F else 0xBF
    ⟨reversed, some ⟨b - 0xF0, 3, low, high⟩⟩
  else ⟨replacement :: reversed, none⟩

/-- One octet more. -/
def State.feed (s : State) (octet : UInt8) : State :=
  let b := octet.toNat
  match s.pending with
  | none => start s.reversed b
  | some p =>
    if p.low ≤ b ∧ b ≤ p.high then
      let code := p.code * 64 + b % 64
      if p.lacks = 1 then ⟨Char.ofNat code :: s.reversed, none⟩
      else ⟨s.reversed, some ⟨code, p.lacks - 1, 0x80, 0xBF⟩⟩
    else start (replacement :: s.reversed) b

/-- The characters once no octet follows. -/
def State.finish (s : State) : List Char :=
  match s.pending with
  | none => s.reversed.reverse
  | some _ => (replacement :: s.reversed).reverse

/-- The characters of a run of octets. -/
def decode (octets : List UInt8) : List Char :=
  (octets.foldl State.feed {}).finish

/-- The octets of a text. -/
def encode (text : List Char) : List UInt8 :=
  text.flatMap String.utf8EncodeChar

end LabLease.Text.Utf8
