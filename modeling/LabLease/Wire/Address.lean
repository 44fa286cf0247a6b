/-
Addresses as they are written in settings and on the command line: a host
and a port behind the last colon.
-/
import LabLease.Number.Whole

namespace LabLease

inductive Host where
  | ipv4 (a b c d : UInt8)
  /-- The text of an address, without its brackets. -/
  | ipv6 (text : String)
  | name (text : String)
deriving DecidableEq, Repr

structure Address where
  host : Host
  port : UInt16
deriving DecidableEq, Repr

/-- Why a text is no address. -/
inductive AddressFault where
  | noPort
  | badPort
deriving DecidableEq, Repr

def AddressFault.message : AddressFault → String
  | .noPort => "invalid socket address"
  | .badPort => "invalid port value"

namespace Host

/-- One of four numbers: no more than three digits and no idle zero. -/
def octet? (s : String) : Option UInt8 :=
  match s.toList with
  | '0' :: _ :: _ | '+' :: _ => none
  | cs =>
    if 3 < cs.length then none else (Whole.unsigned? 8 s).map UInt8.ofNat

def parse (s : String) : Host :=
  match s.splitOn "." |>.mapM octet? with
  | some [a, b, c, d] => .ipv4 a b c d
  | _ =>
    match s.toList with
    | '[' :: rest =>
      if rest.getLast? = some ']' then .ipv6 (.ofList rest.dropLast)
      else .name s
    | _ => .name s

end Host

namespace Address

/-- Reads an address. What stands before the last colon is the host. -/
def parse (s : String) : Except AddressFault Address :=
  let back := s.toList.reverse
  let port := back.takeWhile (· ≠ ':')
  match back.dropWhile (· ≠ ':') with
  | _ :: host =>
    match Whole.unsigned? 16 (.ofList port.reverse) with
    | some n => .ok ⟨.parse (.ofList host.reverse), .ofNat n⟩
    | none => .error .badPort
  | [] => .error .noPort

end Address

end LabLease
