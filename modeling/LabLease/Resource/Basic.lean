/-
What exporters publish: one controllable piece of laboratory hardware
each, with the parameters of its class. A resource is named by the
exporter that publishes it, a group, its class and a name of its own, and
identifiers are ordered field by field in that sequence.
-/
import LabLease.Text.Fields
import LabLease.Json.Value

namespace LabLease

/-- The identity of a published resource. -/
structure ResourceId where
  exporter : String
  group : String
  cls : String
  name : String
deriving DecidableEq, Repr, Inhabited

namespace ResourceId

/-- Field by field, the exporter first. -/
def order : ResourceId → ResourceId → Ordering :=
  compareLex (compareOn exporter) <| compareLex (compareOn group) <|
    compareLex (compareOn cls) (compareOn name)

instance : Ord ResourceId := ⟨order⟩

private theorem transCmp_field (f : ResourceId → String) :
    Std.TransCmp (compareOn f) :=
  @Std.instTransCmpCompareOnOfTransOrd ResourceId String f _ _

instance : Std.TransOrd ResourceId :=
  @Std.instTransCmpCompareLex _ _ _ (transCmp_field _) <|
    @Std.instTransCmpCompareLex _ _ _ (transCmp_field _) <|
      @Std.instTransCmpCompareLex _ _ _ (transCmp_field _)
        (transCmp_field _)

instance : Std.LawfulEqOrd ResourceId where
  compare_self {a} := by
    show order a a = .eq
    simp only [order, compareLex, compareOn, Std.ReflCmp.compare_self,
      Ordering.then_eq]
  eq_of_compare {a b} h := by
    have h : order a b = .eq := h
    simp only [order, compareLex, compareOn, Ordering.then_eq_eq,
      Std.compare_eq_iff_eq] at h
    obtain ⟨h1, h2, h3, h4⟩ := h
    cases a
    cases b
    simp only at h1 h2 h3 h4
    subst h1 h2 h3 h4
    rfl

/-- The fields of an identifier in order. -/
def fields (id : ResourceId) : List String :=
  [id.exporter, id.group, id.cls, id.name]

/-- The text `exporter/group/class/name`. -/
def text (id : ResourceId) : String :=
  s!"{id.exporter}/{id.group}/{id.cls}/{id.name}"

/-- Reads an identifier of four fields, none of them empty. -/
def parse (s : String) : Except String ResourceId :=
  match Text.fields '/' s.toList with
  | [exporter, group, cls, name] =>
    if [exporter, group, cls, name].all (!·.isEmpty) then
      .ok ⟨.ofList exporter, .ofList group, .ofList cls, .ofList name⟩
    else .error (complaint s)
  | _ => .error (complaint s)
where
  /-- What is wrong with a text that is no identifier. -/
  complaint (s : String) : String :=
    s!"Invalid resource id '{s}': expected exporter/group/class/name"

end ResourceId

/-- The parameters of a resource, by class. They are carried to the
driver that a client binds and mean nothing on the way. -/
inductive ResourceParams where
  | serialPort (port : String) (speed : UInt32)
  | networkSerialPort (host : String) (port : UInt16) (speed : UInt32)
  | networkInterface (ifname : String)
  | ethernetPort (switch : String) (interface : String)
  | sysfsGpio (index : UInt32)
  | gpiodGpio (gpiochip lineOffset : UInt32)
  | usbDevice (busnum devnum : UInt32) (path : Option String)
      (vendorId modelId : Option UInt16)
  | powerPort (model host index : String)
  | modbusTcpCoil (host : String) (coil : UInt16) (invert : Bool)
  /-- Any other class, with parameters of any shape. -/
  | other (cls : String) (params : Table String Json.Value)
deriving DecidableEq

namespace ResourceParams

/-- The class in identifiers and patterns. -/
def cls : ResourceParams → String
  | .serialPort .. => "SerialPort"
  | .networkSerialPort .. => "NetworkSerialPort"
  | .networkInterface .. => "NetworkInterface"
  | .ethernetPort .. => "EthernetPort"
  | .sysfsGpio .. => "SysfsGPIO"
  | .gpiodGpio .. => "GpiodGPIO"
  | .usbDevice .. => "USBDevice"
  | .powerPort .. => "NetworkPowerPort"
  | .modbusTcpCoil .. => "ModbusTCPCoil"
  | .other cls _ => cls

/-- The line speed of a serial port that names none. -/
def defaultSpeed : UInt32 := 115200

/-- Whether two resources have the same parameters. Free parameters are
compared as JSON values, so the two real zeros do not differ. -/
def same : ResourceParams → ResourceParams → Bool
  | .other c p, .other d q =>
    c = d && Json.Value.sameMembers p.entries q.entries
  | p, q => p = q

end ResourceParams

/-- What an exporter announces for one resource. -/
structure ResourceSpec where
  group : String
  name : String
  params : ResourceParams
deriving DecidableEq

namespace ResourceSpec

/-- The identity of the resource under an exporter. -/
def idFor (spec : ResourceSpec) (exporter : String) : ResourceId :=
  ⟨exporter, spec.group, spec.params.cls, spec.name⟩

/-- Whether two announcements say the same. -/
def same (s t : ResourceSpec) : Bool :=
  s.group = t.group && s.name = t.name && s.params.same t.params

end ResourceSpec

/-- A published resource. -/
structure Resource where
  id : ResourceId
  params : ResourceParams
  /-- Whether an acquired place has it bound. -/
  acquired : Bool
  version : Nat
deriving DecidableEq

end LabLease
