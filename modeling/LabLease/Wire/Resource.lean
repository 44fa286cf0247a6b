/-
Resources, sessions and points in time as JSON.
-/
import LabLease.Json.Part
import LabLease.Json.Writer
import LabLease.Resource.Pattern
import LabLease.Session

namespace LabLease

open Json (Part Value)

def Timestamp.json (t : Timestamp) : Value := .string t.text

def Timestamp.ofJson? (p : Part) : Option Timestamp := do
  Timestamp.parse? (← p.text?).toList

-- =========================================================== identities

def ResourceId.json (id : ResourceId) : Value :=
  .object [("exporter", .string id.exporter), ("group", .string id.group),
    ("class", .string id.cls), ("name", .string id.name)]

def ResourceId.ofJson? (p : Part) : Option ResourceId := do
  let f ← p.fields? ["exporter", "group", "class", "name"]
  return {
    exporter := ← f.required "exporter" Part.text?
    group := ← f.required "group" Part.text?
    cls := ← f.required "class" Part.text?
    name := ← f.required "name" Part.text? }

def ResourcePattern.json (m : ResourcePattern) : Value := .string m.text

def ResourcePattern.ofJson? (p : Part) : Option ResourcePattern := do
  (ResourcePattern.parse (← p.text?)).toOption

-- =========================================================== parameters

namespace ResourceParams

/-- The tags of the classes, in order. -/
def tags : List String :=
  ["serial-port", "network-serial-port", "network-interface",
   "ethernet-port", "sysfs-gpio", "gpiod-gpio", "usb-device",
   "power-port", "modbus-tcp-coil", "other"]

/-- An object of a class. -/
def tagged (tag : String) (members : List (String × Value)) : Value :=
  .object (("cls", .string tag) :: members)

def json : ResourceParams → Value
  | .serialPort port speed =>
    tagged "serial-port"
      [("port", .string port), ("speed", .nat speed.toNat)]
  | .networkSerialPort host port speed =>
    tagged "network-serial-port"
      [("host", .string host), ("port", .nat port.toNat),
       ("speed", .nat speed.toNat)]
  | .networkInterface ifname =>
    tagged "network-interface" [("ifname", .string ifname)]
  | .ethernetPort switch interface =>
    tagged "ethernet-port"
      [("switch", .string switch), ("interface", .string interface)]
  | .sysfsGpio index => tagged "sysfs-gpio" [("index", .nat index.toNat)]
  | .gpiodGpio gpiochip lineOffset =>
    tagged "gpiod-gpio"
      [("gpiochip", .nat gpiochip.toNat),
       ("line_offset", .nat lineOffset.toNat)]
  | .usbDevice busnum devnum path vendorId modelId =>
    tagged "usb-device"
      [("busnum", .nat busnum.toNat), ("devnum", .nat devnum.toNat),
       ("path", .option .string path),
       ("vendor_id", .option (fun n => .nat n.toNat) vendorId),
       ("model_id", .option (fun n => .nat n.toNat) modelId)]
  | .powerPort model host index =>
    tagged "power-port"
      [("model", .string model), ("host", .string host),
       ("index", .string index)]
  | .modbusTcpCoil host coil invert =>
    tagged "modbus-tcp-coil"
      [("host", .string host), ("coil", .nat coil.toNat),
       ("invert", .bool invert)]
  | .other cls params =>
    tagged "other"
      [("class", .string cls), ("params", .object params.entries)]

def uint16? (p : Part) : Option UInt16 :=
  (p.unsigned? 16).map UInt16.ofNat

def uint32? (p : Part) : Option UInt32 :=
  (p.unsigned? 32).map UInt32.ofNat

def ofJson? (p : Part) : Option ResourceParams := do
  match ← p.variant? "cls" tags with
  | ("serial-port", p) =>
    let f ← p.fields? ["port", "speed"]
    return .serialPort (← f.required "port" Part.text?)
      (← f.withDefault "speed" defaultSpeed uint32?)
  | ("network-serial-port", p) =>
    let f ← p.fields? ["host", "port", "speed"]
    return .networkSerialPort (← f.required "host" Part.text?)
      (← f.required "port" uint16?)
      (← f.withDefault "speed" defaultSpeed uint32?)
  | ("network-interface", p) =>
    let f ← p.fields? ["ifname"]
    return .networkInterface (← f.required "ifname" Part.text?)
  | ("ethernet-port", p) =>
    let f ← p.fields? ["switch", "interface"]
    return .ethernetPort (← f.required "switch" Part.text?)
      (← f.required "interface" Part.text?)
  | ("sysfs-gpio", p) =>
    let f ← p.fields? ["index"]
    return .sysfsGpio (← f.required "index" uint32?)
  | ("gpiod-gpio", p) =>
    let f ← p.fields? ["gpiochip", "line_offset"]
    return .gpiodGpio (← f.required "gpiochip" uint32?)
      (← f.required "line_offset" uint32?)
  | ("usb-device", p) =>
    let f ← p.fields? ["busnum", "devnum", "path", "vendor_id", "model_id"]
    return .usbDevice (← f.required "busnum" uint32?)
      (← f.required "devnum" uint32?)
      (← f.withDefault "path" none (Part.optional? Part.text?))
      (← f.withDefault "vendor_id" none (Part.optional? uint16?))
      (← f.withDefault "model_id" none (Part.optional? uint16?))
  | ("power-port", p) =>
    let f ← p.fields? ["model", "host", "index"]
    return .powerPort (← f.required "model" Part.text?)
      (← f.required "host" Part.text?) (← f.required "index" Part.text?)
  | ("modbus-tcp-coil", p) =>
    let f ← p.fields? ["host", "coil", "invert"]
    return .modbusTcpCoil (← f.required "host" Part.text?)
      (← f.required "coil" uint16?)
      (← f.withDefault "invert" false Part.bool?)
  | ("other", p) =>
    let f ← p.fields? ["class", "params"]
    return .other (← f.required "class" Part.text?)
      (← f.withDefault "params" .empty (Part.table? Part.value?))
  | _ => none

end ResourceParams

def ResourceSpec.json (s : ResourceSpec) : Value :=
  .object [("group", .string s.group), ("name", .string s.name),
    ("params", s.params.json)]

def ResourceSpec.ofJson? (p : Part) : Option ResourceSpec := do
  let f ← p.fields? ["group", "name", "params"]
  return {
    group := ← f.required "group" Part.text?
    name := ← f.required "name" Part.text?
    params := ← f.required "params" ResourceParams.ofJson? }

def Resource.json (r : Resource) : Value :=
  .object [("id", r.id.json), ("params", r.params.json),
    ("acquired", .bool r.acquired), ("version", .nat r.version)]

def Resource.ofJson? (p : Part) : Option Resource := do
  let f ← p.fields? ["id", "params", "acquired", "version"]
  return {
    id := ← f.required "id" ResourceId.ofJson?
    params := ← f.required "params" ResourceParams.ofJson?
    acquired := ← f.required "acquired" Part.bool?
    version := ← f.required "version" Part.word? }

-- ============================================================= sessions

def Role.json (r : Role) : Value := .string r.word

def Role.ofJson? (p : Part) : Option Role :=
  p.choice? ([Role.exporter, Role.client].map fun r => (r.word, r))

def Holder.json (h : Holder) : Value :=
  .object [("name", .string h.name), ("session", .nat h.session)]

def Holder.ofJson? (p : Part) : Option Holder := do
  let f ← p.fields? ["name", "session"]
  return {
    name := ← f.required "name" Part.text?
    session := ← f.required "session" Part.word? }

def SessionInfo.json (s : SessionInfo) : Value :=
  .object [("id", .nat s.id), ("name", .string s.name),
    ("role", s.role.json), ("connected", s.connected.json)]

def SessionInfo.ofJson? (p : Part) : Option SessionInfo := do
  let f ← p.fields? ["id", "name", "role", "connected"]
  return {
    id := ← f.required "id" Part.word?
    name := ← f.required "name" Part.text?
    role := ← f.required "role" Role.ofJson?
    connected := ← f.required "connected" Timestamp.ofJson? }

end LabLease
