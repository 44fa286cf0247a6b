/-
Resources, sessions and points in time come out of their JSON.

What the program can hold at all always does, but the types of the model
are wider in places: a date need not be one of the calendar, a pattern
need not have been read from a text, and free parameters need not be in
the order of their names. `Proper` says of each type that its values are
not of that kind.
-/
import LabLease.Wire.Resource
import LabLease.Proofs.Json.Part
import LabLease.Proofs.Resource.Pattern
import LabLease.Proofs.Time.Timestamp

namespace LabLease

open Json

/-- A date is written as a text, and only a day of the calendar is read
again. -/
theorem Timestamp.reads {t : Timestamp} (h : t.InCalendar) :
    Reads ofJson? t.json t := by
  intro p hp
  refine bind_of (reads_text _ p hp) ?_
  rw [Timestamp.text, String.toList_ofList]
  exact parse?_render h

/-- An id is four texts, with no law for what they may be. -/
theorem ResourceId.reads (id : ResourceId) : Reads ofJson? id.json id :=
  reads_record (fun _ => rfl) rfl (by decide) fun _ ⟨he, hg, hc, hn⟩ =>
    bind_of (he.required (reads_text _)) <|
    bind_of (hg.required (reads_text _)) <|
    bind_of (hc.required (reads_text _)) <|
    bind_of (hn.required (reads_text _)) rfl

/-- A pattern is the text that it was read from. -/
theorem ResourcePattern.reads {m : ResourcePattern} (h : m.Written) :
    Reads ofJson? m.json m := by
  intro p hp
  refine bind_of (reads_text _ p hp) ?_
  rw [parse_text h]
  rfl

-- ============================================================ parameters

namespace ResourceParams

/-- Free parameters are values as they are read. -/
def Proper : ResourceParams → Prop
  | .other _ params => ∀ e ∈ params.entries, e.2.isOrdered = true
  | _ => True

/-- What fits 16 bits is read without a loss. -/
theorem reads_uint16 (n : UInt16) : Reads uint16? (.nat n.toNat) n := by
  have h := (reads_unsigned n.toNat_lt).map UInt16.ofNat
  rwa [UInt16.ofNat_toNat] at h

/-- And so is what fits 32. -/
theorem reads_uint32 (n : UInt32) : Reads uint32? (.nat n.toNat) n := by
  have h := (reads_unsigned n.toNat_lt).map UInt32.ofNat
  rwa [UInt32.ofNat_toNat] at h

/-- Free parameters are read as a table, which has them in the order of
their names. -/
theorem reads_params {params : Table String Value}
    (h : ∀ e ∈ params.entries, e.2.isOrdered = true) :
    Reads (Part.table? Part.value?) (.object params.entries) params := by
  have htable : Value.table id params = .object params.entries :=
    congrArg Value.object (List.map_id _)
  rw [← htable]
  exact reads_table fun e he => reads_value (h e he)

/-- Each kind of parameters is told by its class. -/
theorem reads {r : ResourceParams} (h : r.Proper) :
    Reads ofJson? r.json r := by
  cases r with
  | serialPort port speed =>
    exact reads_case "serial-port" (fun _ => rfl) (fun _ => rfl) rfl
      (by decide)
      fun _ ⟨hport, hspeed⟩ =>
        bind_of (hport.required (reads_text _)) <|
        bind_of (hspeed.withDefault _ (reads_uint32 _)) rfl
  | networkSerialPort host port speed =>
    exact reads_case "network-serial-port" (fun _ => rfl) (fun _ => rfl) rfl
      (by decide)
      fun _ ⟨hhost, hport, hspeed⟩ =>
        bind_of (hhost.required (reads_text _)) <|
        bind_of (hport.required (reads_uint16 _)) <|
        bind_of (hspeed.withDefault _ (reads_uint32 _)) rfl
  | networkInterface ifname =>
    exact reads_case "network-interface" (fun _ => rfl) (fun _ => rfl) rfl
      (by decide)
      fun _ hname => bind_of (hname.required (reads_text _)) rfl
  | ethernetPort switch interface =>
    exact reads_case "ethernet-port" (fun _ => rfl) (fun _ => rfl) rfl
      (by decide)
      fun _ ⟨hswitch, hinterface⟩ =>
        bind_of (hswitch.required (reads_text _)) <|
        bind_of (hinterface.required (reads_text _)) rfl
  | sysfsGpio index =>
    exact reads_case "sysfs-gpio" (fun _ => rfl) (fun _ => rfl) rfl
      (by decide)
      fun _ hindex => bind_of (hindex.required (reads_uint32 _)) rfl
  | gpiodGpio gpiochip lineOffset =>
    exact reads_case "gpiod-gpio" (fun _ => rfl) (fun _ => rfl) rfl
      (by decide)
      fun _ ⟨hchip, hline⟩ =>
        bind_of (hchip.required (reads_uint32 _)) <|
        bind_of (hline.required (reads_uint32 _)) rfl
  | usbDevice busnum devnum path vendorId modelId =>
    exact reads_case "usb-device" (fun _ => rfl) (fun _ => rfl) rfl
      (by decide)
      fun _ ⟨hbus, hdev, hpath, hvendor, hmodel⟩ =>
        bind_of (hbus.required (reads_uint32 _)) <|
        bind_of (hdev.required (reads_uint32 _)) <|
        bind_of (hpath.withDefault _ (reads_optional fun _ _ =>
          ⟨nofun, reads_text _⟩)) <|
        bind_of (hvendor.withDefault _ (reads_optional fun _ _ =>
          ⟨nofun, reads_uint16 _⟩)) <|
        bind_of (hmodel.withDefault _ (reads_optional fun _ _ =>
          ⟨nofun, reads_uint16 _⟩)) rfl
  | powerPort model host index =>
    exact reads_case "power-port" (fun _ => rfl) (fun _ => rfl) rfl
      (by decide)
      fun _ ⟨hmodel, hhost, hindex⟩ =>
        bind_of (hmodel.required (reads_text _)) <|
        bind_of (hhost.required (reads_text _)) <|
        bind_of (hindex.required (reads_text _)) rfl
  | modbusTcpCoil host coil invert =>
    exact reads_case "modbus-tcp-coil" (fun _ => rfl) (fun _ => rfl) rfl
      (by decide)
      fun _ ⟨hhost, hcoil, hinvert⟩ =>
        bind_of (hhost.required (reads_text _)) <|
        bind_of (hcoil.required (reads_uint16 _)) <|
        bind_of (hinvert.withDefault _ (reads_bool _)) rfl
  | other cls params =>
    exact reads_case "other" (fun _ => rfl) (fun _ => rfl) rfl
      (by decide)
      fun _ ⟨hcls, hparams⟩ =>
        bind_of (hcls.required (reads_text _)) <|
        bind_of (hparams.withDefault _ (reads_params h)) rfl

end ResourceParams

/-- An announcement is proper if its parameters are. -/
def ResourceSpec.Proper (s : ResourceSpec) : Prop := s.params.Proper

/-- An announcement has no id yet, only its parts that the exporter
knows. -/
theorem ResourceSpec.reads {s : ResourceSpec} (h : s.Proper) :
    Reads ofJson? s.json s :=
  reads_record (fun _ => rfl) rfl (by decide)
    fun _ ⟨hgroup, hname, hparams⟩ =>
      bind_of (hgroup.required (reads_text _)) <|
      bind_of (hname.required (reads_text _)) <|
      bind_of (hparams.required (ResourceParams.reads h)) rfl

def Resource.Proper (r : Resource) : Prop := r.params.Proper

/-- A resource is its id with its parameters, its mark and its version. -/
theorem Resource.reads {r : Resource} (h : r.Proper) :
    Reads ofJson? r.json r :=
  reads_record (fun _ => rfl) rfl (by decide)
    fun _ ⟨hid, hparams, hacquired, hversion⟩ =>
      bind_of (hid.required (ResourceId.reads _)) <|
      bind_of (hparams.required (ResourceParams.reads h)) <|
      bind_of (hacquired.required (reads_bool _)) <|
      bind_of (hversion.required (reads_word _)) rfl

-- ============================================================== sessions

/-- A role is one word out of a list. -/
theorem Role.reads (r : Role) : Reads ofJson? r.json r := by
  cases r <;> exact reads_choice (by decide)

/-- A holder is a name and a session. -/
theorem Holder.reads (h : Holder) : Reads ofJson? h.json h :=
  reads_record (fun _ => rfl) rfl (by decide) fun _ ⟨hname, hsession⟩ =>
    bind_of (hname.required (reads_text _)) <|
    bind_of (hsession.required (reads_word _)) rfl

def SessionInfo.Proper (s : SessionInfo) : Prop := s.connected.InCalendar

/-- A session is shown with the day on which it began. -/
theorem SessionInfo.reads {s : SessionInfo} (h : s.Proper) :
    Reads ofJson? s.json s :=
  reads_record (fun _ => rfl) rfl (by decide)
    fun _ ⟨hid, hname, hrole, hconnected⟩ =>
      bind_of (hid.required (reads_word _)) <|
      bind_of (hname.required (reads_text _)) <|
      bind_of (hrole.required (Role.reads _)) <|
      bind_of (hconnected.required (Timestamp.reads h)) rfl

end LabLease
