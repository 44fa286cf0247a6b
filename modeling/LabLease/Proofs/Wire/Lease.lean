/-
Places, reservations, events and snapshots come out of their JSON.
-/
import LabLease.Wire.Lease
import LabLease.Proofs.Wire.Resource

namespace LabLease

open Json

/-- A table of texts is an object of texts. -/
theorem reads_textTable (t : Table String String) :
    Reads textTable? (.table .string t) t :=
  reads_table fun _ _ => reads_text _

/-- A list of ids is an array of them. -/
theorem reads_ids (ids : List ResourceId) :
    Reads (Part.list? ResourceId.ofJson?) (.list ResourceId.json ids) ids :=
  reads_list fun id _ => ResourceId.reads id

/-- Patterns are written as the texts that they were read from. -/
theorem reads_patterns {ms : List ResourcePattern}
    (h : ∀ m ∈ ms, m.Written) :
    Reads (Part.list? ResourcePattern.ofJson?)
      (.list ResourcePattern.json ms) ms :=
  reads_list fun m hm => ResourcePattern.reads (h m hm)

-- ================================================================ places

/-- The patterns have been read from texts, and the dates are of the
calendar. -/
structure Place.Proper (p : Place) : Prop where
  patterns : ∀ m ∈ p.patterns, m.Written
  created : p.created.InCalendar
  changed : p.changed.InCalendar

/-- A place nobody holds is written with a null for its holder. -/
theorem Place.reads {p : Place} (h : p.Proper) :
    Reads ofJson? p.json p :=
  reads_record (fun _ => rfl) rfl (by decide)
    fun _ ⟨hname, hpatterns, htags, hcomment, hholder, hbound, hcreated,
        hchanged, hversion⟩ =>
      bind_of (hname.required (reads_text _)) <|
      bind_of (hpatterns.required (reads_patterns h.patterns)) <|
      bind_of (htags.withDefault _ (reads_textTable _)) <|
      bind_of (hcomment.withDefault _ (reads_text _)) <|
      bind_of (hholder.nullable (reads_optional fun _ _ =>
        ⟨nofun, Holder.reads _⟩)) <|
      bind_of (hbound.withDefault _ (reads_ids _)) <|
      bind_of (hcreated.required (Timestamp.reads h.created)) <|
      bind_of (hchanged.required (Timestamp.reads h.changed)) <|
      bind_of (hversion.required (reads_word _)) rfl

def PlaceView.Proper (v : PlaceView) : Prop := v.place.Proper

/-- A view is a place with what it matches and what it has lost. -/
theorem PlaceView.reads {v : PlaceView} (h : v.Proper) :
    Reads ofJson? v.json v :=
  reads_record (fun _ => rfl) rfl (by decide)
    fun _ ⟨hplace, hmatched, hmissing⟩ =>
      bind_of (hplace.required (Place.reads h)) <|
      bind_of (hmatched.required (reads_ids _)) <|
      bind_of (hmissing.required (reads_ids _)) rfl

/-- What a filter does not ask for is a null or an empty table. -/
theorem PlaceFilter.reads (f : PlaceFilter) : Reads ofJson? f.json f :=
  reads_record (fun _ => rfl) rfl (by decide)
    fun _ ⟨hname, htags, hfree⟩ =>
      bind_of (hname.withDefault _ (reads_optional fun _ _ =>
        ⟨nofun, reads_text _⟩)) <|
      bind_of (htags.withDefault _ (reads_textTable _)) <|
      bind_of (hfree.withDefault _ (reads_optional fun _ _ =>
        ⟨nofun, reads_bool _⟩)) rfl

-- ========================================================== reservations

/-- A state is one word out of a list. -/
theorem ReservationState.reads (s : ReservationState) :
    Reads ofJson? s.json s := by
  cases s <;> exact reads_choice (by decide)

/-- A priority has 32 bits, one of them the sign. -/
def IsPriority (n : Int) : Prop := -(twoTo 31 : Int) ≤ n ∧ n < twoTo 31

/-- A priority of 32 bits is read without a loss. -/
theorem reads_priority {n : Int} (h : IsPriority n) :
    Reads priority? (.int n) n :=
  reads_int h.1 (Int.le_sub_one_of_lt h.2)

structure Reservation.Proper (r : Reservation) : Prop where
  filters : ∀ m ∈ r.filters, m.Written
  priority : IsPriority r.priority
  created : r.created.InCalendar

/-- A reservation without an allocation has an empty list of them. -/
theorem Reservation.reads {r : Reservation} (h : r.Proper) :
    Reads ofJson? r.json r :=
  reads_record (fun _ => rfl) rfl (by decide)
    fun _ ⟨hid, howner, hfilters, hpriority, hstate, hallocations, hcreated,
        hversion⟩ =>
      bind_of (hid.required (reads_text _)) <|
      bind_of (howner.required (Holder.reads _)) <|
      bind_of (hfilters.required (reads_patterns h.filters)) <|
      bind_of (hpriority.required (reads_priority h.priority)) <|
      bind_of (hstate.required (ReservationState.reads _)) <|
      bind_of (hallocations.withDefault _ (reads_ids _)) <|
      bind_of (hcreated.required (Timestamp.reads h.created)) <|
      bind_of (hversion.required (reads_word _)) rfl

-- ================================================================ events

namespace Change

/-- A change is proper if what it carries is. -/
def Proper : Change → Prop
  | .resource r => r.Proper
  | .place v => v.Proper
  | .reservation r => r.Proper
  | .resourceRemoved _ | .placeDeleted _ => True

/-- Each change is told by its name. -/
theorem reads {c : Change} (h : c.Proper) : Reads ofJson? c.json c := by
  cases c with
  | resource r =>
    exact reads_case "resource" (fun _ => rfl) (fun _ => rfl) rfl
      (by decide)
      fun _ hr => bind_of (hr.required (Resource.reads h)) rfl
  | resourceRemoved id =>
    exact reads_case "resource-removed" (fun _ => rfl) (fun _ => rfl) rfl
      (by decide)
      fun _ hid => bind_of (hid.required (ResourceId.reads _)) rfl
  | place v =>
    exact reads_case "place" (fun _ => rfl) (fun _ => rfl) rfl
      (by decide)
      fun _ hv => bind_of (hv.required (PlaceView.reads h)) rfl
  | placeDeleted name =>
    exact reads_case "place-deleted" (fun _ => rfl) (fun _ => rfl) rfl
      (by decide)
      fun _ hname => bind_of (hname.required (reads_text _)) rfl
  | reservation r =>
    exact reads_case "reservation" (fun _ => rfl) (fun _ => rfl) rfl
      (by decide)
      fun _ hr => bind_of (hr.required (Reservation.reads h)) rfl

end Change

def Event.Proper (e : Event) : Prop := e.change.Proper

/-- An event is a number and a change. -/
theorem Event.reads {e : Event} (h : e.Proper) : Reads ofJson? e.json e :=
  reads_record (fun _ => rfl) rfl (by decide) fun _ ⟨hseq, hchange⟩ =>
    bind_of (hseq.required (reads_word _)) <|
    bind_of (hchange.required (Change.reads h)) rfl

structure Snapshot.Proper (s : Snapshot) : Prop where
  resources : ∀ r ∈ s.resources, r.Proper
  places : ∀ v ∈ s.places, v.Proper
  reservations : ∀ r ∈ s.reservations, r.Proper

/-- A snapshot has all that the events before its number have come to. -/
theorem Snapshot.reads {s : Snapshot} (h : s.Proper) :
    Reads ofJson? s.json s :=
  reads_record (fun _ => rfl) rfl (by decide)
    fun _ ⟨hnumber, hresources, hplaces, hreservations⟩ =>
      bind_of (hnumber.required (reads_word _)) <|
      bind_of (hresources.required (reads_list fun r hr =>
        Resource.reads (h.resources r hr))) <|
      bind_of (hplaces.required (reads_list fun v hv =>
        PlaceView.reads (h.places v hv))) <|
      bind_of (hreservations.required (reads_list fun r hr =>
        Reservation.reads (h.reservations r hr))) rfl

end LabLease
