/-
Requests, answers and frames come out of their JSON.
-/
import LabLease.Wire.Frame
import LabLease.Proofs.Wire.Lease

namespace LabLease

open Json

-- ============================================================ operations

namespace Operation

/-- What an operation carries is proper. -/
def Proper : Operation → Prop
  | .setResources specs => ∀ s ∈ specs, s.Proper
  | .listResources pattern => ∀ m, pattern = some m → m.Written
  | .createPlace _ patterns _ => ∀ m ∈ patterns, m.Written
  | .addMatch _ pattern | .deleteMatch _ pattern => pattern.Written
  | .createReservation filters priority =>
    (∀ m ∈ filters, m.Written) ∧ IsPriority priority
  | _ => True

/-- Each operation is told by its name, and its fields are read in the
order in which they are written. A pattern has to have been read from a
text and a priority has to fit its word. -/
theorem reads {op : Operation} (h : op.Proper) :
    Reads ofJson? op.json op := by
  cases op with
  | register name role =>
    exact reads_case "register" (fun _ => rfl) (fun _ => rfl) rfl
      (by decide) fun _ ⟨hname, hrole⟩ =>
        bind_of (hname.required (reads_text _)) <|
        bind_of (hrole.required (Role.reads _)) rfl
  | heartbeat =>
    exact reads_bare "heartbeat" (fun _ => rfl) (fun _ => rfl) (by decide)
  | disconnect =>
    exact reads_bare "disconnect" (fun _ => rfl) (fun _ => rfl) (by decide)
  | setResources specs =>
    exact reads_case "set-resources" (fun _ => rfl) (fun _ => rfl) rfl
      (by decide) fun _ hspecs =>
        bind_of (hspecs.required
          (reads_list fun s hs => ResourceSpec.reads (h s hs))) rfl
  | withdraw ids =>
    exact reads_case "withdraw" (fun _ => rfl) (fun _ => rfl) rfl
      (by decide) fun _ hids => bind_of (hids.required (reads_ids _)) rfl
  | listPlaces filter =>
    exact reads_case "list-places" (fun _ => rfl) (fun _ => rfl) rfl
      (by decide) fun _ hfilter =>
        bind_of (hfilter.withDefault _ (PlaceFilter.reads _)) rfl
  | listResources pattern =>
    exact reads_case "list-resources" (fun _ => rfl) (fun _ => rfl) rfl
      (by decide) fun _ hpattern =>
        bind_of (hpattern.withDefault _ (reads_optional fun m hm =>
          ⟨nofun, ResourcePattern.reads (h m hm)⟩)) rfl
  | listReservations =>
    exact reads_bare "list-reservations" (fun _ => rfl) (fun _ => rfl)
      (by decide)
  | listSessions =>
    exact reads_bare "list-sessions" (fun _ => rfl) (fun _ => rfl)
      (by decide)
  | createPlace name patterns tags =>
    exact reads_case "create-place" (fun _ => rfl) (fun _ => rfl) rfl
      (by decide) fun _ ⟨hname, hpatterns, htags⟩ =>
        bind_of (hname.required (reads_text _)) <|
        bind_of (hpatterns.withDefault _ (reads_patterns h)) <|
        bind_of (htags.withDefault _ (reads_textTable _)) rfl
  | deletePlace name =>
    exact reads_case "delete-place" (fun _ => rfl) (fun _ => rfl) rfl
      (by decide) fun _ hname => bind_of (hname.required (reads_text _)) rfl
  | addMatch name pattern =>
    exact reads_case "add-match" (fun _ => rfl) (fun _ => rfl) rfl
      (by decide) fun _ ⟨hname, hpattern⟩ =>
        bind_of (hname.required (reads_text _)) <|
        bind_of (hpattern.required (ResourcePattern.reads h)) rfl
  | deleteMatch name pattern =>
    exact reads_case "delete-match" (fun _ => rfl) (fun _ => rfl) rfl
      (by decide) fun _ ⟨hname, hpattern⟩ =>
        bind_of (hname.required (reads_text _)) <|
        bind_of (hpattern.required (ResourcePattern.reads h)) rfl
  | setTags name tags =>
    exact reads_case "set-tags" (fun _ => rfl) (fun _ => rfl) rfl
      (by decide) fun _ ⟨hname, htags⟩ =>
        bind_of (hname.required (reads_text _)) <|
        bind_of (htags.required (reads_textTable _)) rfl
  | setComment name comment =>
    exact reads_case "set-comment" (fun _ => rfl) (fun _ => rfl) rfl
      (by decide) fun _ ⟨hname, hcomment⟩ =>
        bind_of (hname.required (reads_text _)) <|
        bind_of (hcomment.required (reads_text _)) rfl
  | acquire place =>
    exact reads_case "acquire" (fun _ => rfl) (fun _ => rfl) rfl
      (by decide) fun _ hplace =>
        bind_of (hplace.required (reads_text _)) rfl
  | release place force =>
    exact reads_case "release" (fun _ => rfl) (fun _ => rfl) rfl
      (by decide) fun _ ⟨hplace, hforce⟩ =>
        bind_of (hplace.required (reads_text _)) <|
        bind_of (hforce.withDefault _ (reads_bool _)) rfl
  | createReservation filters priority =>
    exact reads_case "create-reservation" (fun _ => rfl) (fun _ => rfl) rfl
      (by decide) fun _ ⟨hfilters, hpriority⟩ =>
        bind_of (hfilters.required (reads_patterns h.1)) <|
        bind_of (hpriority.withDefault _ (reads_priority h.2)) rfl
  | cancelReservation id =>
    exact reads_case "cancel-reservation" (fun _ => rfl) (fun _ => rfl) rfl
      (by decide) fun _ hid => bind_of (hid.required (reads_text _)) rfl
  | pollReservation id =>
    exact reads_case "poll-reservation" (fun _ => rfl) (fun _ => rfl) rfl
      (by decide) fun _ hid => bind_of (hid.required (reads_text _)) rfl
  | subscribe lastEvent =>
    exact reads_case "subscribe" (fun _ => rfl) (fun _ => rfl) rfl
      (by decide) fun _ hlast =>
        bind_of (hlast.withDefault _
          (reads_optional fun _ _ => ⟨nofun, reads_word _⟩)) rfl
  | unsubscribe =>
    exact reads_bare "unsubscribe" (fun _ => rfl) (fun _ => rfl) (by decide)
  | snapshot =>
    exact reads_bare "snapshot" (fun _ => rfl) (fun _ => rfl) (by decide)

end Operation

-- =============================================================== replies

namespace Reply

/-- What an answer carries is proper. -/
def Proper : Reply → Prop
  | .places vs => ∀ v ∈ vs, v.Proper
  | .place v => v.Proper
  | .resources rs => ∀ r ∈ rs, r.Proper
  | .reservations rs => ∀ r ∈ rs, r.Proper
  | .reservation r => r.Proper
  | .sessions ss => ∀ s ∈ ss, s.Proper
  | .snapshot s => s.Proper
  | _ => True

/-- Each answer is told by its name, as an operation is. -/
theorem reads {r : Reply} (h : r.Proper) : Reads ofJson? r.json r := by
  cases r with
  | ack =>
    exact reads_bare "ack" (fun _ => rfl) (fun _ => rfl) (by decide)
  | registered session eventNumber =>
    exact reads_case "registered" (fun _ => rfl) (fun _ => rfl) rfl
      (by decide) fun _ ⟨hsession, hnumber⟩ =>
        bind_of (hsession.required (reads_word _)) <|
        bind_of (hnumber.required (reads_word _)) rfl
  | published changes =>
    exact reads_case "published" (fun _ => rfl) (fun _ => rfl) rfl
      (by decide) fun _ hchanges =>
        bind_of (hchanges.required (reads_word _)) rfl
  | places vs =>
    exact reads_case "places" (fun _ => rfl) (fun _ => rfl) rfl
      (by decide) fun _ hplaces =>
        bind_of (hplaces.required
          (reads_list fun v hv => PlaceView.reads (h v hv))) rfl
  | place v =>
    exact reads_case "place" (fun _ => rfl) (fun _ => rfl) rfl
      (by decide) fun _ hview =>
        bind_of (hview.required (PlaceView.reads h)) rfl
  | resources rs =>
    exact reads_case "resources" (fun _ => rfl) (fun _ => rfl) rfl
      (by decide) fun _ hresources =>
        bind_of (hresources.required
          (reads_list fun r hr => Resource.reads (h r hr))) rfl
  | reservations rs =>
    exact reads_case "reservations" (fun _ => rfl) (fun _ => rfl) rfl
      (by decide) fun _ hreservations =>
        bind_of (hreservations.required
          (reads_list fun r hr => Reservation.reads (h r hr))) rfl
  | reservation r =>
    exact reads_case "reservation" (fun _ => rfl) (fun _ => rfl) rfl
      (by decide) fun _ hreservation =>
        bind_of (hreservation.required (Reservation.reads h)) rfl
  | sessions ss =>
    exact reads_case "sessions" (fun _ => rfl) (fun _ => rfl) rfl
      (by decide) fun _ hsessions =>
        bind_of (hsessions.required
          (reads_list fun s hs => SessionInfo.reads (h s hs))) rfl
  | subscribed resync eventNumber =>
    exact reads_case "subscribed" (fun _ => rfl) (fun _ => rfl) rfl
      (by decide) fun _ ⟨hresync, hnumber⟩ =>
        bind_of (hresync.required (reads_bool _)) <|
        bind_of (hnumber.required (reads_word _)) rfl
  | snapshot s =>
    exact reads_case "snapshot" (fun _ => rfl) (fun _ => rfl) rfl
      (by decide) fun _ hsnapshot =>
        bind_of (hsnapshot.required (Snapshot.reads h)) rfl

end Reply

-- ================================================================ frames

def RequestFrame.Proper (f : RequestFrame) : Prop := f.request.Proper

/-- A request is a number and an operation. -/
theorem RequestFrame.reads {f : RequestFrame} (h : f.Proper) :
    Reads ofJson? f.json f :=
  reads_record (fun _ => rfl) rfl (by decide) fun _ ⟨hid, hrequest⟩ =>
    bind_of (hid.required (reads_word _)) <|
    bind_of (hrequest.required (Operation.reads h)) rfl

/-- A kind of refusal is one word out of a list. -/
theorem RefusalKind.reads (k : RefusalKind) : Reads ofJson? k.json k := by
  cases k <;> exact reads_choice (by decide)

namespace ServerFrame

/-- What a frame carries is proper. -/
def Proper : ServerFrame → Prop
  | .response _ answer => answer.Proper
  | .eventBatch events => ∀ e ∈ events, e.Proper
  | .resync s => s.Proper
  | .error .. | .shutdownRequest _ => True

/-- Each frame is told by its name, and answers and errors bear the
number of their request. -/
theorem reads {f : ServerFrame} (h : f.Proper) :
    Reads ofJson? f.json f := by
  cases f with
  | response id answer =>
    exact reads_case "response" (fun _ => rfl) (fun _ => rfl) rfl
      (by decide) fun _ ⟨hid, hreply⟩ =>
        bind_of (hid.required (reads_word _)) <|
        bind_of (hreply.required (Reply.reads h)) rfl
  | error id kind message =>
    exact reads_case "error" (fun _ => rfl) (fun _ => rfl) rfl
      (by decide) fun _ ⟨hid, hkind, hmessage⟩ =>
        bind_of (hid.required (reads_word _)) <|
        bind_of (hkind.required (RefusalKind.reads _)) <|
        bind_of (hmessage.required (reads_text _)) rfl
  | eventBatch events =>
    exact reads_case "event-batch" (fun _ => rfl) (fun _ => rfl) rfl
      (by decide) fun _ hevents =>
        bind_of (hevents.required
          (reads_list fun e he => Event.reads (h e he))) rfl
  | resync s =>
    exact reads_case "resync" (fun _ => rfl) (fun _ => rfl) rfl
      (by decide) fun _ hsnapshot =>
        bind_of (hsnapshot.required (Snapshot.reads h)) rfl
  | shutdownRequest reason =>
    exact reads_case "shutdown-request" (fun _ => rfl) (fun _ => rfl) rfl
      (by decide) fun _ hreason =>
        bind_of (hreason.required (reads_text _)) rfl

end ServerFrame

end LabLease
