/-
What a peer takes of the frames that it is sent.

A frame is written whole, whatever its size. A reader takes no line that is
longer than the limit, and opens no more containers than there is room for;
both hold for the coordinator and for its peers. But a frame puts what it
carries under containers of its own and beside other things, so what came
in within these limits need not be within them on its way out
(`nested_params_passed_over`).

A frame that does not fit costs nothing but itself: a peer passes over it
and takes all others, in order (`peers_take_what_fits`).
-/
import LabLease.Proofs.Client.Link
import LabLease.Proofs.Server.Content
import LabLease.Proofs.Wire.Heading
import LabLease.Proofs.Wire.Stream

namespace LabLease

open Json
open Client (Arrival Link)
open Server

-- ============================================================= one frame

/-- The frame that a line from the coordinator is. -/
def ReadLine.frame? : ReadLine → Option ServerFrame
  | .line s => (parseFrame ServerFrame.ofJson? s).toOption
  | .tooLarge => none

theorem ReadLine.isJson_of_frame? {l : ReadLine} {f : ServerFrame}
    (h : l.frame? = some f) : l.isJson = true := by
  cases l with
  | tooLarge => cases h
  | line s =>
    unfold frame? at h
    dsimp only at h
    cases hparse : parseFrame ServerFrame.ofJson? s with
    | error fault =>
      rw [hparse] at h
      cases h
    | ok g => exact isJson_of_parseFrame hparse

namespace ServerFrame

variable {f g : ServerFrame}

/-- No more is read than there is room for. -/
theorem depth_le_of_ofJson? {room : Nat}
    (h : ofJson? ⟨f.json.tree, .direct room⟩ = some g) :
    f.json.depth ≤ room := by
  obtain ⟨ms, hms⟩ := f.json_object
  rw [hms] at h ⊢
  obtain ⟨r, hvariant, -⟩ := Option.bind_eq_some_iff.1 h
  exact Part.depth_le_of_variant hvariant

/-- A frame that is read from its line fits. -/
theorem fits_of_parse (hplain : f.json.isPlain = true)
    (h : parseFrame ofJson? f.json.render = .ok g) : FitsLine f.json := by
  have hshort : f.json.render.utf8ByteSize ≤ maxFrameSize.toNat := by
    unfold parseFrame at h
    split at h
    · cases h
    · next hle => exact Nat.not_lt.1 hle
  obtain ⟨ms, hms⟩ := f.json_object
  rw [hms] at h
  obtain ⟨t, htree, hread⟩ := tree_of_parseFrame h
  rw [← hms, Tree.parse_written hplain] at htree
  cases htree
  exact ⟨hplain, depth_le_of_ofJson? hread, hshort⟩

theorem frame?_render (h : f.Proper) (hplain : f.json.isPlain = true) :
    (ReadLine.line f.json.render).frame?
      = if FitsLine f.json then some f else none := by
  unfold ReadLine.frame?
  dsimp only
  split
  · next hfits =>
    rw [parse_render h hfits]
    rfl
  · next hlarge =>
    cases hparse : parseFrame ofJson? f.json.render with
    | error fault => rfl
    | ok g => exact absurd (fits_of_parse hplain hparse) hlarge

end ServerFrame

-- =============================================================== streams

namespace LineReader

variable {f : ServerFrame}

/-- A frame and its line feed: what the reader yields of it is that frame
if it fits, and no frame otherwise. -/
theorem feeds_fitting (h : f.Proper) (hplain : f.json.isPlain = true)
    (out : List ReadLine) :
    ∃ pieces, feeds (within maxFrameSize [], out)
        (Text.Utf8.encode (f.json.write []) ++ [lineFeed])
          = (within maxFrameSize [], pieces ++ out)
      ∧ pieces.reverse.filterMap ReadLine.frame?
        = if FitsLine f.json then [f] else [] := by
  have hframe := ServerFrame.frame?_render h hplain
  split
  · next hfits =>
    obtain ⟨hfeed, hreturn⟩ := render_unbroken f.json
    rw [if_pos hfits] at hframe
    refine ⟨[.line f.json.render], ?_, ?_⟩
    · rw [← f.json.toList_render, feeds_line maxFrameSize_room out
          (carries_text hfits.short hfeed hreturn),
        Text.Utf8.decode_encode, String.ofList_toList]
      rfl
    · rw [List.reverse_singleton, List.filterMap_cons_some hframe]
      rfl
  · next hlarge =>
    rw [if_neg hlarge] at hframe
    obtain ⟨ms, hms⟩ := f.json_object
    rw [hms] at hframe ⊢
    obtain ⟨pieces, hfeeds, hjson⟩ := feeds_frame maxFrameSize_room ms out
    refine ⟨pieces, hfeeds, List.filterMap_eq_nil_iff.2 fun l hl => ?_⟩
    -- a frame would be JSON, and what is JSON is the line that was written
    cases hl' : l.frame? with
    | none => rfl
    | some g =>
      have hmem := hjson.subset (List.mem_filter.2
        ⟨hl, ReadLine.isJson_of_frame? hl'⟩)
      rw [List.mem_singleton.1 hmem, hframe] at hl'
      cases hl'

theorem feeds_all_fitting {frames : List ServerFrame}
    (h : ∀ f ∈ frames, f.Proper ∧ f.json.isPlain = true)
    (out : List ReadLine) :
    ∃ pieces, feeds (within maxFrameSize [], out)
        (frameOctets (frames.map ServerFrame.json))
          = (within maxFrameSize [], pieces ++ out)
      ∧ pieces.reverse.filterMap ReadLine.frame?
        = frames.filter fun f => FitsLine f.json := by
  induction frames generalizing out with
  | nil => exact ⟨[], rfl, rfl⟩
  | cons f frames ih =>
    rw [List.forall_mem_cons] at h
    obtain ⟨pieces, hframe, hone⟩ := feeds_fitting h.1.1 h.1.2 out
    obtain ⟨more, hrest, hall⟩ := ih h.2 (pieces ++ out)
    refine ⟨more ++ pieces, ?_, ?_⟩
    · rw [List.map_cons, frameOctets_cons, feeds_append, hframe, hrest,
        List.append_assoc]
    · rw [List.reverse_append, List.filterMap_append, hone, hall,
        List.filter_cons]
      split
      · next hfits => rw [if_pos (decide_eq_true hfits)]; rfl
      · next hlarge => rw [if_neg (by simpa using hlarge)]; rfl

/-- Of a stream of frames a reader yields those that fit. -/
theorem feedAll_fitting {frames : List ServerFrame}
    (h : ∀ f ∈ frames, f.Proper ∧ f.json.isPlain = true) :
    (feedAll { limit := maxFrameSize }
        (frameOctets (frames.map ServerFrame.json))).2.filterMap
          ReadLine.frame?
      = frames.filter fun f => FitsLine f.json := by
  obtain ⟨pieces, hfeeds, hall⟩ := feeds_all_fitting h []
  rw [feedAll_eq]
  show (feeds (within maxFrameSize [], []) _).2.reverse.filterMap _ = _
  rw [hfeeds, List.append_nil]
  exact hall

end LineReader

-- ================================================================ pushes

/-- The push that a frame carries. -/
def ServerFrame.push? (f : ServerFrame) : Option Push :=
  match Inbound.ofFrame f with
  | .push p => some p
  | .reply .. => none

/-- The push that has arrived. -/
def Client.Arrival.push? : Arrival → Option Push
  | .push p => some p
  | .answer .. | .ignored => none

namespace Client.Link

theorem push?_receiveFrame (l : Link) (f : ServerFrame) :
    (l.receiveFrame f).1.push? = f.push? := by
  unfold receiveFrame ServerFrame.push?
  cases Inbound.ofFrame f with
  | push p => rfl
  | reply id r =>
    dsimp only
    cases l.waiting.get? id <;> rfl

theorem push?_receive (l : Link) (line : ReadLine) :
    (l.receive line).1.push? = line.frame?.bind ServerFrame.push? := by
  cases line with
  | tooLarge => rfl
  | line s =>
    unfold receive ReadLine.frame?
    dsimp only
    cases hparse : parseFrame ServerFrame.ofJson? s with
    | error fault => rfl
    | ok f => exact l.push?_receiveFrame f

/-- What arrives unasked is what the frames carry that the lines are. -/
theorem run_pushes (l : Link) (lines : List ReadLine) :
    (l.run (lines.map .take)).2.1.filterMap Arrival.push?
      = (lines.filterMap ReadLine.frame?).filterMap ServerFrame.push? := by
  induction lines generalizing l with
  | nil => rfl
  | cons line lines ih =>
    have hone := l.push?_receive line
    show List.filterMap Arrival.push? ((l.receive line).1
      :: ((l.receive line).2.run (lines.map .take)).2.1) = _
    rw [List.filterMap_cons, hone, ih]
    cases hframe : line.frame? with
    | none =>
      rw [List.filterMap_cons_none hframe]
      rfl
    | some f =>
      rw [List.filterMap_cons_some hframe, List.filterMap_cons]
      rfl

end Client.Link

-- ================================================== an event that is lost

/-- A value of nested lists, so many of them. -/
def Json.Value.nested : Nat → Value
  | 0 => .null
  | n + 1 => .array [nested n]

theorem Json.Value.nested_ordered (n : Nat) :
    (nested n).isOrdered = true := by
  induction n with
  | zero => rfl
  | succ n ih => exact isOrdered_array.2 (List.forall_mem_singleton.2 ih)

namespace DeepNesting

open Switchboard (framesTo_run_cons receive_register receive_request)

/-- Free parameters that nest so deep. -/
def params (n : Nat) : ResourceParams :=
  .other "Blob" (.ofList [("x", .nested n)])

/-- A resource with such parameters is published. -/
def publishes (n : Nat) : RequestFrame :=
  ⟨2, .setResources [⟨"io", "led", params n⟩]⟩

/-- What would be said of a text that is no request. -/
def cause (_ : String) : String := "expected value at line 1 column 1"

/-- What is asked for, and by whom: an exporter publishes the resource,
and a client follows the events. -/
def requests (n : Nat) : List (Nat × RequestFrame) :=
  [(0, ⟨1, .register "bench" .exporter⟩),
   (1, ⟨1, .register "alice" .client⟩),
   (1, ⟨2, .subscribe none⟩),
   (0, publishes n)]

def noon : Moment := ⟨0, ⟨2024, 1, 1, 12, 0, 0, 0⟩⟩

/-- All of that comes in, and at last the coordinator shuts down. The
client has taken its answers before. -/
def inputs (n : Nat) : List Switchboard.Input :=
  [.accept 0, .accept 1]
    ++ (requests n).map (fun r =>
      .receive r.1 noon (frameOctets [r.2.json]))
    ++ [.sent 1, .flush noon, .shutdown, .sent 1, .flush noon]

/-- What the client is told of the resource. -/
def event (n : Nat) : Event :=
  ⟨1, .resource {
    id := ⟨"bench", "io", "Blob", "led"⟩
    params := params n
    acquired := false
    version := 1 }⟩

/-- What the client is sent. -/
def sent (n : Nat) : List ServerFrame :=
  [.response 1 (.registered 2 0), .response 2 (.subscribed true 0),
   .resync ⟨0, [], [], []⟩, .eventBatch [event n],
   .shutdownRequest "coordinator shutting down"]

theorem inputs_inCalendar (n : Nat) : ∀ i ∈ inputs n, i.InCalendar := by
  have hnoon : noon.date.InCalendar := by constructor <;> decide
  have hall : (inputs n).Forall (·.InCalendar) :=
    ⟨trivial, trivial, hnoon, hnoon, hnoon, hnoon, trivial, hnoon, trivial,
      trivial, hnoon⟩
  exact List.forall_iff_forall_mem.1 hall

theorem requests_fit : ∀ r ∈ requests 121, FitsLine r.2.json := by
  decide +kernel

theorem publishes_proper (n : Nat) : (publishes n).Proper :=
  List.forall_mem_singleton.2
    (List.forall_mem_singleton.2 (Value.nested_ordered n))

-- the coordinator after each of the requests

def bench : Coordinator.Hub :=
  let hub := Coordinator.Hub.new {}
  (hub.register "bench" .exporter hub.mailboxCapacity noon).2

def alice : Coordinator.Hub :=
  (bench.register "alice" .client bench.mailboxCapacity noon).2

def followed : Coordinator.Hub := (alice.call 2 (.subscribe none) noon).2

def published (n : Nat) : Coordinator.Hub :=
  (followed.call 1 (publishes n).request noon).2

theorem framesTo_inputs :
    framesTo 1 ((Switchboard.new {} cause).run (inputs 121)).1 = sent 121 := by
  let serving (session : SessionId) : Port :=
    { connection := .serving session, busy := true }
  let b : Switchboard := ((Switchboard.new {} cause).accept 0).accept 1
  let b₁ : Switchboard := ⟨bench, b.ports.insert 0 (serving 1), cause⟩
  let b₂ : Switchboard := ⟨alice, b₁.ports.insert 1 (serving 2), cause⟩
  let b₃ : Switchboard :=
    ⟨followed, b₂.ports.insert 1 (serving 2), cause⟩
  let b₄ : Switchboard :=
    ⟨published 121, b₃.ports.insert 0 (serving 1), cause⟩
  have hfits := requests_fit
  simp only [requests, List.forall_mem_cons] at hfits
  obtain ⟨hbench, halice, hfollows, hpublishes, -⟩ := hfits
  have hfirst : (b.hub.register "bench" .exporter b.hub.mailboxCapacity
      noon).1 = .ok (1, 0) := by decide +kernel
  have hsecond : (bench.register "alice" .client bench.mailboxCapacity
      noon).1 = .ok (2, 0) := by decide +kernel
  have h₁ : b.step _ = (_, b₁) := receive_register 0 noon rfl hbench hfirst
  have h₂ : b₁.step _ = (_, b₂) :=
    receive_register 1 noon rfl halice hsecond
  have h₃ : b₂.step _ = (_, b₃) :=
    receive_request (f := ⟨2, .subscribe none⟩) 1 noon rfl trivial hfollows
      nofun
  have h₄ : b₃.step _ = (_, b₄) :=
    receive_request (f := publishes 121) 0 noon rfl (publishes_proper 121)
      hpublishes nofun
  have hrest : framesTo 1 (b₄.run [.sent 1, .flush noon, .shutdown, .sent 1,
      .flush noon]).1 = (sent 121).drop 2 := by decide +kernel
  have hopen : (Switchboard.new {} cause).step (.accept 0) = ([], _) := rfl
  have hboth : ((Switchboard.new {} cause).accept 0).step (.accept 1)
      = ([], b) := rfl
  unfold inputs requests
  simp only [List.map_cons, List.map_nil, List.cons_append, List.nil_append]
  rw [framesTo_run_cons hopen, framesTo_run_cons hboth,
    framesTo_run_cons h₁, framesTo_run_cons h₂, framesTo_run_cons h₃,
    framesTo_run_cons h₄, hrest]
  decide +kernel

theorem sent_plain : ∀ f ∈ sent 121, f.json.isPlain = true := by
  decide +kernel

/-- All that fits of it: the events are missing. -/
theorem sent_fitting : ((sent 121).filter fun f => FitsLine f.json)
    = [.response 1 (.registered 2 0), .response 2 (.subscribed true 0),
      .resync ⟨0, [], [], []⟩,
      .shutdownRequest "coordinator shutting down"] := by
  decide +kernel

end DeepNesting

-- ========================================================== what is taken

open DeepNesting

/-- Of the frames that the coordinator sends to a peer, whatever comes in
on all of its connections, the peer takes those that fit, in order and as
they were written, and passes over all others. So the pushes that arrive
on a link are those of the frames that fit, whatever else it waits for.
The clock has to show days of the calendar, and the frames must not hold
other numbers than integers of 64 bits. -/
theorem peers_take_what_fits (settings : Coordinator.Settings)
    (cause : String → String) (inputs : List Switchboard.Input) (peer : Nat)
    (htime : ∀ i ∈ inputs, i.InCalendar) :
    let sent := framesTo peer ((Switchboard.new settings cause).run inputs).1
    let lines := (LineReader.feedAll { limit := maxFrameSize }
      (frameOctets (sent.map ServerFrame.json))).2
    let taken := sent.filter fun f => FitsLine f.json
    (∀ f ∈ sent, f.json.isPlain = true) →
      lines.filterMap ReadLine.frame? = taken
      ∧ ∀ l : Link, (l.run (lines.map .take)).2.1.filterMap Arrival.push?
        = taken.filterMap ServerFrame.push? := by
  intro sent lines taken hplain
  have hproper := Switchboard.framesTo_proper settings cause htime peer
  have htaken : lines.filterMap ReadLine.frame? = taken :=
    LineReader.feedAll_fitting fun f hf => ⟨hproper f hf, hplain f hf⟩
  refine ⟨htaken, fun l => ?_⟩
  rw [l.run_pushes, htaken]

/-- The client takes the frames around the one that nests too deep. -/
theorem peers_take_what_fits_around :
    let told := framesTo 1 ((Switchboard.new {} cause).run (inputs 121)).1
    let lines := (LineReader.feedAll { limit := maxFrameSize }
      (frameOctets (told.map ServerFrame.json))).2
    (∀ i ∈ inputs 121, i.InCalendar)
      ∧ (∀ f ∈ told, f.json.isPlain = true)
      ∧ lines.filterMap ReadLine.frame?
        = [.response 1 (.registered 2 0), .response 2 (.subscribed true 0),
          .resync ⟨0, [], [], []⟩,
          .shutdownRequest "coordinator shutting down"]
      ∧ (({} : Link).run (lines.map .take)).2.1.filterMap Arrival.push?
        = [.resync ⟨0, [], [], []⟩,
          .shutdown "coordinator shutting down"] := by
  intro told lines
  have htold : told = sent 121 := framesTo_inputs
  have hplain : ∀ f ∈ told, f.json.isPlain = true := htold ▸ sent_plain
  have htaken : (told.filter fun f => FitsLine f.json) = _ :=
    (congrArg (List.filter _) htold).trans sent_fitting
  obtain ⟨hlines, hpushes⟩ :=
    peers_take_what_fits {} cause (inputs 121) 1 (inputs_inCalendar 121)
      hplain
  refine ⟨inputs_inCalendar 121, hplain, hlines.trans htaken, ?_⟩
  unfold lines told
  rw [hpushes]
  exact congrArg (List.filterMap ServerFrame.push?) htaken

/-- An exporter publishes a resource with free parameters that nest as deep
as the coordinator reads, in a line that is not long. A client that
follows the events is told so, and cannot read it: the line nests deeper
by one container. -/
theorem nested_params_passed_over :
    let told := framesTo 1 ((Switchboard.new {} cause).run (inputs 121)).1
    let lines := (LineReader.feedAll { limit := maxFrameSize }
      (frameOctets (told.map ServerFrame.json))).2
    (∀ r ∈ requests 121,
        r.2.json.render.utf8ByteSize ≤ maxFrameSize.toNat)
      ∧ .eventBatch [event 121] ∈ told
      ∧ .eventBatch [event 121] ∉ lines.filterMap ReadLine.frame?
      ∧ ∀ l : Link, .events [event 121]
        ∉ (l.run (lines.map .take)).2.1.filterMap Arrival.push? := by
  intro told lines
  have htold : told = sent 121 := framesTo_inputs
  have hproper :=
    Switchboard.framesTo_proper {} cause (inputs_inCalendar 121) 1
  have hplain : ∀ f ∈ told, f.json.isPlain = true := htold ▸ sent_plain
  have htaken : lines.filterMap ReadLine.frame? = _ :=
    (LineReader.feedAll_fitting fun f hf => ⟨hproper f hf, hplain f hf⟩).trans
      ((congrArg (List.filter _) htold).trans sent_fitting)
  refine ⟨fun r hr => (requests_fit r hr).short, ?_, ?_, fun l => ?_⟩
  · rw [htold]
    decide +kernel
  · rw [htaken]
    decide +kernel
  · rw [l.run_pushes, htaken]
    decide +kernel

end LabLease
