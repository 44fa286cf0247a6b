/-
What is sent arrives: frames that are written one after the other are
read as as many lines, and each line as the frame it was written from.

A text of JSON begins with a brace, ends with one and holds no control
character. So the lines are cut apart where they were put together, and
neither the end of a line nor white space around it takes anything away.
-/
import LabLease.Proofs.Refusal
import LabLease.Proofs.Wire.Frame
import LabLease.Proofs.Wire.Line

namespace LabLease

open Json

-- ================================================================= lines

/-- A value that a line can carry: its numbers are integers of 64 bits,
a reader can open all of its containers, and its text is no longer than a
frame may be. -/
structure FitsLine (v : Value) : Prop where
  plain : v.isPlain = true
  shallow : v.depth ≤ nestingLimit
  short : v.render.utf8ByteSize ≤ maxFrameSize.toNat

-- By the octets, since the kernel is slow to find the size of a text.
instance (v : Value) : Decidable (FitsLine v) :=
  decidable_of_iff (v.isPlain = true ∧ v.depth ≤ nestingLimit
      ∧ (Text.Utf8.encode (v.write [])).length ≤ maxFrameSize.toNat)
    ⟨fun ⟨hplain, hshallow, hshort⟩ =>
      ⟨hplain, hshallow, Text.Utf8.length_encode _ ▸ hshort⟩,
    fun h => ⟨h.plain, h.shallow, Text.Utf8.length_encode _ ▸ h.short⟩⟩

theorem Text.trimEnd_eq_self {d : Char} {s : List Char}
    (hlast : isBlank d = false) (hend : [d] <:+ s) : trimEnd s = s := by
  obtain ⟨before, hbefore⟩ := hend
  unfold trimEnd
  rw [← hbefore, List.reverse_append, List.reverse_singleton,
    List.singleton_append,
    List.dropWhile_cons_of_neg (ne_true_of_eq_false hlast),
    List.reverse_cons, List.reverse_reverse]

theorem Text.trim_eq_self {c d : Char} {s front : List Char}
    (hfront : s = c :: front) (hfirst : isBlank c = false)
    (hlast : isBlank d = false) (hend : [d] <:+ s) : trim s = s := by
  have hstart : trimStart s = s := by
    unfold trimStart
    rw [hfront, List.dropWhile_cons_of_neg (ne_true_of_eq_false hfirst)]
  unfold trim
  rw [hstart, trimEnd_eq_self hlast hend]

variable {α : Type} {read : Part → Option α} {v : Value} {x : α}
  {ms : List (String × Value)}

theorem Json.Value.toList_render (v : Value) :
    v.render.toList = v.write [] :=
  String.toList_ofList

/-- There is no white space around an object. -/
theorem trim_object (ms : List (String × Value)) :
    Text.trim ((Value.object ms).write []) = (Value.object ms).write [] := by
  have hend := Value.suffix_object ms []
  obtain ⟨s, hs⟩ : ∃ s, (Value.object ms).write [] = '\x7b' :: s := by
    cases ms <;> exact ⟨_, rfl⟩
  exact Text.trim_eq_self hs (by decide) (by decide) hend

/-- An object is read from the text of its line. -/
theorem parseFrame_render (hfits : FitsLine (.object ms))
    (hread : Reads read (.object ms) x) :
    parseFrame read (Value.object ms).render = .ok x := by
  have hholds : Part.Holds
      ⟨(Value.object ms).tree, .direct nestingLimit⟩ (.object ms) :=
    ⟨rfl, hfits.plain, hfits.shallow, fun room heq => by
      cases heq
      exact hfits.shallow⟩
  have hparse : parseAs read ((Value.object ms).write []) = some x :=
    bind_of (Tree.parse_written hfits.plain) (hread _ hholds)
  unfold parseFrame
  rw [if_neg (Nat.not_lt.2 hfits.short), Value.toList_render,
    trim_object, hparse]

/-- No line is broken within a text of JSON. -/
theorem render_unbroken (v : Value) :
    '\n' ∉ v.render.toList ∧ '\r' ∉ v.render.toList := by
  have hprint : Printable v.render.toList := by
    rw [v.toList_render]
    exact v.printable_write nofun
  exact ⟨fun hmem => absurd (hprint _ hmem) (by decide),
    fun hmem => absurd (hprint _ hmem) (by decide)⟩

/-- Nor within the octets that it is sent as. -/
theorem octets_unbroken (v : Value) :
    LineReader.lineFeed ∉ Text.Utf8.encode (v.write [])
      ∧ LineReader.carriageReturn ∉ Text.Utf8.encode (v.write []) := by
  have hunbroken := render_unbroken v
  rw [v.toList_render] at hunbroken
  exact ⟨fun hmem => hunbroken.1 (Text.Utf8.mem_of_mem_encode (by decide) hmem),
    fun hmem => hunbroken.2 (Text.Utf8.mem_of_mem_encode (by decide) hmem)⟩

/-- The octets that some frames are sent as. -/
def frameOctets (frames : List Value) : List UInt8 :=
  Text.Utf8.encode (frames.flatMap fun v => (frameLine v).toList)

theorem frameOctets_eq (frames : List Value) :
    frameOctets frames = Text.Utf8.encode
      ((frames.map Value.render).flatMap fun s => (s ++ "\n").toList) := by
  rw [List.flatMap_map]
  rfl

theorem short_of_fits {frames : List Value} (h : ∀ v ∈ frames, FitsLine v) :
    ∀ s ∈ frames.map Value.render, s.utf8ByteSize ≤ maxFrameSize.toNat
      ∧ '\n' ∉ s.toList ∧ '\r' ∉ s.toList := by
  intro s hs
  obtain ⟨v, hv, rfl⟩ := List.mem_map.1 hs
  exact ⟨(h v hv).short, render_unbroken v⟩

/-- Both peers' readers have room. -/
theorem maxFrameSize_room : maxFrameSize.toNat + 1 < UInt64.size := by
  decide

/-- Values that fit come as the lines they were sent as. -/
theorem feedAll_frames (frames : List Value)
    (h : ∀ v ∈ frames, FitsLine v) :
    LineReader.feedAll { limit := maxFrameSize } (frameOctets frames)
      = ({ limit := maxFrameSize }, frames.map fun v => .line v.render) := by
  rw [frameOctets_eq,
    LineReader.feedAll_texts maxFrameSize_room (short_of_fits h),
    List.map_map]
  rfl

theorem readAll_frames (frames : List Value)
    (h : ∀ v ∈ frames, FitsLine v) :
    LineReader.readAll maxFrameSize (Text.Utf8.encode
        (frames.flatMap fun v => (frameLine v).toList))
      = frames.map fun v => .line v.render := by
  refine (congrArg _ (frameOctets_eq frames)).trans ?_
  rw [LineReader.readAll_texts maxFrameSize_room (short_of_fits h),
    List.map_map]
  rfl

-- ================================================================ frames

theorem RequestFrame.parse_render {f : RequestFrame} (h : f.Proper)
    (hfits : FitsLine f.json) :
    parseFrame ofJson? f.json.render = .ok f :=
  parseFrame_render hfits (RequestFrame.reads h)

theorem ServerFrame.json_object (f : ServerFrame) :
    ∃ ms, f.json = .object ms := by
  cases f <;> exact ⟨_, rfl⟩

theorem ServerFrame.parse_render {f : ServerFrame} (h : f.Proper)
    (hfits : FitsLine f.json) :
    parseFrame ofJson? f.json.render = .ok f := by
  have hread := ServerFrame.reads h
  obtain ⟨ms, hms⟩ := f.json_object
  rw [hms] at hfits hread ⊢
  exact parseFrame_render hfits hread

/-- What a request came to: an answer that is proper, or a refusal that
is. -/
def ProperResult : Except Refusal Reply → Prop
  | .ok reply => reply.Proper
  | .error e => e.Proper

/-- The peer is told what its request came to. -/
theorem ofFrame_ofResult {r : Except Refusal Reply} (h : ProperResult r)
    (id : Nat) : Inbound.ofFrame (.ofResult id r) = .reply id r := by
  cases r with
  | ok reply => rfl
  | error e =>
    show Inbound.reply id (.error (.ofWire e.kind e.detail)) = _
    rw [Refusal.ofWire_kind_detail h]

theorem ProperResult.frame {r : Except Refusal Reply}
    (h : ProperResult r) (id : Nat) :
    (ServerFrame.ofResult id r).Proper := by
  cases r with
  | ok reply => exact h
  | error e => exact trivial

/-- Streams of requests and of answers arrive as they were sent, frame by
frame, with nothing between the lines and nothing behind the last one;
and whatever a request came to is what the peer is told. -/
theorem wire_round_trips :
    (∀ frames : List RequestFrame,
      (∀ f ∈ frames, f.Proper ∧ FitsLine f.json) →
      LineReader.readAll maxFrameSize (Text.Utf8.encode
          (frames.flatMap fun f => (frameLine f.json).toList))
        = frames.map (fun f => .line f.json.render)
      ∧ ∀ f ∈ frames,
        parseFrame RequestFrame.ofJson? f.json.render = .ok f)
    ∧ (∀ frames : List ServerFrame,
      (∀ f ∈ frames, f.Proper ∧ FitsLine f.json) →
      LineReader.readAll maxFrameSize (Text.Utf8.encode
          (frames.flatMap fun f => (frameLine f.json).toList))
        = frames.map (fun f => .line f.json.render)
      ∧ ∀ f ∈ frames,
        parseFrame ServerFrame.ofJson? f.json.render = .ok f)
    ∧ ∀ (id : Nat) (r : Except Refusal Reply), ProperResult r →
      FitsLine (ServerFrame.ofResult id r).json →
      (parseFrame ServerFrame.ofJson?
        (ServerFrame.ofResult id r).json.render).map Inbound.ofFrame
        = .ok (.reply id r) := by
  refine ⟨fun frames h => ⟨?_, fun f hf => ?_⟩,
    fun frames h => ⟨?_, fun f hf => ?_⟩, fun id r h hfits => ?_⟩
  · have hstream := readAll_frames (frames.map RequestFrame.json)
      fun v hv => by
        obtain ⟨f, hf, rfl⟩ := List.mem_map.1 hv
        exact (h f hf).2
    rwa [List.flatMap_map, List.map_map] at hstream
  · exact RequestFrame.parse_render (h f hf).1 (h f hf).2
  · have hstream := readAll_frames (frames.map ServerFrame.json)
      fun v hv => by
        obtain ⟨f, hf, rfl⟩ := List.mem_map.1 hv
        exact (h f hf).2
    rwa [List.flatMap_map, List.map_map] at hstream
  · exact ServerFrame.parse_render (h f hf).1 (h f hf).2
  · rw [ServerFrame.parse_render (h.frame id) hfits]
    exact congrArg Except.ok (ofFrame_ofResult h id)

/-- An exporter with marks in its name publishes a resource with free
parameters, and a client asks for it; the coordinator tells of the place
and that the events asked for are gone. -/
theorem wire_round_trips_bench :
    let any : Text.Glob := ⟨"*", [.anyRun], rfl⟩
    let rack : ResourcePattern := ⟨any, any, any, some any⟩
    let date : Timestamp := ⟨2024, 2, 29, 23, 59, 59, 1250000000⟩
    let bench : Place := { Place.new "bench" [rack] .empty date with
      holder := some ⟨"alice", 2⟩ }
    let params : Table String Value :=
      .ofList [("gain", .int (-3)), ("modes", .array [.null])]
    let asked : List RequestFrame :=
      [⟨1, .register "a \"rack\"\r\n\\ü" .exporter⟩,
       ⟨2, .setResources [⟨"rack", "cam", .other "Camera" params⟩]⟩,
       ⟨3, .createReservation [rack] (-5)⟩]
    let told : List ServerFrame :=
      [.eventBatch [⟨9, .place ⟨bench, [], []⟩⟩],
       .ofResult 3 (.error (.resyncRequired 7))]
    LineReader.readAll maxFrameSize (Text.Utf8.encode
          (asked.flatMap fun f => (frameLine f.json).toList))
        = asked.map (fun f => .line f.json.render)
      ∧ (∀ f ∈ asked,
        parseFrame RequestFrame.ofJson? f.json.render = .ok f)
      ∧ LineReader.readAll maxFrameSize (Text.Utf8.encode
          (told.flatMap fun f => (frameLine f.json).toList))
        = told.map (fun f => .line f.json.render)
      ∧ (∀ f ∈ told,
        parseFrame ServerFrame.ofJson? f.json.render = .ok f)
      ∧ (parseFrame ServerFrame.ofJson? (ServerFrame.ofResult 3
          (.error (.resyncRequired 7))).json.render).map Inbound.ofFrame
        = .ok (.reply 3 (.error (.resyncRequired 7))) := by
  intro any rack date bench params asked told
  have hrack : rack.Written := ⟨"*/*/*/*", by decide +kernel⟩
  have hdate : date.InCalendar := by constructor <;> decide
  have hfits : (∀ f ∈ asked, FitsLine f.json)
      ∧ ∀ f ∈ told, FitsLine f.json := by decide +kernel
  have hplain : ∀ m ∈ [rack], m.Written :=
    List.forall_mem_singleton.2 hrack
  have hparams : ∀ e ∈ params.entries, e.2.isOrdered = true := by
    decide +kernel
  have hasked : asked.Forall RequestFrame.Proper :=
    ⟨trivial, List.forall_mem_singleton.2 hparams, hplain,
      by decide, by decide⟩
  have htold : told.Forall ServerFrame.Proper :=
    ⟨List.forall_mem_singleton.2 ⟨hplain, hdate, hdate⟩, trivial⟩
  rw [List.forall_iff_forall_mem] at hasked htold
  have ⟨hrequests, hanswers, hresults⟩ := wire_round_trips
  have ⟨hasking, hreadAsked⟩ :=
    hrequests asked fun f hf => ⟨hasked f hf, hfits.1 f hf⟩
  have ⟨htelling, hreadTold⟩ :=
    hanswers told fun f hf => ⟨htold f hf, hfits.2 f hf⟩
  have hresult := hresults 3 (.error (.resyncRequired 7))
    (show 7 < twoTo 64 by decide) (by decide +kernel)
  exact ⟨hasking, hreadAsked, htelling, hreadTold, hresult⟩

end LabLease
