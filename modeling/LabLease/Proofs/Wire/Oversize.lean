/-
A frame that is longer than a reader takes is lost, and nothing else is:
no piece of it is taken for a frame, and what is read behind it is what
would have been read without it.

The line of a frame is given up from its front, and the rest of it may
begin anywhere: within a string that a peer has chosen, behind a
backslash, within a character. No such rest is a text of JSON
(`isJson_left`), so none is a frame.
-/
import LabLease.Proofs.Client.Link
import LabLease.Proofs.Wire.Splitting
import LabLease.Proofs.Wire.Stream

namespace LabLease

open Json Text.Utf8 Client

namespace LineReader

variable {limit : UInt64} {ms : List (String × Value)}

/-- What a reader yields of the line of an object. -/
theorem readAll_object (hroom : limit.toNat + 1 < UInt64.size)
    (ms : List (String × Value)) :
    readAll limit (encode ((Value.object ms).write []) ++ [lineFeed])
      = torn limit.toNat (encode ((Value.object ms).write []))
        ++ [.line (.ofList (decode (left limit.toNat
            (encode ((Value.object ms).write [])))))] := by
  obtain ⟨hwhole, hreturn⟩ := octets_unbroken (.object ms)
  have hkept : (left limit.toNat
      (encode ((Value.object ms).write []))).getLast?
        ≠ some carriageReturn := fun hlast =>
    hreturn ((left_suffix _ _).subset (List.mem_of_getLast? hlast))
  rw [readAll_ended hroom hwhole]
  unfold ended
  rw [chomp_of_kept hkept]

/-- If the line is too long, nothing of that is JSON. -/
theorem isJson_oversized
    (h : limit.toNat < (encode ((Value.object ms).write [])).length)
    {l : ReadLine} (hl : l ∈ readAll limit
      (encode ((Value.object ms).write []) ++ [lineFeed])) :
    l.isJson = false := by
  by_cases hroom : limit.toNat + 1 < UInt64.size
  case neg =>
    rw [readAll_no_room hroom] at hl
    cases hl
  rw [readAll_object hroom] at hl
  rcases List.mem_append.1 hl with htorn | hlast
  · rw [List.eq_of_mem_replicate htorn]
    rfl
  · rw [List.mem_singleton.1 hlast]
    rcases isJson_left limit.toNat ms with hall | hrest
    · have hshort :=
        length_left_le limit.toNat (encode ((Value.object ms).write []))
      rw [hall] at hshort
      omega
    · exact hrest

end LineReader

namespace Client.Link

/-- What is no JSON is passed over. -/
theorem receive_of_not_json (l : Link) {line : ReadLine}
    (h : line.isJson = false) : l.receive line = (.ignored, l) := by
  cases line with
  | tooLarge => rfl
  | line s =>
    unfold receive
    dsimp only
    cases hparse : parseFrame ServerFrame.ofJson? s with
    | error fault => rfl
    | ok g =>
      rw [isJson_of_parseFrame hparse] at h
      cases h

/-- And so is any number of such lines. -/
theorem run_of_not_json (l : Link) {front : List ReadLine}
    (h : ∀ line ∈ front, line.isJson = false) (back : List ReadLine) :
    l.run ((front ++ back).map .take)
      = ((l.run (back.map .take)).1,
        front.map (fun _ => .ignored) ++ (l.run (back.map .take)).2.1,
        (l.run (back.map .take)).2.2) := by
  induction front with
  | nil => rfl
  | cons line front ih =>
    rw [List.forall_mem_cons] at h
    rw [List.cons_append, List.map_cons, run, l.receive_of_not_json h.1]
    dsimp only
    rw [ih h.2]
    rfl

end Client.Link

/-- A frame in a line of its own. -/
theorem frameOctets_singleton (v : Value) :
    frameOctets [v] = encode (v.write []) ++ [LineReader.lineFeed] := by
  rw [LineReader.frameOctets_cons]
  exact List.append_nil _

/-- A frame that is longer than the limit of a reader is followed by what
would have been read without it, nothing that the reader yields of its own
octets is taken for a frame, and a peer does with the whole stream what it
does with the rest of it. -/
theorem oversized_passed_over (f : ServerFrame) (limit : UInt64)
    (more : List UInt8) (h : limit.toNat < f.json.render.utf8ByteSize) :
    let own := LineReader.readAll limit (frameOctets [f.json])
    let others := LineReader.readAll limit more
    LineReader.readAll limit (frameOctets [f.json] ++ more) = own ++ others
      ∧ (∀ s, .line s ∈ own →
          ∃ fault, parseFrame ServerFrame.ofJson? s = .error fault)
      ∧ ∀ l : Link, l.run ((own ++ others).map .take)
          = ((l.run (others.map .take)).1,
            own.map (fun _ => .ignored) ++ (l.run (others.map .take)).2.1,
            (l.run (others.map .take)).2.2) := by
  intro own others
  obtain ⟨ms, hobject⟩ := f.json_object
  have hlong : limit.toNat
      < (encode ((Value.object ms).write [])).length := by
    rw [← hobject, length_encode]
    exact h
  have hown : ∀ l ∈ own, l.isJson = false := by
    intro l hl
    unfold own at hl
    rw [frameOctets_singleton, hobject] at hl
    exact LineReader.isJson_oversized hlong hl
  refine ⟨?_, fun s hs => ?_, fun l => l.run_of_not_json hown others⟩
  · unfold own others
    rw [frameOctets_singleton, List.append_assoc, List.singleton_append]
    exact LineReader.readAll_lineFeed limit _ more
  · cases hparse : parseFrame ServerFrame.ofJson? s with
    | error fault => exact ⟨fault, rfl⟩
    | ok g =>
      have hjson := hown _ hs
      rw [isJson_of_parseFrame hparse] at hjson
      cases hjson

/-- A reason that is the text of a frame, of which the reader is left with
just that text, and another frame behind it. -/
theorem oversized_passed_over_nested :
    let nested :=
      "\x7b\"type\":\"shutdown-request\",\"reason\":\"\"\x7d"
    let f := ServerFrame.shutdownRequest ("going down now: " ++ nested)
    let next := ServerFrame.shutdownRequest "now"
    let rest := "\x7b\\\"type\\\":\\\"shutdown-request\\\","
      ++ "\\\"reason\\\":\\\"\\\"\x7d\"\x7d"
    (52 : UInt64).toNat < f.json.render.utf8ByteSize
      ∧ LineReader.readAll 52 (frameOctets [f.json])
        = [.tooLarge, .line rest]
      ∧ (∃ fault, parseFrame ServerFrame.ofJson? rest = .error fault)
      ∧ LineReader.readAll 52 (frameOctets [f.json, next.json])
        = [.tooLarge, .line rest, .line next.json.render]
      ∧ ∀ l : Link, ∃ arrivals,
        (l.run ([.tooLarge, .line rest, .line next.json.render].map
          .take)).2.1 = .ignored :: .ignored :: arrivals := by
  intro nested f next rest
  have hlong : (52 : UInt64).toNat < f.json.render.utf8ByteSize := by
    unfold Value.render
    rw [← length_encode]
    decide +kernel
  have hown : LineReader.readAll 52 (frameOctets [f.json])
      = [.tooLarge, .line rest] := by
    decide +kernel
  have hnext : LineReader.readAll 52 (frameOctets [next.json])
      = [.line next.json.render] := by
    decide +kernel
  obtain ⟨hread, hnone, hlink⟩ := oversized_passed_over f 52
    (frameOctets [next.json]) hlong
  rw [hown, hnext] at hread hlink
  rw [hown] at hnone
  refine ⟨hlong, hown,
    hnone rest (List.mem_cons_of_mem _ List.mem_cons_self), ?_, fun l => ?_⟩
  · rw [LineReader.frameOctets_cons, ← frameOctets_singleton]
    exact hread
  · exact ⟨_, congrArg (·.2.1) (hlink l)⟩

end LabLease
