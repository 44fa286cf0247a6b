/-
Frames in a stream that is read while it is written, whatever their size.

A frame that is longer than a reader takes comes in pieces: the reader
says that there was too much, and what is left of the line comes as a line
of its own. No such rest is the text of a frame (`isJson_rest`), since no
rest of an object is a text of JSON. So of the lines that a reader yields
those that are JSON at all are, in order, lines that were written
(`feedAll_frames`).
-/
import LabLease.Proofs.Json.Balance
import LabLease.Proofs.Wire.RoundTrip

namespace LabLease

open Json Text.Utf8

-- ================================================================= rests

/-- Whether a line is a text of JSON. -/
def ReadLine.isJson : ReadLine → Bool
  | .line s => (Tree.parse (Text.trim s.toList)).isSome
  | .tooLarge => false

/-- What is read as a frame is JSON. -/
theorem isJson_of_parseFrame {α : Type} {read : Part → Option α}
    {s : String} {x : α} (h : parseFrame read s = .ok x) :
    (ReadLine.line s).isJson = true := by
  unfold parseFrame at h
  split at h
  · cases h
  · split at h
    · next y hread =>
      obtain ⟨t, htree, -⟩ := Option.bind_eq_some_iff.1 hread
      unfold ReadLine.isJson
      dsimp only
      rw [htree]
      rfl
    · cases h

theorem Text.trim_cons {c : Char} (h : isBlank c = false)
    (s : List Char) : trim (c :: s) = c :: trimEnd s := by
  have hstart : trimStart (c :: s) = c :: s :=
    List.dropWhile_cons_of_neg (ne_true_of_eq_false h)
  have hend : [c].dropWhile isBlank = [c] :=
    List.dropWhile_cons_of_neg (ne_true_of_eq_false h)
  unfold trim trimEnd
  rw [hstart, List.reverse_cons, List.dropWhile_append, hend]
  split
  · next hempty =>
    rw [List.isEmpty_iff.1 hempty]
    rfl
  · rw [List.reverse_append]
    rfl

/-- A text that begins with what stands for no character is not JSON. -/
theorem parse_replacement (s : List Char) :
    Tree.parse (Text.trim (replacement :: s)) = none := by
  have hnone : ∀ fuel s, readValue fuel (replacement :: s) = none := by
    intro fuel s
    cases fuel with
    | zero => rfl
    | succ fuel =>
      rw [readValue, skipSpace_cons rfl]
      rfl
  rw [Text.trim_cons rfl]
  unfold Tree.parse
  rw [hnone]

/-- A rest of an object without the white space around it is a rest of
it. -/
theorem trim_suffix {ms : List (String × Value)} {t : List Char}
    (h : t <:+ (Value.object ms).write []) : Text.trim t <:+ t := by
  have hstart : Text.trimStart t <:+ t := List.dropWhile_suffix _
  have hend : Text.trimEnd (Text.trimStart t) = Text.trimStart t := by
    by_cases hempty : Text.trimStart t = []
    · rw [hempty]
      rfl
    · have hbrace := Value.suffix_object ms []
      refine Text.trimEnd_eq_self (d := '\x7d') (by decide) ?_
      refine List.suffix_of_suffix_length_le hbrace (hstart.trans h) ?_
      exact List.length_pos_iff.2 hempty
  unfold Text.trim
  rw [hend]
  exact hstart

/-- No rest of the line of an object is JSON. -/
theorem isJson_rest {ms : List (String × Value)} {front back : List UInt8}
    (heq : encode ((Value.object ms).write []) = front ++ back)
    (hfront : front ≠ []) :
    (ReadLine.line (.ofList (decode back))).isJson = false := by
  unfold ReadLine.isJson
  dsimp only
  rw [String.toList_ofList]
  rcases decode_suffix ⟨front, heq.symm⟩ with ⟨t, ht, rfl⟩ | ⟨t, ht⟩
  · rw [decode_encode]
    obtain ⟨gone, hgone⟩ := (trim_suffix ht).trans ht
    refine Option.isSome_eq_false_iff.2 (Option.isNone_iff_eq_none.2
      (parse_rest hgone.symm ?_))
    rintro rfl
    -- nothing would be gone of the octets
    have htrim := (trim_suffix ht).length_le
    rw [← List.nil_append (Text.trim t), hgone] at htrim
    rw [ht.eq_of_length_le htrim] at heq
    exact hfront (List.self_eq_append_left.1 heq)
  · rw [ht, parse_replacement]
    rfl

namespace LineReader

/-- Nothing of what is too long is JSON. -/
theorem filter_torn (limit : Nat) (line : List UInt8) :
    (torn limit line).reverse.filter ReadLine.isJson = [] := by
  refine List.filter_eq_nil_iff.2 fun l hl => ?_
  rw [List.eq_of_mem_replicate (List.mem_reverse.1 hl)]
  exact Bool.false_ne_true

/-- What is left of the line of an object is all of it, or is not JSON. -/
theorem isJson_left (limit : Nat) (ms : List (String × Value)) :
    left limit (encode ((Value.object ms).write []))
        = encode ((Value.object ms).write [])
      ∨ (ReadLine.line (.ofList (decode (left limit
          (encode ((Value.object ms).write [])))))).isJson = false := by
  obtain ⟨gone, hgone⟩ :=
    left_suffix limit (encode ((Value.object ms).write []))
  cases gone with
  | nil => exact Or.inl hgone
  | cons o gone =>
    exact Or.inr (isJson_rest hgone.symm (List.cons_ne_nil o gone))

/-- A frame and its line feed: of what the reader yields at most the frame
itself is JSON. -/
theorem feeds_frame {limit : UInt64}
    (hroom : limit.toNat + 1 < UInt64.size) (ms : List (String × Value))
    (out : List ReadLine) :
    ∃ pieces, feeds (within limit [], out)
        (encode ((Value.object ms).write []) ++ [lineFeed])
          = (within limit [], pieces ++ out)
      ∧ (pieces.reverse.filter ReadLine.isJson).Sublist
        [.line (Value.object ms).render] := by
  obtain ⟨hwhole, hreturn⟩ := octets_unbroken (.object ms)
  have hlast : (left limit.toNat
      (encode ((Value.object ms).write []))).getLast?
        ≠ some carriageReturn := fun hlast =>
    hreturn ((left_suffix _ _).subset (List.mem_of_getLast? hlast))
  have hnone : ([] : List UInt8).length ≤ limit.toNat := Nat.zero_le _
  refine ⟨.line (.ofList (decode (left limit.toNat
      (encode ((Value.object ms).write [])))))
    :: torn limit.toNat (encode ((Value.object ms).write [])), ?_, ?_⟩
  · rw [feeds_append, feeds_unbroken hroom out hnone hwhole,
      List.nil_append, feeds_lineFeed hroom _ hlast]
    rfl
  · rw [List.reverse_cons, List.filter_append, filter_torn,
      List.nil_append]
    rcases isJson_left limit.toNat ms with hwhole | hrest
    · rw [hwhole, decode_encode]
      exact List.filter_sublist
    · rw [List.filter_cons_of_neg (by rw [hrest]; exact Bool.false_ne_true)]
      exact List.nil_sublist _

theorem frameOctets_cons (v : Value) (frames : List Value) :
    frameOctets (v :: frames)
      = encode (v.write []) ++ [lineFeed] ++ frameOctets frames := by
  unfold frameOctets encode frameLine
  rw [List.flatMap_cons, List.flatMap_append, String.toList_append,
    List.flatMap_append, Value.toList_render]
  rfl

/-- Some of a stream of frames: what the reader yields of it that is JSON
are frames of it. -/
theorem feeds_frames {limit : UInt64}
    (hroom : limit.toNat + 1 < UInt64.size) {frames : List Value}
    {read : List UInt8}
    (hobject : ∀ v ∈ frames, ∃ ms, v = .object ms)
    (h : read <+: frameOctets frames) (out : List ReadLine) :
    ∃ kept pieces, feeds (within limit [], out) read
          = (within limit kept, pieces ++ out)
      ∧ (pieces.reverse.filter ReadLine.isJson).Sublist
        (frames.map fun v => .line v.render) := by
  induction frames generalizing read out with
  | nil =>
    rw [List.prefix_nil.1 h]
    exact ⟨[], [], rfl, List.Sublist.refl _⟩
  | cons v frames ih =>
    rw [List.forall_mem_cons] at hobject
    obtain ⟨⟨ms, rfl⟩, hobject⟩ := hobject
    rw [frameOctets_cons] at h
    have hsplit : read <+: encode ((Value.object ms).write [])
        ∨ encode ((Value.object ms).write []) ++ [lineFeed] <+: read := by
      rcases List.prefix_or_prefix_of_prefix h (List.prefix_append _ _) with
        hwithin | hthrough
      · rcases List.prefix_concat_iff.1 hwithin with rfl | hwithin
        · exact Or.inr List.prefix_rfl
        · exact Or.inl hwithin
      · exact Or.inr hthrough
    rcases hsplit with hwithin | ⟨read', rfl⟩
    · have hwhole : lineFeed ∉ read := fun hmem =>
        (octets_unbroken (.object ms)).1 (hwithin.subset hmem)
      have hnone : ([] : List UInt8).length ≤ limit.toNat := Nat.zero_le _
      refine ⟨_, _, feeds_unbroken hroom out hnone hwhole, ?_⟩
      rw [filter_torn]
      exact List.nil_sublist _
    · -- the frame is through, and the rest is read as a stream of its own
      obtain ⟨pieces, hframe, hone⟩ := feeds_frame hroom ms out
      obtain ⟨kept, more, hmore, hrest⟩ := ih hobject
        ((List.prefix_append_right_inj _).1 h) (pieces ++ out)
      refine ⟨kept, more ++ pieces, ?_, ?_⟩
      · rw [feeds_append, hframe, hmore, List.append_assoc]
      · rw [List.reverse_append, List.filter_append]
        exact hone.append hrest

/-- Of the lines that a reader has yielded of a stream of frames, those
that are JSON are frames of it, in order. -/
theorem feedAll_frames_json {limit : UInt64}
    (hroom : limit.toNat + 1 < UInt64.size) {frames : List Value}
    {read : List UInt8}
    (hobject : ∀ v ∈ frames, ∃ ms, v = .object ms)
    (h : read <+: frameOctets frames) :
    ((feedAll { limit } read).2.filter ReadLine.isJson).Sublist
      (frames.map fun v => .line v.render) := by
  obtain ⟨kept, pieces, hfeeds, hjson⟩ :=
    feeds_frames hroom hobject h []
  rw [feedAll_eq]
  show ((feeds (within limit [], []) read).2.reverse.filter _).Sublist _
  rw [hfeeds, List.append_nil]
  exact hjson

end LineReader

end LabLease
