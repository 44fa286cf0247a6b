/-
Lines out of a stream of octets: what a reader has kept of a line, what
it gives up of it, and what it yields at the line feed.

The reader is followed octet by octet. It counts what it has kept and
starts over when that gets too much, so a line is given up in pieces of
one octet more than the limit (`torn`) and only what stands behind the
last of them is ever seen (`left`). A line that is short enough, holds no
line feed and does not end in a carriage return comes out as it was put
in.

All of this takes a limit that leaves room for one octet more. At the
largest word there is none, and nothing is read at all
(`readAll_no_room`).
-/
import Mathlib.Data.List.DropRight
import LabLease.Proofs.Text.Utf8
import LabLease.Wire.Line

namespace LabLease.LineReader

section Pieces

variable {limit : Nat} {octets line : List UInt8}

-- ============================================================== what is left

/-- What is left of a line behind the pieces that are too long. -/
def left (limit : Nat) (line : List UInt8) : List UInt8 :=
  line.rtake (line.length % (limit + 1))

/-- The pieces of a line that are too long. -/
def torn (limit : Nat) (line : List UInt8) : List ReadLine :=
  .replicate (line.length / (limit + 1)) .tooLarge

/-- Octets without a carriage return at their end. -/
def chomp (octets : List UInt8) : List UInt8 :=
  if octets.getLast? = some carriageReturn then octets.dropLast
  else octets

theorem left_suffix (limit : Nat) (line : List UInt8) :
    left limit line <:+ line :=
  List.drop_suffix _ _

theorem length_left (limit : Nat) (line : List UInt8) :
    (left limit line).length = line.length % (limit + 1) := by
  unfold left List.rtake
  rw [List.length_drop]
  exact Nat.sub_sub_self (Nat.mod_le _ _)

theorem left_of_short (h : line.length ≤ limit) : left limit line = line := by
  unfold left List.rtake
  rw [Nat.mod_eq_of_lt (Nat.lt_succ_of_le h), Nat.sub_self, List.drop_zero]

theorem torn_of_short (h : line.length ≤ limit) : torn limit line = [] := by
  unfold torn
  rw [Nat.div_eq_of_lt (Nat.lt_succ_of_le h), List.replicate_zero]

/-- A piece that is too long leaves nothing behind. -/
theorem left_append {piece : List UInt8} (h : piece.length = limit + 1)
    (more : List UInt8) : left limit (piece ++ more) = left limit more := by
  have hless := Nat.mod_le more.length (limit + 1)
  unfold left List.rtake
  rw [List.length_append, h, Nat.add_mod_left, List.drop_append, h,
    List.drop_eq_nil_of_le (by omega), List.nil_append]
  congr 1
  omega

theorem torn_append {piece : List UInt8} (h : piece.length = limit + 1)
    (more : List UInt8) :
    torn limit (piece ++ more) = .tooLarge :: torn limit more := by
  unfold torn
  rw [List.length_append, h, Nat.add_div_left _ (Nat.succ_pos limit),
    List.replicate_succ]

theorem reverse_torn (limit : Nat) (line : List UInt8) :
    (torn limit line).reverse = torn limit line :=
  List.reverse_replicate ..

theorem chomp_of_kept (h : octets.getLast? ≠ some carriageReturn) :
    chomp octets = octets := if_neg h

/-- The reader strikes the same octet, which it has kept first. -/
theorem withoutReturn_reverse (octets : List UInt8) :
    withoutReturn octets.reverse = (chomp octets).reverse := by
  rcases List.eq_nil_or_concat octets with rfl | ⟨front, last, rfl⟩
  · rfl
  · unfold withoutReturn chomp
    rw [List.concat_eq_append, List.getLast?_append,
      List.dropLast_concat, List.reverse_append]
    by_cases h : last = carriageReturn <;> simp [h]

end Pieces

variable {limit : UInt64} {octets more line : List UInt8}

-- =================================================================== room

/-- The reader within a line of which it has kept some octets. -/
def within (limit : UInt64) (octets : List UInt8) : LineReader :=
  ⟨limit, octets.reverse, octets.length⟩

/-- There is room unless the sum of the limit and one is no word. -/
theorem room_eq_zero_iff (limit : UInt64) (octets : List UInt8) :
    (within limit octets).room = 0 ↔ ¬ limit.toNat + 1 < UInt64.size := by
  have hword := UInt64.toNat_lt_size limit
  have hsum : (within limit octets).room.toNat
      = (limit.toNat + 1) % UInt64.size := UInt64.toNat_add limit 1
  rw [← UInt64.toNat_inj, hsum, UInt64.toNat_zero]
  constructor
  · intro hzero hroom
    rw [Nat.mod_eq_of_lt hroom] at hzero
    cases hzero
  · intro hnone
    rw [show limit.toNat + 1 = UInt64.size by omega, Nat.mod_self]

-- ========================================================= octet by octet

/-- One octet after the other: the reader that is left, and what has been
yielded, last first, on top of what was there. -/
def feeds (state : LineReader × List ReadLine) (octets : List UInt8) :
    LineReader × List ReadLine :=
  octets.foldl (fun (r, out) b =>
    match r.feed b with
    | (r, some l) => (r, l :: out)
    | (r, none) => (r, out)) state

theorem feedAll_eq (r : LineReader) (octets : List UInt8) :
    r.feedAll octets
      = ((feeds (r, []) octets).1, (feeds (r, []) octets).2.reverse) :=
  rfl

theorem readAll_eq (limit : UInt64) (octets : List UInt8) :
    readAll limit octets
      = (feeds (within limit [], []) octets).2.reverse
        ++ (feeds (within limit [], []) octets).1.finish :=
  rfl

theorem feeds_cons (r : LineReader) (out : List ReadLine) (b : UInt8)
    (octets : List UInt8) :
    feeds (r, out) (b :: octets) = feeds (match r.feed b with
      | (r, some l) => (r, l :: out)
      | (r, none) => (r, out)) octets :=
  rfl

theorem feeds_append (state : LineReader × List ReadLine)
    (octets more : List UInt8) :
    feeds state (octets ++ more) = feeds (feeds state octets) more :=
  List.foldl_append

/-- What has been yielded before stays below. -/
theorem feeds_out (r : LineReader) (out : List ReadLine)
    (octets : List UInt8) :
    feeds (r, out) octets
      = ((feeds (r, []) octets).1, (feeds (r, []) octets).2 ++ out) := by
  induction octets generalizing r out with
  | nil => rfl
  | cons b octets ih =>
    rw [feeds_cons, feeds_cons]
    cases hfeed : r.feed b with
    | mk r' l =>
      cases l with
      | none => exact ih r' out
      | some l =>
        rw [ih r' (l :: out), ih r' [l], List.append_assoc]
        rfl

/-- Without room the octets go by. -/
theorem feeds_no_room (hnone : ¬ limit.toNat + 1 < UInt64.size)
    (kept : List UInt8) (out : List ReadLine) (octets : List UInt8) :
    feeds (within limit kept, out) octets = (within limit kept, out) := by
  induction octets with
  | nil => rfl
  | cons b octets ih =>
    have hfeed : (within limit kept).feed b = (within limit kept, none) :=
      if_pos ((room_eq_zero_iff limit kept).2 hnone)
    rw [feeds_cons, hfeed]
    exact ih

/-- A reader without room reads nothing, and does not say so. -/
theorem readAll_no_room (hnone : ¬ limit.toNat + 1 < UInt64.size)
    (octets : List UInt8) : readAll limit octets = [] := by
  rw [readAll_eq, feeds_no_room hnone]
  rfl

-- ================================================================== lines

/-- A line that a stream gives back. -/
structure Carries (limit : Nat) (line : List UInt8) : Prop where
  short : line.length ≤ limit
  whole : lineFeed ∉ line
  kept : line.getLast? ≠ some carriageReturn

/-- A text is a line of its own if it is not too long and nothing in it
breaks it. -/
theorem carries_text {s : String} {limit : Nat}
    (hshort : s.utf8ByteSize ≤ limit)
    (hfeed : '\n' ∉ s.toList) (hreturn : '\r' ∉ s.toList) :
    Carries limit (Text.Utf8.encode s.toList) := by
  refine ⟨?_, fun hmem => hfeed (Text.Utf8.mem_of_mem_encode (by decide) hmem),
    fun hlast => ?_⟩
  · rw [Text.Utf8.length_encode, String.ofList_toList]
    exact hshort
  · have hmem := List.mem_of_getLast? hlast
    exact hreturn (Text.Utf8.mem_of_mem_encode (by decide) hmem)

section Room

-- a reader that has room for one octet more than its limit
variable (hroom : limit.toNat + 1 < UInt64.size)
include hroom

theorem room_ne_zero (octets : List UInt8) :
    (within limit octets).room ≠ 0 :=
  fun hzero => (room_eq_zero_iff limit octets).1 hzero hroom

/-- At a line feed the reader starts over. -/
theorem feed_lineFeed (octets : List UInt8) :
    (within limit octets).feed lineFeed
      = (within limit [],
        some (.line (.ofList (Text.Utf8.decode (chomp octets))))) := by
  unfold feed
  rw [if_neg (room_ne_zero hroom octets), if_pos rfl]
  show (within limit [], some (lineOf (withoutReturn octets.reverse))) = _
  rw [withoutReturn_reverse]
  unfold lineOf
  rw [List.reverse_reverse]

/-- One octet more than the limit. -/
theorem feed_full {b : UInt8} (hb : b ≠ lineFeed)
    (h : limit.toNat ≤ octets.length) :
    (within limit octets).feed b = (within limit [], some .tooLarge) := by
  unfold feed
  rw [if_neg (room_ne_zero hroom octets), if_neg hb]
  exact if_pos h

/-- An octet within the limit. -/
theorem feed_kept {b : UInt8} (hb : b ≠ lineFeed)
    (h : octets.length < limit.toNat) :
    (within limit octets).feed b = (within limit (octets ++ [b]), none) := by
  unfold feed
  rw [if_neg (room_ne_zero hroom octets), if_neg hb]
  unfold within
  rw [if_neg (Nat.not_le.2 h), List.reverse_append, List.length_append]
  rfl

/-- Octets of which none is a line feed: what gets too long is given up,
and what is left is kept. -/
theorem feeds_unbroken (out : List ReadLine)
    (hshort : octets.length ≤ limit.toNat) (hwhole : lineFeed ∉ more) :
    feeds (within limit octets, out) more
      = (within limit (left limit.toNat (octets ++ more)),
        torn limit.toNat (octets ++ more) ++ out) := by
  induction more generalizing octets out with
  | nil =>
    rw [List.append_nil, left_of_short hshort, torn_of_short hshort]
    rfl
  | cons b more ih =>
    rw [List.mem_cons, not_or] at hwhole
    have hsplit : octets ++ b :: more = (octets ++ [b]) ++ more := by
      rw [List.append_assoc, List.singleton_append]
    have hlength : (octets ++ [b]).length = octets.length + 1 :=
      List.length_append
    rw [feeds_cons, hsplit]
    by_cases hfull : limit.toNat ≤ octets.length
    · have hpiece : (octets ++ [b]).length = limit.toNat + 1 := by omega
      have hnone : ([] : List UInt8).length ≤ limit.toNat := Nat.zero_le _
      rw [feed_full hroom (Ne.symm hwhole.1) hfull, left_append hpiece,
        torn_append hpiece]
      dsimp only
      rw [ih _ hnone hwhole.2, List.nil_append, ← List.singleton_append,
        ← List.append_assoc]
      unfold torn
      rw [← List.replicate_succ', List.replicate_succ]
    · rw [feed_kept hroom (Ne.symm hwhole.1) (Nat.lt_of_not_le hfull)]
      exact ih _ (by omega) hwhole.2

/-- Octets within the limit are kept. -/
theorem feeds_within (out : List ReadLine)
    (hshort : (octets ++ more).length ≤ limit.toNat)
    (hwhole : lineFeed ∉ more) :
    feeds (within limit octets, out) more
      = (within limit (octets ++ more), out) := by
  have hoctets : octets.length ≤ limit.toNat := by
    rw [List.length_append] at hshort
    omega
  rw [feeds_unbroken hroom out hoctets hwhole, left_of_short hshort,
    torn_of_short hshort]
  rfl

/-- The line feed yields what has come of the line. -/
theorem feeds_lineFeed (out : List ReadLine)
    (h : octets.getLast? ≠ some carriageReturn) :
    feeds (within limit octets, out) [lineFeed]
      = (within limit [],
        .line (.ofList (Text.Utf8.decode octets)) :: out) := by
  rw [feeds_cons, feed_lineFeed hroom, chomp_of_kept h]
  rfl

/-- A line and its line feed yield the line. -/
theorem feeds_line (out : List ReadLine)
    (h : Carries limit.toNat line) :
    feeds (within limit [], out) (line ++ [lineFeed])
      = (within limit [],
        .line (.ofList (Text.Utf8.decode line)) :: out) := by
  have hshort : ([] ++ line).length ≤ limit.toNat := h.short
  rw [feeds_append, feeds_within hroom out hshort h.whole,
    List.nil_append, feeds_lineFeed hroom out h.kept]

/-- And so do any number of them. -/
theorem feeds_lines {lines : List (List UInt8)} (out : List ReadLine)
    (h : ∀ line ∈ lines, Carries limit.toNat line) :
    feeds (within limit [], out) (lines.flatMap (· ++ [lineFeed]))
      = (within limit [], (lines.map fun line =>
          .line (.ofList (Text.Utf8.decode line))).reverse ++ out) := by
  induction lines generalizing out with
  | nil => rfl
  | cons line lines ih =>
    rw [List.flatMap_cons, feeds_append,
      feeds_line hroom out (h line List.mem_cons_self),
      ih _ fun l hl => h l (List.mem_cons_of_mem line hl),
      List.map_cons, List.reverse_cons, List.append_assoc]
    rfl

/-- A stream of lines yields these lines, and the reader has kept
nothing. -/
theorem feedAll_lines {lines : List (List UInt8)}
    (h : ∀ line ∈ lines, Carries limit.toNat line) :
    feedAll { limit } (lines.flatMap (· ++ [lineFeed]))
      = ({ limit }, lines.map fun line =>
          .line (.ofList (Text.Utf8.decode line))) := by
  rw [feedAll_eq]
  show ((feeds (within limit [], []) _).1,
    (feeds (within limit [], []) _).2.reverse) = _
  rw [feeds_lines hroom [] h, List.append_nil, List.reverse_reverse]
  rfl

/-- The same of texts. -/
theorem feedAll_texts {texts : List String}
    (h : ∀ s ∈ texts, s.utf8ByteSize ≤ limit.toNat ∧ '\n' ∉ s.toList
      ∧ '\r' ∉ s.toList) :
    feedAll { limit } (Text.Utf8.encode
        (texts.flatMap fun s => (s ++ "\n").toList))
      = ({ limit }, texts.map .line) := by
  have hoctets : Text.Utf8.encode
      (texts.flatMap fun s => (s ++ "\n").toList)
        = (texts.map fun s => Text.Utf8.encode s.toList).flatMap
          (· ++ [lineFeed]) := by
    rw [List.flatMap_map]
    unfold Text.Utf8.encode
    rw [List.flatMap_assoc]
    refine congrArg (fun f => texts.flatMap f) (funext fun s => ?_)
    rw [String.toList_append, List.flatMap_append]
    rfl
  rw [hoctets, feedAll_lines hroom, List.map_map]
  · refine congrArg _ (List.map_congr_left fun s _ => ?_)
    show ReadLine.line (.ofList (Text.Utf8.decode _)) = _
    rw [Text.Utf8.decode_encode, String.ofList_toList]
  · intro line hline
    obtain ⟨s, hs, rfl⟩ := List.mem_map.1 hline
    exact carries_text (h s hs).1 (h s hs).2.1 (h s hs).2.2

/-- Nothing comes after the lines. -/
theorem readAll_texts {texts : List String}
    (h : ∀ s ∈ texts, s.utf8ByteSize ≤ limit.toNat ∧ '\n' ∉ s.toList
      ∧ '\r' ∉ s.toList) :
    readAll limit (Text.Utf8.encode
        (texts.flatMap fun s => (s ++ "\n").toList))
      = texts.map .line := by
  unfold readAll
  rw [feedAll_texts hroom h]
  exact List.append_nil _

end Room

end LabLease.LineReader
