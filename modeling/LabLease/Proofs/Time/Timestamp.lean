/-
A point in time comes out of its text, if it is one of the calendar and
its year has four digits. Every number in the text is filled up to its
width, so a reader that takes up to so many digits stops where the next
mark stands.
-/
import LabLease.Proofs.Number.Digits

namespace LabLease.Timestamp

/-- A day of the calendar in a year of four digits, and a time of that
day. Only in the last second of a minute can a leap second be. -/
structure InCalendar (t : Timestamp) : Prop where
  year : 0 ≤ t.year ∧ t.year ≤ 9999
  month : 1 ≤ t.month ∧ t.month ≤ 12
  day : 1 ≤ t.day ∧ t.day ≤ daysIn t.year t.month
  hour : t.hour < 24
  minute : t.minute < 60
  second : t.second < 60
  nanosecond : t.nanosecond < 1000000000
    ∨ t.second = 59 ∧ t.nanosecond < 2000000000

variable {width n : Nat} {rest : List Char}

-- =============================================================== numbers

theorem isBlank_of_isDigit {c : Char} (h : c.isDigit = true) :
    Text.isBlank c = false := by
  have hc : 48 ≤ c.toNat ∧ c.toNat ≤ 57 := by
    simpa [Char.isDigit, UInt32.le_iff_toNat_le] using h
  unfold Text.isBlank
  refine List.any_eq_false.2 fun r hr => ?_
  have hrange : ∀ r ∈ Text.blankRanges, r.2 < 48 ∨ 57 < r.1 := by decide
  have := hrange r hr
  rw [Bool.and_eq_true, decide_eq_true_eq, decide_eq_true_eq]
  omega

/-- A number that was filled up begins with a digit. -/
theorem padded_shape (hwidth : 0 < width) (h : n < tenTo width) :
    ∃ c cs, padded width n = c :: cs ∧ c.isDigit = true := by
  have hlen := length_padded hwidth h
  cases hp : padded width n with
  | nil =>
    rw [hp] at hlen
    exact absurd hlen.symm (Nat.ne_of_gt hwidth)
  | cons c cs =>
    exact ⟨c, cs, rfl, isDigit_of_mem_padded (hp ▸ List.mem_cons_self)⟩

theorem trimStart_padded (hwidth : 0 < width) (h : n < tenTo width)
    (rest : List Char) :
    Text.trimStart (padded width n ++ rest) = padded width n ++ rest := by
  obtain ⟨c, cs, hp, hdigit⟩ := padded_shape hwidth h
  rw [hp, List.cons_append]
  unfold Text.trimStart
  rw [List.dropWhile_cons_of_neg]
  rw [isBlank_of_isDigit hdigit]
  exact Bool.false_ne_true

theorem takeWhile_padded (width n : Nat)
    (hrest : ∀ c ∈ rest.head?, c.isDigit = false) :
    (padded width n ++ rest).takeWhile Char.isDigit = padded width n := by
  rw [List.takeWhile_append_of_pos fun c => isDigit_of_mem_padded]
  cases rest with
  | nil => exact List.append_nil _
  | cons c rest =>
    rw [List.takeWhile_cons_of_neg, List.append_nil]
    rw [hrest c rfl]
    exact Bool.false_ne_true

theorem isEmpty_padded (hwidth : 0 < width) (h : n < tenTo width) :
    (padded width n).isEmpty = false := by
  obtain ⟨c, cs, hp, -⟩ := padded_shape hwidth h
  rw [hp]
  rfl

/-- A number of just the width is read whatever stands behind it. -/
theorem readNumber_padded (hwidth : 0 < width) (h : n < tenTo width)
    (rest : List Char) :
    readNumber width (padded width n ++ rest) = some (n, rest) := by
  have hlen := length_padded hwidth h
  have htake : (padded width n ++ rest).take width = padded width n :=
    List.take_left' hlen
  have hdigits : (padded width n).takeWhile Char.isDigit
      = padded width n := by
    have h : (padded width n ++ []).takeWhile Char.isDigit = _ :=
      takeWhile_padded width n nofun
    rwa [List.append_nil] at h
  unfold readNumber
  rw [trimStart_padded hwidth h]
  dsimp only
  rw [htake, hdigits, isEmpty_padded hwidth h, natOf_padded,
    List.drop_left]
  rfl

theorem readNumber_pair (h : n < 100) (rest : List Char) :
    readNumber 2 (padded 2 n ++ rest) = some (n, rest) :=
  readNumber_padded (by decide) h rest

theorem readYear_padded (h : n < 10000) (rest : List Char) :
    readYear (padded 4 n ++ rest) = some ((n : Int), rest) := by
  have hread : readNumber 4 (padded 4 n ++ rest) = some (n, rest) :=
    readNumber_padded (by decide) h rest
  obtain ⟨c, cs, hp, hdigit⟩ : ∃ c cs, padded 4 n = c :: cs
      ∧ c.isDigit = true := padded_shape (by decide) h
  unfold readYear
  rw [trimStart_padded (by decide) h, hp, List.cons_append]
  rw [hp, List.cons_append] at hread
  split
  · next heq =>
    cases heq
    exact absurd hdigit (by decide)
  · next heq =>
    cases heq
    exact absurd hdigit (by decide)
  · rw [hread]
    rfl

-- ===================================================== parts of a second

theorem readFraction_padded (hwidth : 0 < width) (hnine : width ≤ 9)
    (h : n < tenTo width) :
    readFraction ('.' :: padded width n ++ ['Z'])
      = some (n * tenTo (9 - width), ['Z']) := by
  have hlen := length_padded hwidth h
  have htake : (padded width n).take 9 = padded width n :=
    List.take_of_length_le (Nat.le_trans (Nat.le_of_eq hlen) hnine)
  have hend : ∀ c ∈ ['Z'].head?, c.isDigit = false := by
    rintro c ⟨⟩
    rfl
  rw [List.cons_append, readFraction]
  dsimp only
  rw [takeWhile_padded width n hend,
    isEmpty_padded hwidth h, htake, natOf_padded, List.drop_left, hlen]
  rfl

/-- The places that are left out are zeros. -/
theorem readFraction_written (h : n < 1000000000) :
    readFraction (writeFraction n ++ ['Z']) = some (n, ['Z']) := by
  unfold writeFraction
  split
  · next hzero =>
    rw [hzero]
    rfl
  split
  · have hn : n / 1000000 * tenTo (9 - 3) = n := by
      show n / 1000000 * 1000000 = n
      omega
    have hlt : n / 1000000 < tenTo 3 := by
      show n / 1000000 < 1000
      omega
    rw [readFraction_padded (by decide) (by decide) hlt, hn]
  split
  · have hn : n / 1000 * tenTo (9 - 6) = n := by
      show n / 1000 * 1000 = n
      omega
    have hlt : n / 1000 < tenTo 6 := by
      show n / 1000 < 1000000
      omega
    rw [readFraction_padded (by decide) (by decide) hlt, hn]
  · rw [readFraction_padded (by decide) (by decide) h]
    show some (n * 1, _) = _
    rw [Nat.mul_one]

-- ================================================================= texts

/-- Nothing is added to a time that is UTC already. -/
theorem fromLocal_zero {t : Timestamp} (hhour : t.hour < 24)
    (hminute : t.minute < 60) : t.fromLocal 0 = t := by
  obtain ⟨year, month, day, hour, minute, second, nano⟩ := t
  dsimp only at hhour hminute
  have hin : ((hour : Int) * 60 + minute - 0) % 1440
      = ((hour * 60 + minute : Nat) : Int) := by omega
  unfold fromLocal
  dsimp only
  have hdiv : (hour * 60 + minute) / 60 = hour := by omega
  have hmod : (hour * 60 + minute) % 60 = minute := by omega
  rw [if_neg (by omega), if_neg (by omega), hin, Int.toNat_natCast, hdiv,
    hmod]

theorem readMark_self {c : Char} (h : Text.isBlank c = false)
    (s : List Char) : readMark c (c :: s) = some s := by
  unfold readMark Text.trimStart
  rw [List.dropWhile_cons_of_neg (ne_true_of_eq_false h)]
  exact if_pos rfl

theorem daysIn_le (year : Int) (month : Nat) : daysIn year month ≤ 31 := by
  unfold daysIn
  grind

/-- What is written for a second and its part, and how it is taken: the
sixtieth second is the last one and a thousand million nanoseconds. -/
theorem InCalendar.leap {t : Timestamp} (h : t.InCalendar) :
    ∃ second nano, t.render = writeYear t.year
        ++ '-' :: (padded 2 t.month ++ '-' :: (padded 2 t.day
        ++ 'T' :: (padded 2 t.hour ++ ':' :: (padded 2 t.minute
        ++ ':' :: (padded 2 second ++ (writeFraction nano ++ ['Z']))))))
      ∧ second ≤ 60 ∧ nano < 1000000000
      ∧ (if second = 60 then 59 else second) = t.second
      ∧ (if second = 60 then nano + 1000000000 else nano)
        = t.nanosecond := by
  have hsecond := h.second
  have hnano := h.nanosecond
  unfold render
  simp only [List.append_assoc, List.cons_append]
  split
  · next hleap =>
    refine ⟨t.second + 1, t.nanosecond - 1000000000, rfl, ?_⟩
    rw [if_pos (by omega), if_pos (by omega)]
    omega
  · next hleap =>
    refine ⟨t.second, t.nanosecond, rfl, ?_⟩
    rw [if_neg (by omega), if_neg (by omega)]
    omega

/-- A point in time comes out of its text. -/
theorem parse?_render {t : Timestamp} (h : t.InCalendar) :
    parse? t.render = some t := by
  obtain ⟨second, nano, htext, hsixty, hnano, hs, hn⟩ := h.leap
  have hyear := h.year
  have hmonth := h.month
  have hday := h.day
  have hdays := daysIn_le t.year t.month
  have hhour := h.hour
  have hminute := h.minute
  have hfour : writeYear t.year = padded 4 t.year.toNat := if_pos hyear
  have hoffset : readOffset (Text.trimStart ['Z']) = some (0, []) := rfl
  rw [htext, hfour]
  unfold parse?
  -- each reader takes one piece of the text and leaves what is behind it
  refine Option.bind_eq_some_iff.2 ⟨_, readYear_padded (by omega) _, ?_⟩
  rw [Int.toNat_of_nonneg hyear.1]
  refine Option.bind_eq_some_iff.2 ⟨_, readMark_self (by decide) _, ?_⟩
  refine Option.bind_eq_some_iff.2 ⟨_, readNumber_pair (by omega) _, ?_⟩
  refine Option.bind_eq_some_iff.2 ⟨_, readMark_self (by decide) _, ?_⟩
  refine Option.bind_eq_some_iff.2 ⟨_, readNumber_pair (by omega) _, ?_⟩
  refine Option.bind_eq_some_iff.2 ⟨_, readNumber_pair (by omega) _, ?_⟩
  refine Option.bind_eq_some_iff.2 ⟨_, readMark_self (by decide) _, ?_⟩
  refine Option.bind_eq_some_iff.2 ⟨_, readNumber_pair (by omega) _, ?_⟩
  refine Option.bind_eq_some_iff.2 ⟨_, readMark_self (by decide) _, ?_⟩
  refine Option.bind_eq_some_iff.2 ⟨_, readNumber_pair (by omega) _, ?_⟩
  refine Option.bind_eq_some_iff.2 ⟨_, readFraction_written hnano, ?_⟩
  refine Option.bind_eq_some_iff.2 ⟨_, hoffset, ?_⟩
  dsimp only
  rw [hs, hn, fromLocal_zero hhour hminute]
  have hrange : yearInRange t.year = true := by
    unfold yearInRange
    rw [Bool.and_eq_true, decide_eq_true_eq, decide_eq_true_eq]
    omega
  refine if_pos ?_
  simp only [Bool.and_eq_true, decide_eq_true_eq]
  refine ⟨⟨⟨⟨⟨⟨⟨⟨⟨⟨hrange, hmonth.1⟩, hmonth.2⟩, hday.1⟩, hday.2⟩, hhour⟩,
    hminute⟩, hsixty⟩, by decide⟩, rfl⟩, hrange⟩

end LabLease.Timestamp
