/-
What is encoded is decoded again, octet for octet, and the line feed and
the carriage return stand in the octets only for themselves.

The encoder makes one, two, three or four octets of a character, by the
size of its code point. A character that is decoded from a state between
characters leaves the decoder between characters again, and so a text is
decoded one character after the other.
-/
import Mathlib.Data.List.Basic
import LabLease.Text.Utf8

namespace LabLease.Text.Utf8

variable {c : Char} {s t : List Char} {b : Nat}

-- ================================================================ octets

/-- A code point is no surrogate and not above the last one. -/
theorem code_bounds (c : Char) :
    c.toNat < 0xD800 ∨ 0xDFFF < c.toNat ∧ c.toNat < 0x110000 := by
  rcases c.valid with h | h
  · exact Or.inl h
  · exact Or.inr h

theorem encode_cons (c : Char) (s : List Char) :
    encode (c :: s) = String.utf8EncodeChar c ++ encode s :=
  List.flatMap_cons

/-- The octets of a character that is not ASCII are not ASCII. -/
theorem mem_utf8EncodeChar {o : UInt8}
    (h : o ∈ String.utf8EncodeChar c) :
    (c.toNat ≤ 0x7F ∧ o.toNat = c.toNat) ∨ 0x80 ≤ o.toNat := by
  have hcode : c.val.toNat = c.toNat := rfl
  have hlast := code_bounds c
  unfold String.utf8EncodeChar at h
  simp only [hcode] at h
  split at h
  · next hone =>
    refine Or.inl ⟨hone, ?_⟩
    rw [List.mem_singleton.1 h, UInt8.toNat_ofNat']
    omega
  · refine Or.inr ?_
    split at h
    · simp only [List.mem_cons, List.not_mem_nil, or_false] at h
      rcases h with rfl | rfl <;> rw [UInt8.toNat_ofNat'] <;> omega
    · split at h
      · simp only [List.mem_cons, List.not_mem_nil, or_false] at h
        rcases h with rfl | rfl | rfl <;> rw [UInt8.toNat_ofNat'] <;> omega
      · simp only [List.mem_cons, List.not_mem_nil, or_false] at h
        rcases h with rfl | rfl | rfl | rfl <;> rw [UInt8.toNat_ofNat']
          <;> omega

/-- An octet of ASCII stands only for its own character. -/
theorem mem_of_mem_encode {o : UInt8} (ho : o.toNat < 0x80)
    (h : o ∈ encode s) : Char.ofNat o.toNat ∈ s := by
  obtain ⟨c, hc, hmem⟩ := List.mem_flatMap.1 h
  rcases mem_utf8EncodeChar hmem with ⟨-, heq⟩ | hhigh
  · rw [heq, Char.ofNat_toNat]
    exact hc
  · omega

/-- The octets of a text are as many as its size says. -/
theorem length_encode (s : List Char) :
    (encode s).length = (String.ofList s).utf8ByteSize := by
  simp [encode, String.utf8ByteSize, List.utf8Encode]

-- ============================================================== decoding

/-- The decoder between two characters. -/
def between (reversed : List Char) : State := ⟨reversed, none⟩

theorem feed_between (reversed : List Char) {b : Nat} (hb : b < 256) :
    (between reversed).feed (.ofNat b) = start reversed b := by
  unfold State.feed between
  dsimp only
  rw [UInt8.toNat_ofNat', Nat.mod_eq_of_lt hb]

/-- One more octet of a character: the last one. -/
theorem feed_last (reversed : List Char) {code low high b : Nat}
    (hb : b < 256) (hlow : low ≤ b) (hhigh : b ≤ high) :
    State.feed ⟨reversed, some ⟨code, 1, low, high⟩⟩ (.ofNat b)
      = between (Char.ofNat (code * 64 + b % 64) :: reversed) := by
  unfold State.feed
  dsimp only
  rw [UInt8.toNat_ofNat', Nat.mod_eq_of_lt hb, if_pos ⟨hlow, hhigh⟩,
    if_pos rfl]
  rfl

/-- One more octet of a character, and not the last one. -/
theorem feed_more (reversed : List Char) {code lacks low high b : Nat}
    (hb : b < 256) (hlow : low ≤ b) (hhigh : b ≤ high) :
    State.feed ⟨reversed, some ⟨code, lacks + 2, low, high⟩⟩ (.ofNat b)
      = ⟨reversed, some ⟨code * 64 + b % 64, lacks + 1, 0x80, 0xBF⟩⟩ := by
  unfold State.feed
  dsimp only
  rw [UInt8.toNat_ofNat', Nat.mod_eq_of_lt hb, if_pos ⟨hlow, hhigh⟩,
    if_neg (by omega)]
  rfl

/-- The octets of a character, one, two, three or four. -/
theorem feed_char (reversed : List Char) (c : Char) :
    (String.utf8EncodeChar c).foldl State.feed (between reversed)
      = between (c :: reversed) := by
  have hcode : c.val.toNat = c.toNat := rfl
  have hlast := code_bounds c
  -- the code point is put together again
  have hdone : ∀ n, n = c.toNat →
      between (Char.ofNat n :: reversed) = between (c :: reversed) := by
    rintro n rfl
    rw [Char.ofNat_toNat]
  unfold String.utf8EncodeChar
  simp only [hcode]
  split
  · next hone =>
    rw [List.foldl_cons, List.foldl_nil, feed_between _ (by omega)]
    unfold start
    rw [if_pos (by omega)]
    exact hdone _ rfl
  · next hone =>
    split
    · next htwo =>
      rw [List.foldl_cons, List.foldl_cons, List.foldl_nil,
        feed_between _ (by omega)]
      unfold start
      rw [if_neg (by omega), if_pos (by omega),
        feed_last _ (by omega) (by omega) (by omega)]
      exact hdone _ (by omega)
    · next htwo =>
      split
      · next hthree =>
        rw [List.foldl_cons, List.foldl_cons, List.foldl_cons,
          List.foldl_nil, feed_between _ (by omega)]
        unfold start
        rw [if_neg (by omega), if_neg (by omega), if_pos (by omega),
          feed_more _ (by omega) (by split <;> omega)
            (by split <;> omega),
          feed_last _ (by omega) (by omega) (by omega)]
        exact hdone _ (by omega)
      · next hthree =>
        rw [List.foldl_cons, List.foldl_cons, List.foldl_cons,
          List.foldl_cons, List.foldl_nil, feed_between _ (by omega)]
        unfold start
        rw [if_neg (by omega), if_neg (by omega), if_neg (by omega),
          if_pos (by omega),
          feed_more _ (by omega) (by split <;> omega)
            (by split <;> omega),
          feed_more _ (by omega) (by omega) (by omega),
          feed_last _ (by omega) (by omega) (by omega)]
        exact hdone _ (by omega)

theorem foldl_feed (reversed s : List Char) :
    (encode s).foldl State.feed (between reversed)
      = between (s.reverse ++ reversed) := by
  induction s generalizing reversed with
  | nil => rfl
  | cons c s ih =>
    rw [encode_cons, List.foldl_append, feed_char, ih, List.reverse_cons,
      List.append_assoc]
    rfl

/-- A text comes out of its octets. -/
theorem decode_encode (s : List Char) : decode (encode s) = s := by
  unfold decode
  rw [show ({} : State) = between [] from rfl, foldl_feed,
    List.append_nil]
  exact List.reverse_reverse s

-- ======================================================== broken streams

/-- An octet that starts no character and is none by itself. -/
def Continues (o : UInt8) : Prop := 0x80 ≤ o.toNat ∧ o.toNat < 0xC0

/-- Behind its first octet a character only continues. -/
theorem utf8EncodeChar_cons (c : Char) :
    ∃ o os, String.utf8EncodeChar c = o :: os ∧ ∀ o ∈ os, Continues o := by
  have hcontinues : ∀ n, n < 0x40 → Continues (.ofNat (n + 0x80)) := by
    intro n hn
    unfold Continues
    rw [UInt8.toNat_ofNat']
    omega
  unfold String.utf8EncodeChar
  simp only
  split
  · exact ⟨_, _, rfl, nofun⟩
  split
  · refine ⟨_, _, rfl, ?_⟩
    rw [List.forall_mem_singleton]
    exact hcontinues _ (by omega)
  split
  · refine ⟨_, _, rfl, ?_⟩
    rw [List.forall_mem_cons, List.forall_mem_singleton]
    exact ⟨hcontinues _ (by omega), hcontinues _ (by omega)⟩
  · refine ⟨_, _, rfl, ?_⟩
    rw [List.forall_mem_cons, List.forall_mem_cons,
      List.forall_mem_singleton]
    exact ⟨hcontinues _ (by omega), hcontinues _ (by omega),
      hcontinues _ (by omega)⟩

theorem suffix_start (reversed : List Char) (b : Nat) :
    reversed <:+ (start reversed b).reversed := by
  unfold start
  split
  · exact List.suffix_cons _ _
  split
  · exact List.suffix_rfl
  split
  · exact List.suffix_rfl
  split
  · exact List.suffix_rfl
  · exact List.suffix_cons _ _

/-- What has been decoded stays. -/
theorem suffix_feed (st : State) (o : UInt8) :
    st.reversed <:+ (st.feed o).reversed := by
  unfold State.feed
  split
  · exact suffix_start _ _
  · dsimp only
    split
    · split
      · exact List.suffix_cons _ _
      · exact List.suffix_rfl
    · exact (List.suffix_cons _ _).trans (suffix_start _ _)

theorem suffix_feeds (st : State) (octets : List UInt8) :
    st.reversed <:+ (octets.foldl State.feed st).reversed := by
  induction octets generalizing st with
  | nil => exact List.suffix_rfl
  | cons o octets ih => exact (suffix_feed st o).trans (ih _)

/-- A stream that does not begin with a character begins with what stands
for none. -/
theorem decode_continues {o : UInt8} (h : Continues o)
    (octets : List UInt8) :
    ∃ s, decode (o :: octets) = replacement :: s := by
  have hfirst : State.feed {} o = ⟨[replacement], none⟩ := by
    obtain ⟨hlow, hhigh⟩ := h
    show start [] o.toNat = _
    unfold start
    rw [if_neg (by omega), if_neg (by omega), if_neg (by omega),
      if_neg (by omega)]
  obtain ⟨before, hbefore⟩ := suffix_feeds ⟨[replacement], none⟩ octets
  unfold decode
  rw [List.foldl_cons, hfirst]
  unfold State.finish
  rw [← hbefore]
  split
  · rw [List.reverse_append]
    exact ⟨_, rfl⟩
  · rw [List.reverse_cons, List.reverse_append, List.append_assoc]
    exact ⟨_, rfl⟩

/-- The rest of a stream is the rest of the text, or begins with what
stands for no character. -/
theorem decode_suffix {octets : List UInt8} (h : octets <:+ encode s) :
    (∃ t, t <:+ s ∧ octets = encode t)
      ∨ ∃ t, decode octets = replacement :: t := by
  induction s with
  | nil =>
    have hnil : octets = [] := List.suffix_nil.1 h
    exact Or.inl ⟨[], List.suffix_rfl, hnil⟩
  | cons c s ih =>
    rw [encode_cons] at h
    rcases List.suffix_or_suffix_of_suffix h (List.suffix_append _ (encode s))
      with hrest | ⟨front, hfront⟩
    · rcases ih hrest with ⟨t, ht, heq⟩ | hbroken
      · exact Or.inl ⟨t, ht.trans (List.suffix_cons _ _), heq⟩
      · exact Or.inr hbroken
    · obtain ⟨gone, hgone⟩ := h
      obtain ⟨o, os, hchar, hos⟩ := utf8EncodeChar_cons c
      subst hfront
      rw [← List.append_assoc] at hgone
      have hsplit := List.append_cancel_right hgone
      cases gone with
      | nil =>
        rw [List.nil_append] at hsplit
        rw [hsplit, ← encode_cons]
        exact Or.inl ⟨c :: s, List.suffix_rfl, rfl⟩
      | cons g gone =>
        cases front with
        | nil => exact Or.inl ⟨s, List.suffix_cons _ _, rfl⟩
        | cons f front =>
          rw [hchar, List.cons_append] at hsplit
          have hf : f ∈ os := by
            rw [← (List.cons.inj hsplit).2]
            exact List.mem_append_right _ List.mem_cons_self
          exact Or.inr (decode_continues (hos f hf) _)

end LabLease.Text.Utf8
