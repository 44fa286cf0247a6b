/-
A written value is read as its tree, with what stands behind it left
over, and no control character is ever written.

A value is written in front of a text and leaves that as it is
(`Value.suffix_write`). The reader takes a token of fuel for each value
and each item. A value is at least one character long, and so is the mark
behind each item, so twice the length of the text is enough.
-/
import LabLease.Json.Writer
import LabLease.Proofs.Json.Value
import LabLease.Proofs.Number.Shortest

namespace LabLease.Json

variable {rest : List Char} {c : Char}

/-- What may stand behind a written value. -/
def Ends (rest : List Char) : Prop :=
  ∀ c ∈ rest.head?, c = ',' ∨ c = ']' ∨ c = '\x7d'

/-- The end of the text is one place where a value may end. -/
theorem Ends.nil : Ends [] := nofun

theorem Ends.cons (h : c = ',' ∨ c = ']' ∨ c = '\x7d') : Ends (c :: rest) := by
  intro d hd
  cases hd
  exact h

/-- Nothing is skipped in front of a character. -/
theorem skipSpace_cons (h : isSpace c = false) (s : List Char) :
    skipSpace (c :: s) = c :: s :=
  List.dropWhile_cons_of_neg (by rw [h]; exact Bool.false_ne_true)

-- =============================================================== numbers

/-- No digit stands behind a written value, so a number ends where it was
written. -/
theorem isDigit_of_ends (h : Ends rest) (c : Char) (hc : c ∈ rest.head?) :
    c.isDigit = false := by
  rcases h c hc with rfl | rfl | rfl <;> decide

/-- Digits are read up to where something else stands. -/
theorem readDigits_append {ds : List Char}
    (hds : ∀ c ∈ ds, c.isDigit = true)
    (hrest : ∀ c ∈ rest.head?, c.isDigit = false) :
    readDigits (ds ++ rest) = (ds.map digitValue, rest) := by
  have hstop : rest.takeWhile Char.isDigit = []
      ∧ rest.dropWhile Char.isDigit = rest := by
    cases rest with
    | nil => exact ⟨rfl, rfl⟩
    | cons c rest =>
      have hc := hrest c rfl
      exact ⟨by simp [hc], by simp [hc]⟩
  unfold readDigits
  rw [List.takeWhile_append_of_pos hds, List.dropWhile_append_of_pos hds,
    hstop.1, hstop.2, List.append_nil]

/-- No point stands there either. -/
theorem readFraction_of_ends (h : Ends rest) :
    readFraction rest = some ([], rest) := by
  unfold readFraction
  split
  · rcases h '.' rfl with h | h | h <;> cases h
  · rfl

/-- Nor the letter of an exponent. -/
theorem readExponent_of_ends (h : Ends rest) :
    readExponent rest = some (none, rest) := by
  cases rest with
  | nil => rfl
  | cons c rest =>
    unfold readExponent
    refine if_neg ?_
    rcases h c rfl with rfl | rfl | rfl <;> decide

/-- Digits that were written are one, or do not begin with a zero. -/
theorem digits_shape (n : Nat) :
    ∃ c cs, Nat.toDigits 10 n = c :: cs ∧ c.isDigit = true
      ∧ (cs = [] ∨ digitValue c ≠ 0) := by
  cases hds : Nat.toDigits 10 n with
  | nil => exact absurd hds Nat.toDigits_ne_nil
  | cons c cs =>
    have hc : c.isDigit = true :=
      isDigit_of_mem_toDigits (hds ▸ List.mem_cons_self)
    refine ⟨c, cs, rfl, hc, ?_⟩
    rcases Nat.eq_zero_or_pos n with rfl | hpos
    · rw [Nat.toDigits_zero] at hds
      exact Or.inl (List.cons.inj hds).2.symm
    · refine Or.inr fun hzero => toDigits_ne_zero_cons hpos cs ?_
      rw [hds]
      congr 1
      -- a digit of no value is a zero
      rw [Char.isDigit, Bool.and_eq_true, decide_eq_true_eq,
        decide_eq_true_eq] at hc
      refine Char.ext (UInt32.toNat_inj.1 ?_)
      have hle : 48 ≤ c.val.toNat := hc.1
      have hval : c.val.toNat - 48 = 0 := hzero
      show c.val.toNat = 48
      omega

/-- The rest of a number behind its sign. -/
def readUnsigned (negative : Bool) (s : List Char) :
    Option (Numeral × List Char) :=
  let (whole, s) := readDigits s
  match whole with
  | [] => none
  | 0 :: _ :: _ => none
  | _ => do
    let (fraction, s) ← readFraction s
    let (exponent, s) ← readExponent s
    return (⟨negative, whole, fraction, exponent⟩, s)

/-- A number without a minus is not negative. -/
theorem readNumeral_of_ne (h : c ≠ '-') (s : List Char) :
    readNumeral (c :: s) = readUnsigned false (c :: s) := by
  unfold readNumeral
  split
  next negative s' heq =>
    split at heq
    · next hs => exact absurd (List.cons.inj hs).1 h
    · cases heq
      rfl

/-- Written digits are read as they are, for a zero in front of others is
never written. -/
theorem readUnsigned_digits (negative : Bool) (n : Nat)
    (hrest : Ends rest) :
    readUnsigned negative (Nat.toDigits 10 n ++ rest)
      = some (⟨negative, (Nat.toDigits 10 n).map digitValue, [], none⟩,
          rest) := by
  obtain ⟨c, cs, hds, -, hshape⟩ := digits_shape n
  unfold readUnsigned
  rw [readDigits_append (fun c hc => isDigit_of_mem_toDigits hc)
    (isDigit_of_ends hrest), hds, List.map_cons]
  dsimp only
  split
  · next heq => cases heq
  · next heq =>
    obtain ⟨hzero, hcs⟩ := List.cons.inj heq
    rcases hshape with rfl | hne
    · cases hcs
    · exact absurd hzero hne
  · rw [readFraction_of_ends hrest, Option.bind_eq_bind, Option.bind_some]
    dsimp only
    rw [readExponent_of_ends hrest]
    rfl

/-- An integer is read as the numeral that it was written as. -/
theorem readNumeral_integer (n : Int) (hrest : Ends rest) :
    readNumeral (writeInteger n rest) = some (.ofInt n, rest) := by
  cases n with
  | ofNat n =>
    obtain ⟨c, cs, hds, hc, -⟩ := digits_shape n
    have hminus : c ≠ '-' := by
      rintro rfl
      cases hc
    have hread := readUnsigned_digits false n hrest
    show readNumeral (Nat.toDigits 10 n ++ rest)
      = some (⟨false, (Nat.toDigits 10 n).map digitValue, [], none⟩, rest)
    rw [hds, List.cons_append] at hread ⊢
    rw [readNumeral_of_ne hminus, hread]
  | negSucc n => exact readUnsigned_digits true (n + 1) hrest

-- =============================================================== strings

/-- A digit of a code is read as it was written. -/
theorem hexValue?_hexDigit {n : Nat} (h : n < 16) :
    hexValue? (hexDigit n) = some n := by
  decide +revert

/-- A character comes out of its escape. -/
theorem readString_escape (g : Gathered) (c : Char) (s : List Char) :
    readString g (escape c ++ s) = readString (g.char c) s := by
  unfold escape
  split
  · next h => subst h; rfl
  split
  · next h => subst h; rfl
  split
  · next h => subst h; rfl
  split
  · next h => subst h; rfl
  split
  · next h => subst h; rfl
  split
  · next h => subst h; rfl
  split
  · next h => subst h; rfl
  split
  · next h =>
    have hunit : unit? '0' '0' (hexDigit (c.toNat / 16))
        (hexDigit (c.toNat % 16)) = some c.toNat := by
      unfold unit?
      rw [hexValue?_hexDigit (by omega), hexValue?_hexDigit (by omega)]
      show some _ = _
      congr 1
      omega
    have hchar : g.unit c.toNat = g.char c := by
      unfold Gathered.unit
      rw [if_neg (by omega), if_neg (by omega), Char.ofNat_toNat]
    simp only [List.cons_append, List.nil_append]
    rw [readString, hunit]
    exact congrArg (readString · s) hchar
  · next hquote hslash _ _ _ _ _ hctl =>
    rw [List.singleton_append, readString.eq_def]
    split
    · next heq => exact absurd (List.cons.inj heq).1 hquote
    · next heq => exact absurd (List.cons.inj heq).1 hslash
    · next heq => exact absurd (List.cons.inj heq).1 hslash
    · next heq =>
      cases heq
      exact if_neg fun h => h.elim hctl hslash
    · next heq => cases heq

/-- A string is read up to its closing quote, which is escaped wherever
else it stands. -/
theorem readString_escapes (g : Gathered) (cs rest : List Char) :
    readString g (cs.flatMap escape ++ '"' :: rest)
      = some ((cs.foldl .char g).result, rest) := by
  induction cs generalizing g with
  | nil => rfl
  | cons c cs ih =>
    rw [List.flatMap_cons, List.append_assoc, readString_escape, ih]
    rfl

/-- Characters that are gathered one by one are the string. -/
theorem result_chars (cs before : List Char) :
    (cs.foldl .char ⟨before, none, true⟩ : Gathered).result
      = some (String.ofList (before.reverse ++ cs)) := by
  induction cs generalizing before with
  | nil =>
    rw [List.append_nil]
    rfl
  | cons c cs ih =>
    rw [List.foldl_cons]
    refine (ih (c :: before)).trans ?_
    rw [List.reverse_cons, List.append_assoc, List.singleton_append]

/-- A string is read behind its opening quote. -/
theorem readString_written (s : String) (rest : List Char) :
    readString {} (s.toList.flatMap escape ++ '"' :: rest)
      = some (some s, rest) := by
  rw [readString_escapes, result_chars, List.reverse_nil, List.nil_append,
    String.ofList_toList]

-- ======================================================= first character

/-- An integer begins with its sign or a digit. -/
theorem writeInteger_head (n : Int) (rest : List Char) :
    ∃ c s, writeInteger n rest = c :: s ∧ (c = '-' ∨ c.isDigit = true)
      ∧ rest.length ≤ s.length := by
  cases n with
  | ofNat n =>
    obtain ⟨c, cs, hds, hc, -⟩ := digits_shape n
    refine ⟨c, cs ++ rest, ?_, Or.inr hc, ?_⟩
    · show Nat.toDigits 10 n ++ rest = _
      rw [hds]
      rfl
    · rw [List.length_append]
      omega
  | negSucc n =>
    refine ⟨'-', Nat.toDigits 10 (n + 1) ++ rest, rfl, Or.inl rfl, ?_⟩
    rw [List.length_append]
    omega

/-- Which cannot be mistaken for anything else. -/
theorem numeral_head (h : c = '-' ∨ c.isDigit = true) :
    isSpace c = false ∧ c ≠ ']' := by
  constructor
  · cases hspace : isSpace c with
    | false => rfl
    | true =>
      unfold isSpace at hspace
      simp only [Bool.or_eq_true, decide_eq_true_eq] at hspace
      rcases hspace with ((rfl | rfl) | rfl) | rfl <;>
        exact absurd h (by decide)
  · rintro rfl
    exact absurd h (by decide)

/-- A value begins with neither a space nor a closing mark. -/
theorem Value.write_head {v : Value} (hplain : v.isPlain = true)
    (rest : List Char) :
    ∃ c s, v.write rest = c :: s ∧ isSpace c = false ∧ c ≠ ']' := by
  cases v with
  | null => exact ⟨_, _, rfl, rfl, by decide⟩
  | bool b => cases b <;> exact ⟨_, _, rfl, rfl, by decide⟩
  | string s => exact ⟨_, _, rfl, rfl, by decide⟩
  | array vs => cases vs <;> exact ⟨_, _, rfl, rfl, by decide⟩
  | object ms =>
    cases ms with
    | nil => exact ⟨_, _, rfl, rfl, by decide⟩
    | cons m ms => exact ⟨_, _, rfl, rfl, by decide⟩
  | number n =>
    cases n with
    | real x => cases hplain
    | integer n =>
      obtain ⟨c, s, hcs, hc, -⟩ := writeInteger_head n rest
      exact ⟨c, s, hcs, numeral_head hc⟩

section Containers

variable {v : Value} {vs : List Value} {m : String × Value}
  {ms : List (String × Value)}

-- ==================================================== what stands behind

/-- A string is written in front of what stands behind it. -/
theorem suffix_writeString (s : String) (rest : List Char) :
    rest <:+ writeString s rest :=
  ⟨'"' :: s.toList.flatMap escape ++ ['"'], by simp [writeString]⟩

/-- Its two quotes are always written. -/
theorem length_writeString (s : String) (rest : List Char) :
    rest.length + 2 ≤ (writeString s rest).length := by
  unfold writeString
  simp only [List.length_cons, List.length_append]
  omega

/-- Behind the items stands their bracket. -/
theorem suffix_writeItems
    (h : ∀ w ∈ vs, ∀ rest, rest <:+ w.write rest) (rest : List Char) :
    ']' :: rest <:+ writeItems vs rest := by
  induction vs with
  | nil => exact List.suffix_rfl
  | cons w vs ih =>
    rw [List.forall_mem_cons] at h
    exact ((ih h.2).trans (h.1 _)).trans (List.suffix_cons _ _)

/-- Behind the name of a member and the member. -/
theorem suffix_member {s : List Char} (name : String)
    (h : rest <:+ s) : rest <:+ writeString name (':' :: s) :=
  (h.trans (List.suffix_cons _ _)).trans (suffix_writeString _ _)

/-- Behind the members stands their brace. -/
theorem suffix_writeMembers
    (h : ∀ w ∈ ms, ∀ rest, rest <:+ w.2.write rest) (rest : List Char) :
    '\x7d' :: rest <:+ writeMembers ms rest := by
  induction ms with
  | nil => exact List.suffix_rfl
  | cons w ms ih =>
    rw [List.forall_mem_cons] at h
    exact (suffix_member w.1 ((ih h.2).trans (h.1 _))).trans
      (List.suffix_cons _ _)

/-- An object without members has its brace as well. -/
theorem suffix_write_object
    (h : ∀ w ∈ ms, ∀ rest, rest <:+ w.2.write rest) (rest : List Char) :
    '\x7d' :: rest <:+ (Value.object ms).write rest := by
  cases ms with
  | nil => exact List.suffix_cons _ _
  | cons m ms =>
    rw [List.forall_mem_cons] at h
    exact (suffix_member m.1
      ((suffix_writeMembers h.2 rest).trans (h.1 _))).trans
        (List.suffix_cons _ _)

/-- A value is written in front of what stands behind it. -/
theorem Value.suffix_write (v : Value) (rest : List Char) :
    rest <:+ v.write rest := by
  induction v generalizing rest with
  | null => exact List.suffix_append ['n', 'u', 'l', 'l'] rest
  | bool b =>
    cases b
    · exact List.suffix_append ['f', 'a', 'l', 's', 'e'] rest
    · exact List.suffix_append ['t', 'r', 'u', 'e'] rest
  | string s => exact suffix_writeString s rest
  | number n =>
    cases n with
    | real x => exact List.suffix_append _ rest
    | integer n =>
      cases n with
      | ofNat n => exact List.suffix_append _ rest
      | negSucc n => exact List.suffix_append _ rest
  | array vs ih =>
    cases vs with
    | nil => exact List.suffix_append ['[', ']'] rest
    | cons v vs =>
      rw [List.forall_mem_cons] at ih
      exact (List.suffix_cons _ _).trans
        (((suffix_writeItems ih.2 rest).trans (ih.1 _)).trans
          (List.suffix_cons _ _))
  | object ms ih =>
    exact (List.suffix_cons _ _).trans (suffix_write_object ih rest)

/-- The text of an object ends in its brace. -/
theorem Value.suffix_object (ms : List (String × Value))
    (rest : List Char) : '\x7d' :: rest <:+ (Value.object ms).write rest :=
  suffix_write_object (fun m _ => m.2.suffix_write) rest

/-- The items take at least the room of their bracket. -/
theorem length_writeItems (vs : List Value) (rest : List Char) :
    rest.length < (writeItems vs rest).length :=
  (suffix_writeItems (fun v _ => v.suffix_write) rest).length_le

/-- And the members that of their brace. -/
theorem length_writeMembers (ms : List (String × Value))
    (rest : List Char) : rest.length < (writeMembers ms rest).length :=
  (suffix_writeMembers (fun m _ => m.2.suffix_write) rest).length_le

/-- A value is at least one character long. -/
theorem Value.length_write (hplain : v.isPlain = true)
    (rest : List Char) : rest.length < (v.write rest).length := by
  cases v with
  | null => exact Nat.lt_add_of_pos_right (by decide : 0 < 4)
  | bool b =>
    cases b
    · exact Nat.lt_add_of_pos_right (by decide : 0 < 5)
    · exact Nat.lt_add_of_pos_right (by decide : 0 < 4)
  | string s => exact Nat.lt_of_succ_lt (length_writeString s rest)
  | number n =>
    cases n with
    | real x => cases hplain
    | integer n =>
      obtain ⟨c, s, hcs, -, hlen⟩ := writeInteger_head n rest
      rw [write, writeNumber, hcs]
      exact Nat.lt_succ_of_le hlen
  | array vs =>
    cases vs with
    | nil => exact Nat.lt_add_of_pos_right (by decide : 0 < 2)
    | cons v vs =>
      have hv := (v.suffix_write (writeItems vs rest)).length_le
      have hvs := length_writeItems vs rest
      rw [write, List.length_cons]
      omega
  | object ms => exact (suffix_object ms rest).length_le

-- ================================================================ values

/-- A value is read, given enough fuel for what it adds to the text. -/
def Value.ReadsBack (v : Value) : Prop :=
  ∀ fuel rest, Ends rest →
    2 * (v.write rest).length ≤ fuel + 2 * rest.length →
    readValue fuel (v.write rest) = some (v.tree, rest)

/-- Behind an item stands a comma or the bracket. -/
theorem ends_writeItems (vs : List Value) (rest : List Char) :
    Ends (writeItems vs rest) := by
  cases vs with
  | nil => exact .cons (Or.inr (Or.inl rfl))
  | cons v vs => exact .cons (Or.inl rfl)

/-- Behind a member stands a comma or the brace. -/
theorem ends_writeMembers (ms : List (String × Value))
    (rest : List Char) : Ends (writeMembers ms rest) := by
  cases ms with
  | nil => exact .cons (Or.inr (Or.inr rfl))
  | cons m ms => exact .cons (Or.inl rfl)

/-- Items are read one by one, each with a token of fuel that the mark
behind it pays for. -/
theorem readItems_written (hread : ∀ w ∈ v :: vs, w.ReadsBack)
    {fuel : Nat} (before : List Tree)
    (hfuel : 2 * (v.write (writeItems vs rest)).length
      ≤ fuel + 2 * rest.length) :
    readItems fuel before (v.write (writeItems vs rest))
      = some (.array (before.reverse ++ (v :: vs).map Value.tree),
          rest) := by
  induction vs generalizing v fuel before with
  | nil =>
    rw [List.forall_mem_cons] at hread
    have hv := (v.suffix_write (writeItems [] rest)).length_le
    have hmark : (writeItems [] rest).length = rest.length + 1 := by
      rw [writeItems, List.length_cons]
    obtain ⟨fuel, rfl⟩ : ∃ n, fuel = n + 1 := ⟨fuel - 1, by omega⟩
    have hone := hread.1 fuel _ (ends_writeItems [] rest) (by omega)
    rw [readItems, hone, Option.bind_eq_bind, Option.bind_some]
    dsimp only
    rw [writeItems, skipSpace_cons rfl, List.reverse_cons]
    rfl
  | cons w vs ih =>
    rw [List.forall_mem_cons] at hread
    have hv := (v.suffix_write (writeItems (w :: vs) rest)).length_le
    have hvs := length_writeItems (w :: vs) rest
    have hmark : (writeItems (w :: vs) rest).length
        = (w.write (writeItems vs rest)).length + 1 := by
      rw [writeItems, List.length_cons]
    obtain ⟨fuel, rfl⟩ : ∃ n, fuel = n + 1 := ⟨fuel - 1, by omega⟩
    have hone := hread.1 fuel _ (ends_writeItems (w :: vs) rest) (by omega)
    have hrest : readItems fuel (v.tree :: before)
        (w.write (writeItems vs rest)) = _ :=
      ih hread.2 (v.tree :: before) (by omega)
    rw [readItems, hone, Option.bind_eq_bind, Option.bind_some]
    dsimp only
    rw [writeItems, skipSpace_cons rfl]
    refine hrest.trans ?_
    rw [List.reverse_cons, List.append_assoc]
    rfl

/-- What stands behind a member: another one, or the end of the object. -/
def readBehind (fuel : Nat) (before : List (Option String × Tree))
    (s : List Char) : Option (Tree × List Char) :=
  match skipSpace s with
  | ',' :: s => readMembers fuel before s
  | '\x7d' :: rest => some (.object before.reverse, rest)
  | _ => none

/-- A member behind its name, whatever it is. -/
theorem readMembers_named (fuel : Nat)
    (before : List (Option String × Tree)) (name : String)
    (s : List Char) :
    readMembers (fuel + 1) before (writeString name (':' :: s))
      = (readValue fuel s).bind fun (t, rest) =>
        readBehind fuel ((some name, t) :: before) rest := by
  have hcolon : isSpace ':' = false := rfl
  unfold writeString
  rw [readMembers, List.cons_append, skipSpace_cons rfl]
  simp only [readString_written, Option.bind_eq_bind, Option.bind_some,
    skipSpace_cons hcolon]
  rfl

/-- One member, up to the mark behind it. -/
theorem readMembers_member {fuel : Nat}
    (before : List (Option String × Tree)) (name : String)
    (h : readValue fuel (v.write rest) = some (v.tree, rest)) :
    readMembers (fuel + 1) before (writeString name (':' :: v.write rest))
      = readBehind fuel ((some name, v.tree) :: before) rest := by
  rw [readMembers_named, h]
  rfl

/-- So are members, each behind its name. -/
theorem readMembers_written (hread : ∀ w ∈ m :: ms, w.2.ReadsBack)
    {fuel : Nat} (before : List (Option String × Tree))
    (hfuel : 2 * (writeString m.1
        (':' :: m.2.write (writeMembers ms rest))).length
      ≤ fuel + 2 * rest.length) :
    readMembers fuel before
        (writeString m.1 (':' :: m.2.write (writeMembers ms rest)))
      = some (.object (before.reverse
          ++ (m :: ms).map fun m => (some m.1, m.2.tree)), rest) := by
  induction ms generalizing m fuel before with
  | nil =>
    rw [List.forall_mem_cons] at hread
    have hname := length_writeString m.1
      (':' :: m.2.write (writeMembers [] rest))
    rw [List.length_cons] at hname
    have hv := (m.2.suffix_write (writeMembers [] rest)).length_le
    have hmark : (writeMembers [] rest).length = rest.length + 1 := by
      rw [writeMembers, List.length_cons]
    obtain ⟨fuel, rfl⟩ : ∃ n, fuel = n + 1 := ⟨fuel - 1, by omega⟩
    have hone := hread.1 fuel _ (ends_writeMembers [] rest) (by omega)
    rw [readMembers_member before m.1 hone]
    unfold readBehind
    rw [writeMembers, skipSpace_cons rfl, List.reverse_cons]
    rfl
  | cons w ms ih =>
    rw [List.forall_mem_cons] at hread
    have hname := length_writeString m.1
      (':' :: m.2.write (writeMembers (w :: ms) rest))
    rw [List.length_cons] at hname
    have hv := (m.2.suffix_write (writeMembers (w :: ms) rest)).length_le
    have hms := length_writeMembers (w :: ms) rest
    have hmark : (writeMembers (w :: ms) rest).length
        = (writeString w.1
            (':' :: w.2.write (writeMembers ms rest))).length + 1 := by
      rw [writeMembers, List.length_cons]
    obtain ⟨fuel, rfl⟩ : ∃ n, fuel = n + 1 := ⟨fuel - 1, by omega⟩
    have hone := hread.1 fuel _ (ends_writeMembers (w :: ms) rest)
      (by omega)
    have hrest : readMembers fuel ((some m.1, m.2.tree) :: before)
        (writeString w.1 (':' :: w.2.write (writeMembers ms rest))) = _ :=
      ih hread.2 ((some m.1, m.2.tree) :: before) (by omega)
    rw [readMembers_member before m.1 hone]
    unfold readBehind
    rw [writeMembers, skipSpace_cons rfl]
    refine hrest.trans ?_
    rw [List.reverse_cons, List.append_assoc]
    rfl

/-- A quote begins a string. -/
theorem readValue_quote (fuel : Nat) (s : List Char) :
    readValue (fuel + 1) ('"' :: s)
      = (readString {} s).map fun (s, rest) => (.string s, rest) := by
  rw [readValue, skipSpace_cons rfl]
  rfl

/-- What stands behind a bracket: the end of the list, or its items. -/
def readInside (fuel : Nat) (s : List Char) :
    Option (Tree × List Char) :=
  match skipSpace s with
  | ']' :: rest => some (.array [], rest)
  | rest => readItems fuel [] rest

/-- A bracket begins a list, which has items unless it is closed at
once. -/
theorem readValue_bracket (fuel : Nat) {s : List Char}
    (hspace : isSpace c = false) (hne : c ≠ ']') :
    readValue (fuel + 1) ('[' :: c :: s) = readItems fuel [] (c :: s) := by
  rw [readValue, skipSpace_cons rfl]
  show readInside fuel (c :: s) = _
  unfold readInside
  rw [skipSpace_cons hspace]
  split
  · next heq => exact absurd (List.cons.inj heq).1 hne
  · rfl

/-- A brace and a quote begin an object with members. -/
theorem readValue_brace (fuel : Nat) (s : List Char) :
    readValue (fuel + 1) ('\x7b' :: '"' :: s)
      = readMembers fuel [] ('"' :: s) := by
  rw [readValue, skipSpace_cons rfl]
  rfl

/-- A sign or a digit begins a number. -/
theorem readValue_numeral (fuel : Nat) {s : List Char}
    (h : c = '-' ∨ c.isDigit = true) :
    readValue (fuel + 1) (c :: s)
      = (readNumeral (c :: s)).map fun (n, rest) => (.number n, rest) := by
  have hne : ∀ d, (d = '-' ∨ d.isDigit = true → False) → c ≠ d := by
    rintro d hd rfl
    exact hd h
  rw [readValue, skipSpace_cons (numeral_head h).1]
  split
  · next heq => exact absurd (List.cons.inj heq).1 (hne _ (by decide))
  · next heq => exact absurd (List.cons.inj heq).1 (hne _ (by decide))
  · next heq => exact absurd (List.cons.inj heq).1 (hne _ (by decide))
  · next heq => exact absurd (List.cons.inj heq).1 (hne _ (by decide))
  · next heq => exact absurd (List.cons.inj heq).1 (hne _ (by decide))
  · next heq => exact absurd (List.cons.inj heq).1 (hne _ (by decide))
  · rfl

/-- An integer as a value. -/
theorem Value.readsBack_integer (n : Int) :
    (Value.number (.integer n)).ReadsBack := by
  intro fuel rest hends hfuel
  obtain ⟨c, s, hcs, hc, hlen⟩ := writeInteger_head n rest
  have hread := readNumeral_integer n hends
  rw [write, writeNumber] at hfuel ⊢
  rw [hcs] at hread hfuel ⊢
  rw [List.length_cons] at hfuel
  obtain ⟨fuel, rfl⟩ : ∃ n, fuel = n + 1 := ⟨fuel - 1, by omega⟩
  rw [readValue_numeral fuel hc, hread]
  rfl

/-- A string as a value. -/
theorem Value.readsBack_string (s : String) :
    (Value.string s).ReadsBack := by
  intro fuel rest _ hfuel
  have hlong := length_writeString s rest
  rw [write] at hfuel ⊢
  obtain ⟨fuel, rfl⟩ : ∃ n, fuel = n + 1 := ⟨fuel - 1, by omega⟩
  rw [writeString, List.cons_append, readValue_quote, readString_written]
  rfl

/-- Any plain value, by induction over what it contains. Reals are not
plain, for their digits are read by rounding. -/
theorem Value.readsBack (hplain : v.isPlain = true) : v.ReadsBack := by
  induction v with
  | null =>
    intro fuel rest _ hfuel
    have hlong := Value.null.length_write hplain rest
    obtain ⟨fuel, rfl⟩ : ∃ n, fuel = n + 1 := ⟨fuel - 1, by omega⟩
    rfl
  | bool b =>
    intro fuel rest _ hfuel
    have hlong := (Value.bool b).length_write hplain rest
    obtain ⟨fuel, rfl⟩ : ∃ n, fuel = n + 1 := ⟨fuel - 1, by omega⟩
    cases b <;> rfl
  | string s => exact readsBack_string s
  | number n =>
    cases n with
    | real x => cases hplain
    | integer n => exact readsBack_integer n
  | array vs ih =>
    intro fuel rest _ hfuel
    have hlong := (Value.array vs).length_write hplain rest
    obtain ⟨fuel, rfl⟩ : ∃ n, fuel = n + 1 := ⟨fuel - 1, by omega⟩
    rw [isPlain_array] at hplain
    cases vs with
    | nil => rfl
    | cons v vs =>
      obtain ⟨c, s, hcs, hspace, hclose⟩ :=
        write_head (hplain v List.mem_cons_self) (writeItems vs rest)
      rw [write, List.length_cons] at hfuel
      have hitems : readItems fuel [] (v.write (writeItems vs rest)) = _ :=
        readItems_written (fun w hw => ih w hw (hplain w hw)) [] (by omega)
      rw [write, tree_array]
      rw [hcs] at hitems ⊢
      rw [readValue_bracket fuel hspace hclose]
      exact hitems
  | object ms ih =>
    intro fuel rest _ hfuel
    have hlong := (Value.object ms).length_write hplain rest
    obtain ⟨fuel, rfl⟩ : ∃ n, fuel = n + 1 := ⟨fuel - 1, by omega⟩
    rw [isPlain_object] at hplain
    cases ms with
    | nil => rfl
    | cons m ms =>
      rw [write, List.length_cons] at hfuel
      have hmembers : readMembers fuel []
          (writeString m.1 (':' :: m.2.write (writeMembers ms rest))) = _ :=
        readMembers_written (fun w hw => ih w hw (hplain w hw)) []
          (by omega)
      rw [write, tree_object]
      exact (readValue_brace fuel _).trans hmembers

/-- The text of a value is parsed as its tree. -/
theorem Tree.parse_written (hplain : v.isPlain = true) :
    Tree.parse (v.write []) = some v.tree := by
  unfold Tree.parse
  rw [v.readsBack hplain _ [] .nil (by simp only [List.length_nil]; omega)]
  rfl

-- ============================================================ characters

/-- Nothing that is written is a control character. -/
def Printable (s : List Char) : Prop := ∀ c ∈ s, 0x20 ≤ c.toNat

/-- One character more. -/
theorem Printable.cons {s : List Char} (hc : 0x20 ≤ c.toNat)
    (h : Printable s) : Printable (c :: s) :=
  List.forall_mem_cons.2 ⟨hc, h⟩

/-- Texts in a row. -/
theorem Printable.append {s t : List Char} (hs : Printable s)
    (ht : Printable t) : Printable (s ++ t) :=
  List.forall_mem_append.2 ⟨hs, ht⟩

/-- Digits are printed. -/
theorem printable_of_digit (h : c.isDigit = true) : 0x20 ≤ c.toNat := by
  rw [Char.isDigit, Bool.and_eq_true, decide_eq_true_eq] at h
  have hle : 48 ≤ c.val.toNat := h.1
  exact Nat.le_trans (by decide) hle

/-- Digits of codes as well. -/
theorem printable_hexDigit {n : Nat} (h : n < 16) :
    0x20 ≤ (hexDigit n).toNat := by
  decide +revert

theorem Printable.pair {d : Char} (hc : 0x20 ≤ c.toNat)
    (hd : 0x20 ≤ d.toNat) : Printable [c, d] :=
  .cons hc (.cons hd nofun)

/-- A control character is written as its code. -/
theorem printable_escape (c : Char) : Printable (escape c) := by
  unfold escape
  split
  · exact .pair (by decide) (by decide)
  split
  · exact .pair (by decide) (by decide)
  split
  · exact .pair (by decide) (by decide)
  split
  · exact .pair (by decide) (by decide)
  split
  · exact .pair (by decide) (by decide)
  split
  · exact .pair (by decide) (by decide)
  split
  · exact .pair (by decide) (by decide)
  split
  · next h =>
    have hhigh := printable_hexDigit (n := c.toNat / 16) (by omega)
    have hlow := printable_hexDigit (n := c.toNat % 16) (by omega)
    exact .cons (by decide) (.cons (by decide) (.cons (by decide)
      (.cons (by decide) (.pair hhigh hlow))))
  · next h => exact .cons (Nat.le_of_not_lt h) nofun

/-- So a string may hold any characters. -/
theorem printable_writeString (s : String) (h : Printable rest) :
    Printable (writeString s rest) := by
  unfold writeString
  refine .cons (by decide) (.append (fun c hc => ?_) (.cons (by decide) h))
  obtain ⟨d, -, hd⟩ := List.mem_flatMap.1 hc
  exact printable_escape d c hd

/-- Reals have digits, signs, a point and the letter of an exponent. -/
theorem printable_render (x : Binary64) : Printable x.render := by
  intro c hc
  rcases x.isMark_render c hc with hdigit | rfl | rfl | rfl | rfl
  · exact printable_of_digit hdigit
  all_goals decide

theorem printable_writeInteger (n : Int) (h : Printable rest) :
    Printable (writeInteger n rest) := by
  have hdigits : ∀ n, Printable (Nat.toDigits 10 n) :=
    fun n c hc => printable_of_digit (isDigit_of_mem_toDigits hc)
  cases n with
  | ofNat n => exact (hdigits n).append h
  | negSucc n => exact .cons (by decide) ((hdigits (n + 1)).append h)

/-- Items are apart by commas. -/
theorem printable_writeItems
    (h : ∀ w ∈ vs, ∀ rest, Printable rest → Printable (w.write rest))
    (hrest : Printable rest) : Printable (writeItems vs rest) := by
  induction vs with
  | nil => exact .cons (by decide) hrest
  | cons v vs ih =>
    rw [List.forall_mem_cons] at h
    exact .cons (by decide) (h.1 _ (ih h.2))

/-- So are members, with a colon behind each name. -/
theorem printable_writeMembers
    (h : ∀ w ∈ ms, ∀ rest, Printable rest → Printable (w.2.write rest))
    (hrest : Printable rest) : Printable (writeMembers ms rest) := by
  induction ms with
  | nil => exact .cons (by decide) hrest
  | cons m ms ih =>
    rw [List.forall_mem_cons] at h
    exact .cons (by decide)
      (printable_writeString m.1 (.cons (by decide) (h.1 _ (ih h.2))))

/-- The text of a value holds no control character, so no line feed. -/
theorem Value.printable_write (v : Value) (hrest : Printable rest) :
    Printable (v.write rest) := by
  induction v generalizing rest with
  | null =>
    exact .cons (by decide) (.cons (by decide) (.cons (by decide)
      (.cons (by decide) hrest)))
  | bool b =>
    cases b
    · exact .cons (by decide) (.cons (by decide) (.cons (by decide)
        (.cons (by decide) (.cons (by decide) hrest))))
    · exact .cons (by decide) (.cons (by decide) (.cons (by decide)
        (.cons (by decide) hrest)))
  | string s => exact printable_writeString s hrest
  | number n =>
    cases n with
    | real x => exact (printable_render x).append hrest
    | integer n => exact printable_writeInteger n hrest
  | array vs ih =>
    cases vs with
    | nil => exact .cons (by decide) (.cons (by decide) hrest)
    | cons v vs =>
      rw [List.forall_mem_cons] at ih
      exact .cons (by decide) (ih.1 (printable_writeItems
        (fun w hw _ => ih.2 w hw) hrest))
  | object ms ih =>
    cases ms with
    | nil => exact .cons (by decide) (.cons (by decide) hrest)
    | cons m ms =>
      rw [List.forall_mem_cons] at ih
      exact .cons (by decide) (printable_writeString m.1
        (.cons (by decide) (ih.1 (printable_writeMembers
          (fun w hw _ => ih.2 w hw) hrest))))

end Containers

end LabLease.Json
