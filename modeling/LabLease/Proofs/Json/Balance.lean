/-
Texts of JSON are balanced: outside of strings every mark that opens a
container has one that closes it.

A scan that knows no more of the grammar than quotes, backslashes and these
marks goes over a text. Where it is does not depend on what a reader makes
of the text, so it can be asked where it stands in the middle of one.
Whatever a reader takes is balanced (`readValue_balanced`), and so is what
is written (`Value.balanced_write`).

# What is left of a container

Behind the first character of a container a scan is inside of it, or in a
string. A second scan that starts there as if it were outside of everything
keeps apart from the first one (`Apart.scan`): it is less deep, or it takes
strings for what stands between them and the other way round. So the two
cannot both end outside of everything, and the rest of a container is
never a text of its own (`not_balanced_rest`).
-/
import LabLease.Proofs.Json.Writer

namespace LabLease.Json

-- ================================================================== scans

/-- What a character is to a scan. -/
inductive Mark where
  | quote
  | backslash
  | opening
  | closing
  | neutral
deriving DecidableEq

def Mark.of (c : Char) : Mark :=
  if c = '"' then .quote
  else if c = '\\' then .backslash
  else if c = '[' ∨ c = '\x7b' then .opening
  else if c = ']' ∨ c = '\x7d' then .closing
  else .neutral

/-- Where a scan stands. -/
inductive Mode where
  | outside
  | inside
  /-- Behind a backslash in a string. -/
  | escaped
deriving DecidableEq

/-- Where a scan stands and how many containers are open. -/
structure Place where
  mode : Mode
  depth : Nat
deriving DecidableEq

namespace Place

/-- One mark. Nothing is closed that is not open, and there are
backslashes only in strings. -/
def step : Place → Mark → Option Place
  | ⟨.outside, n⟩, .neutral => some ⟨.outside, n⟩
  | ⟨.outside, n⟩, .quote => some ⟨.inside, n⟩
  | ⟨.outside, n⟩, .opening => some ⟨.outside, n + 1⟩
  | ⟨.outside, n + 1⟩, .closing => some ⟨.outside, n⟩
  | ⟨.outside, 0⟩, .closing => none
  | ⟨.outside, _⟩, .backslash => none
  | ⟨.inside, n⟩, .quote => some ⟨.outside, n⟩
  | ⟨.inside, n⟩, .backslash => some ⟨.escaped, n⟩
  | ⟨.inside, n⟩, _ => some ⟨.inside, n⟩
  | ⟨.escaped, n⟩, _ => some ⟨.inside, n⟩

/-- Some characters. -/
def scan (p : Place) : List Char → Option Place
  | [] => some p
  | c :: s => (p.step (.of c)).bind (·.scan s)

theorem scan_cons {p q : Place} {c : Char} (h : p.step (.of c) = some q)
    (s : List Char) : p.scan (c :: s) = q.scan s := by
  rw [scan, h]
  rfl

theorem scan_append (p : Place) (s t : List Char) :
    p.scan (s ++ t) = (p.scan s).bind (·.scan t) := by
  induction s generalizing p with
  | nil => rfl
  | cons c s ih =>
    rw [List.cons_append, scan, scan]
    cases p.step (.of c) with
    | none => rfl
    | some q => exact ih q

/-- The same place with more containers open. -/
def deeper (p : Place) (n : Nat) : Place := ⟨p.mode, p.depth + n⟩

theorem step_deeper {p q : Place} {m : Mark} (h : p.step m = some q)
    (n : Nat) : (p.deeper n).step m = some (q.deeper n) := by
  obtain ⟨mode, depth⟩ := p
  cases mode with
  | outside =>
    cases m with
    | closing =>
      cases depth with
      | zero => cases h
      | succ depth =>
        cases h
        show step ⟨.outside, depth + 1 + n⟩ .closing = _
        rw [Nat.add_right_comm]
        rfl
    | opening =>
      cases h
      show some (Place.mk .outside (depth + n + 1)) = _
      rw [Nat.add_right_comm]
      rfl
    | neutral | quote =>
      cases h
      rfl
    | backslash => cases h
  | inside =>
    cases m <;> cases h <;> rfl
  | escaped =>
    cases h
    rfl

theorem scan_deeper {p q : Place} {s : List Char} (h : p.scan s = some q)
    (n : Nat) : (p.deeper n).scan s = some (q.deeper n) := by
  induction s generalizing p with
  | nil =>
    cases h
    rfl
  | cons c s ih =>
    obtain ⟨p', hstep, hscan⟩ := Option.bind_eq_some_iff.1 h
    rw [scan_cons (step_deeper hstep n)]
    exact ih hscan

end Place

open Place

-- ========================================================= balanced texts

/-- A scan over the text ends as deep as it began, outside of strings, and
has closed nothing that was open before. -/
def Balanced (s : List Char) : Prop :=
  scan ⟨.outside, 0⟩ s = some ⟨.outside, 0⟩

/-- A scan from the inside of a string ends behind it. -/
def Quoted (s : List Char) : Prop :=
  scan ⟨.inside, 0⟩ s = some ⟨.outside, 0⟩

variable {s t : List Char} {c : Char}

namespace Balanced

theorem nil : Balanced [] := rfl

theorem append (hs : Balanced s) (ht : Balanced t) : Balanced (s ++ t) := by
  unfold Balanced
  rw [scan_append, hs]
  exact ht

theorem cons (h : Mark.of c = .neutral) (hs : Balanced s) :
    Balanced (c :: s) := by
  unfold Balanced
  rw [scan, h]
  exact hs

theorem neutral (h : ∀ c ∈ s, Mark.of c = .neutral) : Balanced s := by
  induction s with
  | nil => exact nil
  | cons c s ih =>
    rw [List.forall_mem_cons] at h
    exact cons h.1 (ih h.2)

theorem string (h : Quoted s) : Balanced ('"' :: s) := h

/-- A container is balanced. -/
theorem container {o e : Char} (ho : Mark.of o = .opening)
    (he : Mark.of e = .closing) (h : Balanced s) :
    Balanced (o :: s ++ [e]) := by
  have hin : scan ⟨.outside, 1⟩ s = some ⟨.outside, 1⟩ := scan_deeper h 1
  unfold Balanced
  rw [List.cons_append, scan, ho]
  show scan ⟨.outside, 1⟩ (s ++ [e]) = _
  rw [scan_append, hin]
  show scan ⟨.outside, 1⟩ [e] = _
  rw [scan, he]
  rfl

/-- What closes a container is not balanced with what is in front of
it. -/
theorem not_closed {e : Char} (he : Mark.of e = .closing)
    (h : Balanced s) : ¬ Balanced (s ++ e :: t) := by
  intro hall
  unfold Balanced at hall
  rw [scan_append, h] at hall
  change scan ⟨.outside, 0⟩ (e :: t) = _ at hall
  rw [scan, he] at hall
  cases hall

/-- Of two balanced texts in front of what closes a container none is
longer than the other. -/
theorem closed_unique {e : Char} {s' t' : List Char}
    (he : Mark.of e = .closing) (hs : Balanced s) (hs' : Balanced s')
    (heq : s ++ e :: t = s' ++ e :: t') : s = s' ∧ t = t' := by
  rcases List.append_eq_append_iff.1 heq with ⟨as, has, hrest⟩ |
    ⟨as, has, hrest⟩
  · cases as with
    | nil =>
      cases hrest
      exact ⟨by rw [has, List.append_nil], rfl⟩
    | cons c as =>
      cases hrest
      rw [has] at hs'
      exact absurd hs' (not_closed he hs)
  · cases as with
    | nil =>
      cases hrest
      exact ⟨by rw [has, List.append_nil], rfl⟩
    | cons c as =>
      cases hrest
      rw [has] at hs
      exact absurd hs (not_closed he hs')

end Balanced

-- ============================================================= two scans

/-- A scan that began later keeps apart from one over the whole text. -/
inductive Apart : Place → Place → Prop
  | shallow {mode : Mode} {n m : Nat} (h : m < n) :
    Apart ⟨mode, n⟩ ⟨mode, m⟩
  /-- It takes a string for what stands between strings. -/
  | unquoted {n m : Nat} : Apart ⟨.inside, n⟩ ⟨.outside, m⟩
  /-- It takes what stands between strings for a string. -/
  | quoted {n m : Nat} : Apart ⟨.outside, n⟩ ⟨.inside, m⟩
  /-- It began behind a backslash. -/
  | behind {n m : Nat} (h : m < n) : Apart ⟨.escaped, n⟩ ⟨.outside, m⟩

namespace Apart

theorem step {p q p' q' : Place} {m : Mark} (h : Apart p q)
    (hp : p.step m = some p') (hq : q.step m = some q') : Apart p' q' := by
  cases h with
  | @shallow mode n k hlt =>
    cases mode with
    | outside =>
      cases m with
      | closing =>
        cases n with
        | zero => cases hp
        | succ n =>
          cases k with
          | zero => cases hq
          | succ k =>
            cases hp
            cases hq
            exact .shallow (Nat.lt_of_succ_lt_succ hlt)
      | opening =>
        cases hp
        cases hq
        exact .shallow (Nat.succ_lt_succ hlt)
      | quote | neutral =>
        cases hp
        cases hq
        exact .shallow hlt
      | backslash => cases hp
    | inside =>
      cases m <;> cases hp <;> cases hq <;> exact .shallow hlt
    | escaped =>
      cases hp
      cases hq
      exact .shallow hlt
  | @unquoted n k =>
    cases m with
    | closing =>
      cases k with
      | zero => cases hq
      | succ k =>
        cases hp
        cases hq
        exact .unquoted
    | backslash => cases hq
    | quote =>
      cases hp
      cases hq
      exact .quoted
    | opening | neutral =>
      cases hp
      cases hq
      exact .unquoted
  | @quoted n k =>
    cases m with
    | closing =>
      cases n with
      | zero => cases hp
      | succ n =>
        cases hp
        cases hq
        exact .quoted
    | backslash => cases hp
    | quote =>
      cases hp
      cases hq
      exact .unquoted
    | opening | neutral =>
      cases hp
      cases hq
      exact .quoted
  | @behind n k hlt =>
    cases m with
    | closing =>
      cases k with
      | zero => cases hq
      | succ k =>
        cases hp
        cases hq
        exact .unquoted
    | backslash => cases hq
    | quote =>
      cases hp
      cases hq
      exact .shallow hlt
    | opening | neutral =>
      cases hp
      cases hq
      exact .unquoted

theorem scan {p q p' q' : Place} (h : Apart p q)
    (hp : p.scan s = some p') (hq : q.scan s = some q') : Apart p' q' := by
  induction s generalizing p q with
  | nil =>
    cases hp
    cases hq
    exact h
  | cons c s ih =>
    obtain ⟨p₁, hstep, hp⟩ := Option.bind_eq_some_iff.1 hp
    obtain ⟨q₁, hstep', hq⟩ := Option.bind_eq_some_iff.1 hq
    exact ih (h.step hstep hstep') hp hq

/-- Whatever is in front, a scan of the rest that begins outside of
everything is apart from the scan of the whole. -/
theorem start {p : Place} (h : 0 < p.depth) : Apart p ⟨.outside, 0⟩ := by
  obtain ⟨mode, n⟩ := p
  cases mode with
  | outside => exact .shallow h
  | inside => exact .unquoted
  | escaped => exact .behind h

end Apart

/-- No rest of a container is balanced. -/
theorem not_balanced_rest {o e : Char} {front back : List Char}
    (he : Mark.of e = .closing) (hs : Balanced s)
    (heq : o :: s ++ [e] = front ++ back) (hfront : front ≠ [])
    (hback : back ≠ []) : ¬ Balanced back := by
  intro hrest
  obtain ⟨_, front, rfl⟩ := List.exists_cons_of_ne_nil hfront
  rw [List.cons_append, List.cons_append] at heq
  obtain ⟨back', d, rfl⟩ := List.eq_nil_or_concat back |>.resolve_left hback
  rw [List.concat_eq_append, ← List.append_assoc] at heq
  obtain ⟨rfl, hed⟩ := List.append_inj' (List.cons.inj heq).2 rfl
  cases hed
  -- the scan of the whole, one container deep
  unfold Balanced at hs
  rw [scan_append] at hs
  obtain ⟨p, hp, hback⟩ := Option.bind_eq_some_iff.1 hs
  have hdeep := scan_deeper hback 1
  have hend : (p.deeper 1).scan (back' ++ [e]) = some ⟨.outside, 0⟩ := by
    rw [scan_append, hdeep]
    show Place.scan ⟨.outside, 1⟩ [e] = _
    rw [Place.scan, he]
    rfl
  rw [List.concat_eq_append] at hrest
  have hapart := (Apart.start (Nat.succ_pos p.depth)).scan hend hrest
  cases hapart with
  | shallow h => exact Nat.lt_irrefl 0 h

-- ================================================================ reading

/-- All but six characters mean nothing outside of strings. -/
theorem Mark.of_eq_neutral
    (h : ∀ d ∈ ['"', '\\', '[', '\x7b', ']', '\x7d'], c ≠ d) :
    Mark.of c = .neutral := by
  simp only [List.forall_mem_cons, List.not_mem_nil, false_imp_iff,
    implies_true, and_true] at h
  obtain ⟨hquote, hslash, hbracket, hbrace, hbracket', hbrace'⟩ := h
  unfold of
  rw [if_neg hquote, if_neg hslash, if_neg (not_or.2 ⟨hbracket, hbrace⟩),
    if_neg (not_or.2 ⟨hbracket', hbrace'⟩)]

theorem Mark.of_isSpace (h : isSpace c = true) : Mark.of c = .neutral := by
  unfold isSpace at h
  simp only [Bool.or_eq_true, decide_eq_true_eq] at h
  rcases h with ((rfl | rfl) | rfl) | rfl <;> rfl

theorem Mark.of_hexValue? {n : Nat} (h : hexValue? c = some n) :
    Mark.of c = .neutral := by
  refine of_eq_neutral fun d hd heq => ?_
  subst heq
  simp only [List.mem_cons, List.not_mem_nil, or_false] at hd
  rcases hd with rfl | rfl | rfl | rfl | rfl | rfl <;> cases h

theorem Mark.of_isMark (h : Binary64.IsMark c) : Mark.of c = .neutral := by
  refine of_eq_neutral fun d hd heq => ?_
  subst heq
  unfold Binary64.IsMark at h
  simp only [List.mem_cons, List.not_mem_nil, or_false] at hd
  rcases hd with rfl | rfl | rfl | rfl | rfl | rfl <;>
    exact absurd h (by decide)

/-- What is read of a text, up to the rest of it, is balanced. -/
def Leaves (s rest : List Char) : Prop :=
  ∃ q, s = q ++ rest ∧ Balanced q

theorem Leaves.refl (s : List Char) : Leaves s s := ⟨[], rfl, .nil⟩

theorem Leaves.trans {rest : List Char} (h : Leaves s t)
    (h' : Leaves t rest) : Leaves s rest := by
  obtain ⟨q, rfl, hq⟩ := h
  obtain ⟨q', rfl, hq'⟩ := h'
  exact ⟨q ++ q', (List.append_assoc ..).symm, hq.append hq'⟩

theorem Leaves.cons {rest : List Char} (hc : Mark.of c = .neutral)
    (h : Leaves s rest) : Leaves (c :: s) rest := by
  obtain ⟨q, rfl, hq⟩ := h
  exact ⟨c :: q, rfl, hq.cons hc⟩

theorem skipSpace_leaves (s : List Char) : Leaves s (skipSpace s) := by
  refine ⟨s.takeWhile isSpace, List.takeWhile_append_dropWhile.symm, ?_⟩
  exact .neutral fun c hc => Mark.of_isSpace
    (List.all_eq_true.1 List.all_takeWhile c hc)

/-- A character of a string that is written as it is. -/
theorem Quoted.cons (hquote : c ≠ '"') (hslash : c ≠ '\\')
    (h : Quoted s) : Quoted (c :: s) := by
  have hstep : step ⟨.inside, 0⟩ (.of c) = some ⟨.inside, 0⟩ := by
    unfold Mark.of
    rw [if_neg hquote, if_neg hslash]
    split
    · rfl
    · split <;> rfl
  exact (scan_cons hstep s).trans h

theorem Quoted.neutral (hc : Mark.of c = .neutral) (h : Quoted s) :
    Quoted (c :: s) := by
  refine .cons ?_ ?_ h <;> rintro rfl <;> cases hc

/-- Whatever stands behind a backslash. -/
theorem Quoted.escaped (e : Char) (h : Quoted s) :
    Quoted ('\\' :: e :: s) := h

/-- What is read as a string is quoted. -/
theorem readString_quoted {g : Gathered} {r : Option String}
    {rest : List Char} (h : readString g s = some (r, rest)) :
    ∃ q, s = q ++ rest ∧ Quoted q := by
  fun_induction readString g s with
  | case1 g s =>
    cases h
    exact ⟨['"'], rfl, rfl⟩
  | case2 g a b c d s u hunit ih =>
    obtain ⟨q, rfl, hq⟩ := ih h
    refine ⟨'\\' :: 'u' :: a :: b :: c :: d :: q, rfl, .escaped 'u' ?_⟩
    unfold unit? at hunit
    simp only [Option.bind_eq_bind, Option.bind_eq_some_iff] at hunit
    obtain ⟨i, ha, j, hb, k, hc, l, hd, -⟩ := hunit
    exact .neutral (Mark.of_hexValue? ha) (.neutral (Mark.of_hexValue? hb)
      (.neutral (Mark.of_hexValue? hc) (.neutral (Mark.of_hexValue? hd) hq)))
  | case4 g e s _ c _ ih =>
    obtain ⟨q, rfl, hq⟩ := ih h
    exact ⟨'\\' :: e :: q, rfl, .escaped e hq⟩
  | case7 g c s hquote _ _ hplain ih =>
    obtain ⟨q, rfl, hq⟩ := ih h
    exact ⟨c :: q, rfl, .cons hquote (not_or.1 hplain).2 hq⟩
  | case3 | case5 | case6 | case8 => cases h

theorem readDigits_leaves (s : List Char) :
    Leaves s (readDigits s).2 := by
  refine ⟨s.takeWhile Char.isDigit,
    List.takeWhile_append_dropWhile.symm, ?_⟩
  exact .neutral fun c hc => Mark.of_isMark
    (Or.inl (List.all_eq_true.1 List.all_takeWhile c hc))

theorem readFraction_leaves {ds : List Nat} {rest : List Char}
    (h : readFraction s = some (ds, rest)) : Leaves s rest := by
  unfold readFraction at h
  split at h
  · next s =>
    have hdigits := readDigits_leaves s
    split at h
    · cases h
    · next heq =>
      cases h
      rw [heq] at hdigits
      exact .cons rfl hdigits
  · cases h
    exact .refl s

theorem readExponent_leaves {e : Option Int} {rest : List Char}
    (h : readExponent s = some (e, rest)) : Leaves s rest := by
  unfold readExponent at h
  split at h
  · next c s =>
    split at h
    · next he =>
      have hmark : Mark.of c = .neutral := by
        rcases he with rfl | rfl <;> rfl
      -- a sign, if there is one, and the digits
      have hsigned : ∀ {digits : List Char}, Leaves s digits →
          Leaves (c :: s) (readDigits digits).2 := fun hs =>
        .cons hmark (hs.trans (readDigits_leaves _))
      split at h
      next sign digits heq =>
      have hdigits : Leaves s digits := by
        split at heq
        · cases heq
          exact .cons rfl (.refl _)
        · cases heq
          exact .cons rfl (.refl _)
        · cases heq
          exact .refl s
      split at h
      · cases h
      · next hrest =>
        cases h
        have hout := hsigned hdigits
        rw [hrest] at hout
        exact hout
    · cases h
      exact .refl _
  · cases h
    exact .refl _

theorem readUnsigned_leaves {negative : Bool} {n : Numeral}
    {rest : List Char} (h : readUnsigned negative s = some (n, rest)) :
    Leaves s rest := by
  have hdigits := readDigits_leaves s
  unfold readUnsigned at h
  dsimp only at h
  split at h
  · cases h
  · cases h
  · simp only [Option.bind_eq_bind, Option.bind_eq_some_iff] at h
    obtain ⟨⟨ds, t⟩, hfraction, ⟨e, t'⟩, hexponent, hout⟩ := h
    cases hout
    exact hdigits.trans
      ((readFraction_leaves hfraction).trans (readExponent_leaves hexponent))

/-- What is read as a number is made of marks of numbers. -/
theorem readNumeral_leaves {n : Numeral} {rest : List Char}
    (h : readNumeral s = some (n, rest)) : Leaves s rest := by
  cases s with
  | nil => cases h
  | cons c s =>
    by_cases hminus : c = '-'
    · subst hminus
      exact .cons rfl (readUnsigned_leaves h)
    · rw [readNumeral_of_ne hminus] at h
      exact readUnsigned_leaves h

/-- What is read up to a mark that closes a container. -/
def Closes (e : Char) (s rest : List Char) : Prop :=
  ∃ q, s = q ++ e :: rest ∧ Balanced q

theorem Leaves.closes {e : Char} {rest : List Char} (h : Leaves s t)
    (h' : Closes e t rest) : Closes e s rest := by
  obtain ⟨q, rfl, hq⟩ := h
  obtain ⟨q', rfl, hq'⟩ := h'
  exact ⟨q ++ q', (List.append_assoc ..).symm, hq.append hq'⟩

theorem Leaves.closed {e : Char} {rest : List Char}
    (h : Leaves s (e :: rest)) : Closes e s rest := h

/-- A container that is read from its opening mark. -/
theorem Closes.container {o e : Char} {rest : List Char}
    (ho : Mark.of o = .opening) (he : Mark.of e = .closing)
    (h : Closes e s rest) : Leaves (o :: s) rest := by
  obtain ⟨q, rfl, hq⟩ := h
  refine ⟨o :: q ++ [e], ?_, hq.container ho he⟩
  rw [List.append_assoc]
  rfl

theorem Leaves.string {r : Option String} {rest : List Char}
    (h : readString {} s = some (r, rest)) : Leaves ('"' :: s) rest := by
  obtain ⟨q, rfl, hq⟩ := readString_quoted h
  exact ⟨'"' :: q, rfl, hq⟩

/-- The containers that a reader opens: what it does with as much fuel. -/
structure ReadsBalanced (fuel : Nat) : Prop where
  value : ∀ {s t rest}, readValue fuel s = some (t, rest) → Leaves s rest
  items : ∀ {before s t rest}, readItems fuel before s = some (t, rest) →
    Closes ']' s rest
  members : ∀ {before s t rest},
    readMembers fuel before s = some (t, rest) → Closes '\x7d' s rest

/-- What a reader does behind the brace that opens an object. -/
theorem ReadsBalanced.brace {fuel : Nat} (ih : ReadsBalanced fuel)
    {t : Tree} {rest : List Char}
    (h : (match skipSpace s with
      | '\x7d' :: rest => some (Tree.object [], rest)
      | rest => readMembers fuel [] rest) = some (t, rest)) :
    Closes '\x7d' s rest := by
  have hinner := skipSpace_leaves s
  split at h
  · next hempty =>
    cases h
    rw [hempty] at hinner
    exact hinner.closed
  · exact hinner.closes (ih.members h)

theorem readsBalanced (fuel : Nat) : ReadsBalanced fuel := by
  induction fuel with
  | zero => exact ⟨nofun, nofun, nofun⟩
  | succ fuel ih =>
    refine ⟨fun {s t rest} h => ?_, fun {before s t rest} h => ?_,
      fun {before s t rest} h => ?_⟩
    · have hspace := skipSpace_leaves s
      rw [readValue] at h
      split at h
      · next heq =>
        cases h
        rw [heq] at hspace
        exact hspace.trans (.cons rfl (.cons rfl (.cons rfl (.cons rfl
          (.refl _)))))
      · next heq =>
        cases h
        rw [heq] at hspace
        exact hspace.trans (.cons rfl (.cons rfl (.cons rfl (.cons rfl
          (.refl _)))))
      · next heq =>
        cases h
        rw [heq] at hspace
        exact hspace.trans (.cons rfl (.cons rfl (.cons rfl (.cons rfl
          (.cons rfl (.refl _))))))
      · next heq =>
        rw [heq] at hspace
        obtain ⟨⟨r, rest'⟩, hread, hout⟩ := Option.map_eq_some_iff.1 h
        cases hout
        exact hspace.trans (.string hread)
      · next s' heq =>
        rw [heq] at hspace
        have hinner := skipSpace_leaves s'
        refine hspace.trans (Closes.container (e := ']') rfl rfl ?_)
        split at h
        · next hempty =>
          cases h
          rw [hempty] at hinner
          exact hinner.closed
        · exact hinner.closes (ih.items h)
      · next s' heq =>
        rw [heq] at hspace
        exact hspace.trans (Closes.container rfl rfl (ih.brace h))
      · next heq =>
        obtain ⟨⟨n, rest'⟩, hread, hout⟩ := Option.map_eq_some_iff.1 h
        cases hout
        exact hspace.trans (readNumeral_leaves hread)
    · rw [readItems] at h
      obtain ⟨⟨item, s'⟩, hvalue, h⟩ := Option.bind_eq_some_iff.1 h
      have hbehind := (ih.value hvalue).trans (skipSpace_leaves s')
      dsimp only at h
      split at h
      · next heq =>
        rw [heq] at hbehind
        obtain ⟨q, hq, hbal⟩ := ih.items h
        exact hbehind.closes ⟨',' :: q, by rw [hq]; rfl, hbal.cons rfl⟩
      · next heq =>
        cases h
        rw [heq] at hbehind
        exact hbehind.closed
      · cases h
    · have hspace := skipSpace_leaves s
      rw [readMembers] at h
      split at h
      · next s₁ hquote =>
        rw [hquote] at hspace
        obtain ⟨⟨name, s₂⟩, hname, h⟩ := Option.bind_eq_some_iff.1 h
        have hcolon := (hspace.trans (.string hname)).trans
          (skipSpace_leaves s₂)
        dsimp only at h
        split at h
        · next s₃ heq =>
          rw [heq] at hcolon
          obtain ⟨⟨value, s₄⟩, hvalue, h⟩ := Option.bind_eq_some_iff.1 h
          have hbehind := ((hcolon.trans (.cons rfl (.refl s₃))).trans
            (ih.value hvalue)).trans (skipSpace_leaves s₄)
          dsimp only at h
          split at h
          · next heq =>
            rw [heq] at hbehind
            obtain ⟨q, hq, hbal⟩ := ih.members h
            exact hbehind.closes
              ⟨',' :: q, by rw [hq]; rfl, hbal.cons rfl⟩
          · next heq =>
            cases h
            rw [heq] at hbehind
            exact hbehind.closed
          · cases h
        · cases h
      · cases h

/-- A text that is parsed is balanced. -/
theorem Tree.parse_balanced {t : Tree} (h : Tree.parse s = some t) :
    Balanced s := by
  unfold Tree.parse at h
  split at h
  · next rest hread =>
    split at h
    · next hempty =>
      have hleaves := ((readsBalanced _).value hread).trans
        (skipSpace_leaves rest)
      rw [List.isEmpty_iff.1 hempty] at hleaves
      obtain ⟨q, rfl, hq⟩ := hleaves
      rw [List.append_nil]
      exact hq
    · cases h
  · cases h

-- ================================================================ writing

theorem Quoted.escape (h : Quoted s) (c : Char) :
    Quoted (escape c ++ s) := by
  unfold Json.escape
  split
  · exact .escaped _ h
  split
  · exact .escaped _ h
  split
  · exact .escaped _ h
  split
  · exact .escaped _ h
  split
  · exact .escaped _ h
  split
  · exact .escaped _ h
  split
  · exact .escaped _ h
  split
  · have hdigit : ∀ n < 16, Mark.of (hexDigit n) = .neutral := by decide
    exact .escaped _ (.neutral rfl (.neutral rfl
      (.neutral (hdigit _ (by omega)) (.neutral (hdigit _ (by omega)) h))))
  · exact .cons ‹_› ‹_› h

theorem Quoted.escapes (cs : List Char) :
    Quoted (cs.flatMap Json.escape ++ ['"']) := by
  induction cs with
  | nil => rfl
  | cons c cs ih =>
    rw [List.flatMap_cons, List.append_assoc]
    exact ih.escape c

variable {v : Value} {vs : List Value} {ms : List (String × Value)}

theorem writeString_leaves (name : String) (rest : List Char) :
    Leaves (writeString name rest) rest := by
  refine ⟨'"' :: (name.toList.flatMap escape ++ ['"']), ?_,
    .string (.escapes name.toList)⟩
  unfold writeString
  rw [List.cons_append, List.cons_append, List.append_assoc]
  rfl

theorem writeItems_closes
    (h : ∀ w ∈ vs, ∀ rest, Leaves (w.write rest) rest)
    (rest : List Char) : Closes ']' (writeItems vs rest) rest := by
  induction vs with
  | nil => exact ⟨[], rfl, .nil⟩
  | cons v vs ih =>
    rw [List.forall_mem_cons] at h
    exact (Leaves.cons rfl (h.1 _)).closes (ih h.2)

theorem member_leaves (name : String)
    (h : ∀ rest, Leaves (v.write rest) rest) (rest : List Char) :
    Leaves (writeString name (':' :: v.write rest)) rest :=
  (writeString_leaves name _).trans (.cons rfl (h rest))

theorem writeMembers_closes
    (h : ∀ w ∈ ms, ∀ rest, Leaves (w.2.write rest) rest)
    (rest : List Char) : Closes '\x7d' (writeMembers ms rest) rest := by
  induction ms with
  | nil => exact ⟨[], rfl, .nil⟩
  | cons m ms ih =>
    rw [List.forall_mem_cons] at h
    exact (Leaves.cons rfl (member_leaves m.1 h.1 _)).closes (ih h.2)

/-- The text of an object from its opening brace to its closing one. -/
theorem write_object_closes (ms : List (String × Value))
    (h : ∀ w ∈ ms, ∀ rest, Leaves (w.2.write rest) rest)
    (rest : List Char) :
    ∃ s, (Value.object ms).write rest = '\x7b' :: s
      ∧ Closes '\x7d' s rest := by
  cases ms with
  | nil => exact ⟨_, rfl, [], rfl, .nil⟩
  | cons m ms =>
    rw [List.forall_mem_cons] at h
    exact ⟨_, rfl, (member_leaves m.1 h.1 _).closes
      (writeMembers_closes h.2 rest)⟩

/-- What is written of a value is balanced. -/
theorem Value.write_leaves (v : Value) (rest : List Char) :
    Leaves (v.write rest) rest := by
  induction v generalizing rest with
  | null =>
    exact .cons rfl (.cons rfl (.cons rfl (.cons rfl (.refl rest))))
  | bool b =>
    cases b
    · exact .cons rfl (.cons rfl (.cons rfl (.cons rfl
        (.cons rfl (.refl rest)))))
    · exact .cons rfl (.cons rfl (.cons rfl (.cons rfl (.refl rest))))
  | string s => exact writeString_leaves s rest
  | number n =>
    have hmarks : ∀ {cs : List Char}, (∀ c ∈ cs, Binary64.IsMark c) →
        Leaves (cs ++ rest) rest := fun h =>
      ⟨_, rfl, .neutral fun c hc => Mark.of_isMark (h c hc)⟩
    cases n with
    | real x => exact hmarks x.isMark_render
    | integer n =>
      cases n with
      | ofNat n => exact hmarks (Binary64.isMark_toDigits n)
      | negSucc n =>
        exact .cons rfl (hmarks (Binary64.isMark_toDigits (n + 1)))
  | array vs ih =>
    cases vs with
    | nil => exact Closes.container (e := ']') rfl rfl ⟨[], rfl, .nil⟩
    | cons v vs =>
      rw [List.forall_mem_cons] at ih
      exact Closes.container (e := ']') rfl rfl
        ((ih.1 _).closes (writeItems_closes ih.2 rest))
  | object ms ih =>
    obtain ⟨s, heq, hs⟩ := write_object_closes ms ih rest
    rw [heq]
    exact hs.container rfl rfl

/-- Wherever an object is read from its text, all of its text is read. -/
theorem readValue_object {fuel : Nat} {t : Tree} {rest rest' : List Char}
    (h : readValue fuel ((Value.object ms).write rest) = some (t, rest')) :
    rest' = rest := by
  obtain ⟨s, heq, q, rfl, hq⟩ :=
    write_object_closes ms (fun w _ => w.2.write_leaves) rest
  rw [heq] at h
  cases fuel with
  | zero => cases h
  | succ fuel =>
    rw [readValue, skipSpace_cons rfl] at h
    obtain ⟨q', hq', hbal⟩ := (readsBalanced fuel).brace h
    exact (Balanced.closed_unique rfl hq hbal hq').2.symm

/-- No rest of the text of an object is the text of anything. -/
theorem parse_rest {front back : List Char}
    (heq : (Value.object ms).write [] = front ++ back)
    (hfront : front ≠ []) : Tree.parse back = none := by
  by_cases hback : back = []
  · subst hback
    rfl
  · obtain ⟨s, hwrite, q, rfl, hq⟩ :=
      write_object_closes ms (fun w _ => w.2.write_leaves) []
    rw [hwrite] at heq
    refine Option.eq_none_iff_forall_ne_some.2 fun t ht => ?_
    exact not_balanced_rest rfl hq heq hfront hback (Tree.parse_balanced ht)

end LabLease.Json
