/-
What a line says first: what kind of frame it is, and for which request.

Not every line can be read. Something in it may be nested too deep, and
free parameters may hold numbers that mean nothing to a reader. But if a
line is read at all, what is read begins with what was written first. So
the number of a request, and of the answer to it, is never mistaken.
-/
import LabLease.Proofs.Json.Balance
import LabLease.Proofs.Wire.RoundTrip

namespace LabLease

namespace Json

variable {t : Tree} {s rest rest' : List Char} {ms : List (String × Value)}

/-- The tree of a member. -/
def memberTree (m : String × Value) : Option String × Tree :=
  (some m.1, m.2.tree)

/-- The members that were read before stay in front. -/
theorem readMembers_front {fuel : Nat}
    {before : List (Option String × Tree)}
    (h : readMembers fuel before s = some (t, rest)) :
    ∃ more, t = .object (before.reverse ++ more) := by
  induction fuel generalizing before s with
  | zero => cases h
  | succ fuel ih =>
    rw [readMembers] at h
    split at h
    · obtain ⟨⟨name, s₂⟩, -, h⟩ := Option.bind_eq_some_iff.1 h
      dsimp only at h
      split at h
      · obtain ⟨⟨value, s₄⟩, -, h⟩ := Option.bind_eq_some_iff.1 h
        dsimp only at h
        split at h
        · obtain ⟨more, rfl⟩ := ih h
          rw [List.reverse_cons, List.append_assoc]
          exact ⟨_, rfl⟩
        · cases h
          rw [List.reverse_cons]
          exact ⟨_, rfl⟩
        · cases h
      · cases h
    · cases h

/-- Members at the front are read as they were written, if they can be. -/
theorem readMembers_heading {head tail : List (String × Value)}
    {m : String × Value} (heq : m :: ms = head ++ tail)
    (hread : ∀ w ∈ head, w.2.ReadsBack) {fuel : Nat}
    {before : List (Option String × Tree)}
    (hfuel : 2 * (writeString m.1
        (':' :: m.2.write (writeMembers ms rest))).length
      ≤ fuel + 2 * rest.length)
    (h : readMembers fuel before
        (writeString m.1 (':' :: m.2.write (writeMembers ms rest)))
      = some (t, rest')) :
    ∃ more, t = .object (before.reverse ++ head.map memberTree ++ more) := by
  induction head generalizing m ms fuel before with
  | nil =>
    obtain ⟨more, rfl⟩ := readMembers_front h
    exact ⟨more, by rw [List.map_nil, List.append_nil]⟩
  | cons w head ih =>
    rw [List.cons_append] at heq
    obtain ⟨rfl, rfl⟩ := List.cons.inj heq
    rw [List.forall_mem_cons] at hread
    have hname := length_writeString m.1
      (':' :: m.2.write (writeMembers (head ++ tail) rest))
    rw [List.length_cons] at hname
    have hv := (m.2.suffix_write (writeMembers (head ++ tail) rest)).length_le
    have hms := length_writeMembers (head ++ tail) rest
    obtain ⟨fuel, rfl⟩ : ∃ n, fuel = n + 1 := ⟨fuel - 1, by omega⟩
    have hone := hread.1 fuel _ (ends_writeMembers (head ++ tail) rest)
      (by omega)
    rw [readMembers_member before m.1 hone] at h
    unfold readBehind at h
    cases hrest : head ++ tail with
    | nil =>
      rw [hrest, writeMembers, skipSpace_cons rfl] at h
      cases h
      obtain ⟨rfl, -⟩ := List.append_eq_nil_iff.1 hrest
      refine ⟨[], ?_⟩
      rw [List.reverse_cons, List.append_nil]
      rfl
    | cons m' ms' =>
      rw [hrest] at h hv hname hfuel hms
      rw [writeMembers, skipSpace_cons rfl] at h
      have hmark : (writeMembers (m' :: ms') rest).length
          = (writeString m'.1
              (':' :: m'.2.write (writeMembers ms' rest))).length + 1 := by
        rw [writeMembers, List.length_cons]
      obtain ⟨more, rfl⟩ := ih hrest.symm hread.2 (by omega) h
      refine ⟨more, ?_⟩
      rw [List.reverse_cons, List.append_assoc _ [_] _]
      rfl

/-- A text that is an object is read as its members, all of it. -/
theorem parse_members {m : String × Value}
    (h : Tree.parse ((Value.object (m :: ms)).write []) = some t) :
    ∃ fuel, 2 * (writeString m.1
          (':' :: m.2.write (writeMembers ms []))).length ≤ fuel
      ∧ readMembers fuel []
          (writeString m.1 (':' :: m.2.write (writeMembers ms [])))
        = some (t, []) := by
  unfold Tree.parse at h
  split at h
  · next t' rest hvalue =>
    split at h
    · cases h
      cases readValue_object hvalue
      refine ⟨_, ?_, (readValue_brace _ _).symm.trans hvalue⟩
      rw [Value.write, List.length_cons]
      omega
    · cases h
  · cases h

/-- Whatever an object is read as begins with its first members. -/
theorem parse_heading {head tail : List (String × Value)}
    (hread : ∀ w ∈ head, w.2.ReadsBack) (hne : head ≠ [])
    (h : Tree.parse ((Value.object (head ++ tail)).write []) = some t) :
    ∃ more, t = .object (head.map memberTree ++ more) := by
  obtain ⟨m, head', rfl⟩ := List.exists_cons_of_ne_nil hne
  obtain ⟨fuel, hfuel, hmembers⟩ := parse_members h
  exact readMembers_heading (List.cons_append ..).symm hread hfuel hmembers

/-- An object of a member that can be read and an object has these two
members and no others. -/
theorem parse_pair {m : String × Value} {name : String}
    (hread : m.2.ReadsBack)
    (h : Tree.parse ((Value.object [m, (name, .object ms)]).write [])
      = some t) :
    ∃ t', t = .object [memberTree m, (some name, t')] := by
  obtain ⟨fuel, hfuel, hmembers⟩ := parse_members h
  have hname := length_writeString m.1
    (':' :: m.2.write (writeMembers [(name, .object ms)] []))
  rw [List.length_cons] at hname
  have hv := (m.2.suffix_write
    (writeMembers [(name, .object ms)] [])).length_le
  obtain ⟨fuel, rfl⟩ : ∃ n, fuel = n + 1 := ⟨fuel - 1, by omega⟩
  have hone := hread fuel _ (ends_writeMembers [(name, .object ms)] [])
    (by omega)
  rw [readMembers_member [] m.1 hone] at hmembers
  unfold readBehind at hmembers
  rw [writeMembers, skipSpace_cons rfl] at hmembers
  cases fuel with
  | zero => cases hmembers
  | succ fuel =>
    -- the object behind the name ends where it was written to end
    have hnamed := (readMembers_named fuel _ name _).symm.trans hmembers
    obtain ⟨⟨t', rest⟩, hvalue, hbehind⟩ := Option.bind_eq_some_iff.1 hnamed
    cases readValue_object hvalue
    cases hbehind
    exact ⟨t', rfl⟩

variable {p q : Part} {more : List (Option String × Tree)}
  {m : String × Value} {names : List String}

/-- Members that are read at the front of a part. -/
theorem members_heading {parts : List (String × Part)}
    (htree : p.tree = .object (memberTree m :: more))
    (h : p.members? = some parts) :
    ∃ inside parts', parts = (m.1, ⟨m.2.tree, inside⟩) :: parts' := by
  unfold Part.members? at h
  rw [htree] at h
  obtain ⟨inside, -, hmembers⟩ := Option.bind_eq_some_iff.1 h
  rw [List.mapM_cons] at hmembers
  obtain ⟨parts', -, hparts⟩ := Option.bind_eq_some_iff.1
    ((Option.bind_some ..).symm.trans hmembers)
  exact ⟨inside, parts', (Option.some.inj hparts).symm⟩

/-- A field that stands in front is the field of its name. -/
theorem fields_heading {f : Part.Fields}
    (htree : p.tree = .object (memberTree m :: more))
    (hname : names.contains m.1 = true) (h : p.fields? names = some f) :
    ∃ inside, f.given.lookup m.1 = some ⟨m.2.tree, inside⟩ := by
  unfold Part.fields? at h
  rw [htree] at h
  obtain ⟨parts, hparts, hgiven⟩ := Option.bind_eq_some_iff.1 h
  obtain ⟨inside, parts', rfl⟩ := members_heading htree hparts
  dsimp only at hgiven
  split at hgiven
  · cases hgiven
    refine ⟨inside, ?_⟩
    dsimp only
    rw [List.filter_cons_of_pos (by exact hname), List.lookup_cons_self]
  · cases hgiven

/-- A tag that stands in front tells the variant. -/
theorem variant_heading {tag name : String} {r : String × Part}
    (htree : p.tree = .object (memberTree (tag, .string name) :: more))
    (h : p.variant? tag names = some r) :
    r.1 = name ∧ r.2.tree = .object (more.filter (·.1 ≠ some tag)) := by
  unfold Part.variant? at h
  rw [htree] at h
  obtain ⟨parts, hparts, h⟩ := Option.bind_eq_some_iff.1 h
  obtain ⟨inside, parts', rfl⟩ := members_heading htree hparts
  have htag : ∀ t : Part, ((tag, t) :: parts').filter (fun m => m.1 = tag)
      = (tag, t) :: parts'.filter (fun m => m.1 = tag) := fun t =>
    List.filter_cons_of_pos (by simp)
  dsimp only at h
  rw [htag] at h
  split at h
  · next heq =>
    obtain ⟨heq, -⟩ := List.cons.inj heq
    cases heq
    obtain ⟨name', hname, h⟩ := Option.bind_eq_some_iff.1 h
    have hsame : name' = name := by
      change (if _ then some name else none) = _ at hname
      split at hname
      · exact (Option.some.inj hname).symm
      · cases hname
    split at h
    · cases h
      refine ⟨hsame, ?_⟩
      dsimp only
      rw [List.filter_cons_of_neg (by simp [memberTree])]
    · cases h
  · cases h

/-- The literal of an integer denotes no other number. -/
theorem eq_of_number?_ofInt {n i : Int}
    (h : (Numeral.ofInt n).number? = some (.integer i)) : i = n := by
  unfold Numeral.number? at h
  split at h
  · next j hj =>
    cases h
    exact Numeral.eq_of_integer?_ofInt hj
  · obtain ⟨x, -, hx⟩ := Option.map_eq_some_iff.1 h
    cases hx

/-- The number in front of two members is the number of its name. -/
theorem value_pair {t' : Tree} {n room : Nat} {v : Value}
    (h : Tree.value? room (.object [memberTree ("id", .nat n),
      (some "request", t')]) = some v) :
    ∃ i w, v = .object [("id", .number i), ("request", w)]
      ∧ (Numeral.ofInt n).number? = some i := by
  cases room with
  | zero => cases h
  | succ room =>
    obtain ⟨ms, hms, rfl⟩ := Option.map_eq_some_iff.1 h
    simp only [memberTree, Tree.valueMembers?, Option.bind_eq_bind,
      Option.bind_some] at hms
    obtain ⟨u, hu, hms⟩ := Option.bind_eq_some_iff.1 hms
    obtain ⟨tail, htail, hms⟩ := Option.bind_eq_some_iff.1 hms
    obtain ⟨w, -, htail⟩ := Option.bind_eq_some_iff.1 htail
    cases htail
    cases hms
    obtain ⟨i, hi, rfl⟩ := Option.map_eq_some_iff.1 hu
    have hascending : [("id", Value.number i), ("request", w)].Pairwise
        fun a b => compare a.1 b.1 = .lt := by
      rw [List.pairwise_pair]
      show compare "id" "request" = .lt
      decide
    exact ⟨i, w, congrArg (fun t => Value.object t.entries)
      (Table.ofList_entries ⟨_, hascending⟩), hi⟩

/-- A number that stands there is the one that is read. -/
theorem eq_of_word {n k : Nat} {r : Reading}
    (h : Part.word? ⟨(Value.nat n).tree, r⟩ = some k) : k = n := by
  obtain ⟨i, hint, rfl⟩ := Option.map_eq_some_iff.1 h
  have htree : Part.tree ⟨(Value.nat n).tree, r⟩ = .number (.ofInt n) := rfl
  rw [Part.int?_number htree] at hint
  obtain ⟨j, hj, hin⟩ := Option.bind_eq_some_iff.1 hint
  cases Numeral.eq_of_integer?_ofInt hj
  split at hin
  · cases hin
    rfl
  · cases hin

/-- The number in front of a record. -/
theorem eq_of_required {f : Part.Fields} {name : String} {n k : Nat}
    (htree : p.tree = .object (memberTree (name, .nat n) :: more))
    (hname : names.contains name = true) (hf : p.fields? names = some f)
    (h : f.required name Part.word? = some k) : k = n := by
  obtain ⟨inside, hlookup⟩ := fields_heading htree hname hf
  unfold Part.Fields.required at h
  rw [hlookup] at h
  exact eq_of_word h

end Json

open Json

variable {α : Type} {read : Part → Option α} {x : α}
  {ms : List (String × Value)}

/-- What is read from the line of an object is read from a tree. -/
theorem tree_of_parseFrame
    (h : parseFrame read (Value.object ms).render = .ok x) :
    ∃ t, Tree.parse ((Value.object ms).write []) = some t
      ∧ read ⟨t, .direct nestingLimit⟩ = some x := by
  unfold parseFrame at h
  rw [Value.toList_render, trim_object] at h
  split at h
  · cases h
  · split at h
    · next y hparse =>
      cases h
      exact Option.bind_eq_some_iff.1 hparse
    · cases h

-- =============================================================== requests

namespace RequestFrame

variable {f g : RequestFrame}

/-- A request is read from its two fields. -/
theorem fields_of_ofJson? {p : Part} (h : ofJson? p = some g) :
    ∃ fields, p.fields? ["id", "request"] = some fields
      ∧ fields.required "id" Part.word? = some g.id := by
  obtain ⟨fields, hfields, h⟩ := Option.bind_eq_some_iff.1 h
  obtain ⟨id, hid, h⟩ := Option.bind_eq_some_iff.1 h
  obtain ⟨op, -, h⟩ := Option.bind_eq_some_iff.1 h
  cases h
  exact ⟨fields, hfields, hid⟩

/-- The tree of a request, whatever it asks for. -/
theorem tree_of_parse {t : Tree}
    (h : Tree.parse (f.json.write []) = some t) :
    ∃ t', t = .object [memberTree ("id", .nat f.id),
      (some "request", t')] :=
  parse_pair (Value.readsBack_integer f.id) h

/-- A request that can be read at all is read with its number. -/
theorem id_of_parse (h : parseFrame ofJson? f.json.render = .ok g) :
    g.id = f.id := by
  obtain ⟨t, hparse, hread⟩ := tree_of_parseFrame h
  obtain ⟨t', rfl⟩ := tree_of_parse hparse
  obtain ⟨fields, hfields, hid⟩ := fields_of_ofJson? hread
  exact eq_of_required rfl rfl hfields hid

/-- And one that cannot be read is answered with its number, if at
all. -/
theorem salvageId_json (f : RequestFrame) :
    salvageId f.json.render = f.id ∨ salvageId f.json.render = 0 := by
  have htrim : Text.trim f.json.render.toList = f.json.write [] := by
    rw [Value.toList_render]
    exact trim_object _
  unfold salvageId
  rw [htrim]
  split
  · next v hv =>
    obtain ⟨t, hparse, hvalue⟩ := Option.bind_eq_some_iff.1 hv
    obtain ⟨t', rfl⟩ := tree_of_parse hparse
    obtain ⟨i, w, rfl, hi⟩ := value_pair hvalue
    split
    · next n hid =>
      cases hid
      exact Or.inl (Int.ofNat.inj (eq_of_number?_ofInt hi))
    · exact Or.inr rfl
  · exact Or.inr rfl

end RequestFrame

-- ================================================================ frames

namespace ServerFrame

variable {p : Part} {g : ServerFrame} {more : List (Option String × Tree)}

/-- A frame with the tag and the number of an answer is one. -/
theorem reply_of_heading {name : String} {id : Nat}
    (hname : name = "response" ∨ name = "error")
    (htree : p.tree = .object (memberTree ("type", .string name)
      :: memberTree ("id", .nat id) :: more))
    (h : ofJson? p = some g) : ∃ r, Inbound.ofFrame g = .reply id r := by
  obtain ⟨⟨name', q⟩, hvariant, h⟩ := Option.bind_eq_some_iff.1 h
  obtain ⟨heq, hq⟩ := variant_heading htree hvariant
  rw [List.filter_cons_of_pos (by simp [memberTree])] at hq
  dsimp only at heq hq
  subst heq
  rcases hname with rfl | rfl
  · obtain ⟨fields, hfields, h⟩ := Option.bind_eq_some_iff.1 h
    obtain ⟨k, hid, h⟩ := Option.bind_eq_some_iff.1 h
    obtain ⟨reply, -, h⟩ := Option.bind_eq_some_iff.1 h
    cases h
    cases eq_of_required hq rfl hfields hid
    exact ⟨_, rfl⟩
  · obtain ⟨fields, hfields, h⟩ := Option.bind_eq_some_iff.1 h
    obtain ⟨k, hid, h⟩ := Option.bind_eq_some_iff.1 h
    obtain ⟨kind, -, h⟩ := Option.bind_eq_some_iff.1 h
    obtain ⟨message, -, h⟩ := Option.bind_eq_some_iff.1 h
    cases h
    cases eq_of_required hq rfl hfields hid
    exact ⟨_, rfl⟩

/-- A frame with the tag of a push is one. -/
theorem push_of_heading {name : String}
    (hname : name = "event-batch" ∨ name = "resync"
      ∨ name = "shutdown-request")
    (htree : p.tree = .object (memberTree ("type", .string name) :: more))
    (h : ofJson? p = some g) : ∃ q, Inbound.ofFrame g = .push q := by
  obtain ⟨⟨name', q⟩, hvariant, h⟩ := Option.bind_eq_some_iff.1 h
  obtain ⟨heq, -⟩ := variant_heading htree hvariant
  dsimp only at heq
  subst heq
  rcases hname with rfl | rfl | rfl
  all_goals
    obtain ⟨fields, -, h⟩ := Option.bind_eq_some_iff.1 h
    obtain ⟨x, -, h⟩ := Option.bind_eq_some_iff.1 h
    cases h
    exact ⟨_, rfl⟩

/-- The line of an answer is read as an answer to the same request. -/
theorem reply_of_parse {id : Nat} {r : Except Refusal Reply}
    (h : parseFrame ofJson? (ofResult id r).json.render = .ok g) :
    ∃ r', Inbound.ofFrame g = .reply id r' := by
  have hread : ∀ name : String, ∀ m ∈ [("type", Value.string name),
      ("id", Value.nat id)], m.2.ReadsBack := fun name => by
    rw [List.forall_mem_cons, List.forall_mem_singleton]
    exact ⟨Value.readsBack_string name, Value.readsBack_integer id⟩
  cases r with
  | ok reply =>
    obtain ⟨t, hparse, hg⟩ := tree_of_parseFrame h
    obtain ⟨more, rfl⟩ := parse_heading (hread "response")
      (List.cons_ne_nil _ _) hparse
    exact reply_of_heading (Or.inl rfl) rfl hg
  | error e =>
    obtain ⟨t, hparse, hg⟩ := tree_of_parseFrame h
    obtain ⟨more, rfl⟩ := parse_heading (hread "error")
      (List.cons_ne_nil _ _) hparse
    exact reply_of_heading (Or.inr rfl) rfl hg

/-- And the line of a push as a push. -/
theorem push_of_parse {p : Push}
    (h : parseFrame ofJson? (ofPush p).json.render = .ok g) :
    ∃ q, Inbound.ofFrame g = .push q := by
  have hread : ∀ name : String, ∀ m ∈ [("type", Value.string name)],
      m.2.ReadsBack := fun name => by
    rw [List.forall_mem_singleton]
    exact Value.readsBack_string name
  cases p with
  | events events =>
    obtain ⟨t, hparse, hg⟩ := tree_of_parseFrame h
    obtain ⟨more, rfl⟩ := parse_heading (hread "event-batch")
      (List.cons_ne_nil _ _) hparse
    exact push_of_heading (Or.inl rfl) rfl hg
  | resync snapshot =>
    obtain ⟨t, hparse, hg⟩ := tree_of_parseFrame h
    obtain ⟨more, rfl⟩ := parse_heading (hread "resync")
      (List.cons_ne_nil _ _) hparse
    exact push_of_heading (Or.inr (Or.inl rfl)) rfl hg
  | shutdown reason =>
    obtain ⟨t, hparse, hg⟩ := tree_of_parseFrame h
    obtain ⟨more, rfl⟩ := parse_heading (hread "shutdown-request")
      (List.cons_ne_nil _ _) hparse
    exact push_of_heading (Or.inr (Or.inr rfl)) rfl hg

end ServerFrame

end LabLease
