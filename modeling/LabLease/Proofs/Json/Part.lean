/-
What the readers get out of a text that was written: for each shape of
the wire format the law that its reader undoes its writer.

# However it is read

A part is read straight from the text, with so much room for containers
left, or out of a piece that was taken in whole. What is written is
within the limit on nesting, so a reader gets the same either way
(`Reads`), and the laws need no word on the reading.
-/
import Mathlib.Data.List.Basic
import LabLease.Json.Part
import LabLease.Proofs.Json.Writer

namespace LabLease.Json

/-- A part of a written text that holds a value, and room for it. -/
structure Part.Holds (p : Part) (v : Value) : Prop where
  tree : p.tree = v.tree
  plain : v.isPlain = true
  shallow : v.depth ≤ nestingLimit
  room : ∀ room, p.reading = .direct room → v.depth ≤ room

/-- A reader gets `x` out of wherever `v` was written. -/
def Reads {α : Type} (read : Part → Option α) (v : Value) (x : α) :
    Prop :=
  ∀ p : Part, p.Holds v → read p = some x

variable {α β : Type} {read : Part → Option α} {p : Part} {v : Value}

-- =============================================================== scalars

theorem reads_text (s : String) : Reads Part.text? (.string s) s := by
  intro p h
  unfold Part.text?
  rw [h.tree]
  rfl

theorem reads_bool (b : Bool) : Reads Part.bool? (.bool b) b := by
  intro p h
  unfold Part.bool?
  rw [h.tree]
  rfl

theorem Part.int?_number {n : Numeral} (h : p.tree = .number n)
    (low high : Int) :
    p.int? low high = n.integer?.bind fun i =>
      if low ≤ i ∧ i ≤ high then some i else none := by
  unfold Part.int?
  rw [h]
  dsimp only
  cases n.integer? <;> rfl

theorem reads_int {low high n : Int} (hlow : low ≤ n) (hhigh : n ≤ high) :
    Reads (Part.int? low high) (.int n) n := by
  intro p h
  have htree : p.tree = .number (.ofInt n) := h.tree
  rw [Part.int?_number htree, Numeral.integer?_ofInt h.plain,
    Option.bind_some]
  exact if_pos ⟨hlow, hhigh⟩

theorem reads_unsigned {bits n : Nat} (h : n < twoTo bits) :
    Reads (Part.unsigned? bits) (.nat n) n := by
  intro p hp
  have hint : p.int? 0 ((twoTo bits : Int) - 1) = some (n : Int) :=
    reads_int (by omega) (by omega) p hp
  unfold Part.unsigned?
  rw [hint]
  rfl

/-- A written number is one of 64 bits. -/
theorem reads_word (n : Nat) : Reads Part.word? (.nat n) n := by
  intro p hp
  refine reads_unsigned ?_ p hp
  have hword : Number.isWord (.integer n) = true := hp.plain
  unfold Number.isWord at hword
  rw [Bool.and_eq_true, decide_eq_true_eq, decide_eq_true_eq] at hword
  exact Int.ofNat_lt.1 hword.2

/-- Free values come back if the members in them are in order. -/
theorem reads_value (h : v.isOrdered = true) : Reads Part.value? v v := by
  intro p hp
  have hvalue : ∀ room, v.depth ≤ room → p.tree.value? room = some v := by
    intro room hroom
    obtain ⟨w, hw, hsame⟩ := Value.value?_tree hp.plain hroom
    rw [hp.tree, hw, hsame h]
  unfold Part.value?
  split
  · next room hr => exact hvalue room (hp.room room hr)
  · exact hvalue nestingLimit hp.shallow

/-- A word out of some, each of which stands for something else. -/
theorem reads_choice {choices : List (String × α)} {s : String} {x : α}
    (h : choices.lookup s = some x) :
    Reads (Part.choice? choices) (.string s) x := by
  intro p hp
  unfold Part.choice?
  rw [hp.tree]
  exact h

theorem Reads.map {x : α} (h : Reads read v x) (f : α → β) :
    Reads (fun p => (read p).map f) v (f x) := by
  intro p hp
  show (read p).map f = _
  rw [h p hp]
  rfl

theorem tree_ne_null (h : v ≠ .null) : v.tree ≠ .null := by
  cases v with
  | null => exact absurd rfl h
  | number n => cases n <;> exact nofun
  | _ => exact nofun

/-- What is there is not `null`. -/
theorem reads_optional {f : α → Value} {o : Option α}
    (h : ∀ x, o = some x → f x ≠ .null ∧ Reads read (f x) x) :
    Reads (Part.optional? read) (.option f o) o := by
  intro p hp
  unfold Part.optional?
  cases o with
  | none =>
    rw [hp.tree]
    rfl
  | some x =>
    obtain ⟨hne, hread⟩ := h x rfl
    have htree : p.tree ≠ .null := hp.tree ▸ tree_ne_null hne
    split
    · next heq => exact absurd heq htree
    · rw [hread p hp]
      rfl

-- ============================================================ containers

theorem mapM_eq_some {f : α → Option β} {g : α → β} {xs : List α}
    (h : ∀ x ∈ xs, f x = some (g x)) : xs.mapM f = some (xs.map g) := by
  induction xs with
  | nil => rfl
  | cons x xs ih =>
    rw [List.forall_mem_cons] at h
    rw [List.mapM_cons, h.1, ih h.2]
    rfl

/-- The members of an object that can be opened. -/
theorem Part.members_of_tree {ms : List (String × Value)}
    {inside : Reading} (htree : p.tree = (Value.object ms).tree)
    (h : p.reading.inside = some inside) :
    p.members? = some (ms.map fun m => (m.1, ⟨m.2.tree, inside⟩)) := by
  unfold members?
  rw [htree, Value.tree_object]
  dsimp only
  rw [h, Option.bind_eq_bind, Option.bind_some, List.mapM_map]
  exact mapM_eq_some fun _ _ => rfl

namespace Part.Holds

/-- One container can be opened, and what it holds is held inside. -/
theorem inside {n : Nat} (h : p.Holds v) (hdepth : v.depth = n + 1) :
    ∃ inside, p.reading.inside = some inside
      ∧ ∀ w : Value, w.isPlain = true → w.depth ≤ n →
        Part.Holds ⟨w.tree, inside⟩ w := by
  have hshallow := h.shallow
  cases hr : p.reading with
  | held =>
    refine ⟨.held, rfl, fun w hw hle => ⟨rfl, hw, by omega, nofun⟩⟩
  | direct room =>
    have hroom := h.room room hr
    obtain ⟨room, rfl⟩ : ∃ n, room = n + 1 := ⟨room - 1, by omega⟩
    refine ⟨.direct room, rfl, fun w hw hle => ⟨rfl, hw, by omega, ?_⟩⟩
    intro room' heq
    cases heq
    omega

theorem items {vs : List Value} (h : p.Holds (.array vs)) :
    ∃ inside, p.items? = some (vs.map fun v => ⟨v.tree, inside⟩)
      ∧ ∀ v ∈ vs, Part.Holds ⟨v.tree, inside⟩ v := by
  obtain ⟨inside, hinside, hholds⟩ :=
    h.inside (n := Value.depthItems vs) rfl
  refine ⟨inside, ?_, fun v hv => ?_⟩
  · unfold items?
    rw [h.tree, Value.tree_array]
    dsimp only
    rw [hinside, Option.bind_eq_bind, Option.bind_some, List.map_map]
    rfl
  · exact hholds v (Value.isPlain_array.1 h.plain v hv)
      (Value.depth_le_items hv)

theorem members {ms : List (String × Value)} (h : p.Holds (.object ms)) :
    ∃ inside, p.members?
        = some (ms.map fun m => (m.1, ⟨m.2.tree, inside⟩))
      ∧ ∀ m ∈ ms, Part.Holds ⟨m.2.tree, inside⟩ m.2 := by
  obtain ⟨inside, hinside, hholds⟩ :=
    h.inside (n := Value.depthMembers ms) rfl
  refine ⟨inside, members_of_tree h.tree hinside, fun m hm => ?_⟩
  exact hholds m.2 (Value.isPlain_object.1 h.plain m hm)
    (Value.depth_le_members hm)

end Part.Holds

theorem reads_list {f : α → Value} {xs : List α}
    (h : ∀ x ∈ xs, Reads read (f x) x) :
    Reads (Part.list? read) (.list f xs) xs := by
  intro p hp
  obtain ⟨inside, hitems, hholds⟩ := hp.items
  unfold Part.list?
  rw [hitems, Option.bind_eq_bind, Option.bind_some, List.map_map,
    List.mapM_map]
  have hread : xs.mapM (fun x => read ⟨(f x).tree, inside⟩)
      = some (xs.map fun x => x) :=
    mapM_eq_some fun x hx => h x hx _ (hholds _ (List.mem_map_of_mem hx))
  rw [List.map_id'] at hread
  exact hread

/-- An object is read as the table that it was written from. -/
theorem reads_table {f : α → Value} {t : Table String α}
    (h : ∀ e ∈ t.entries, Reads read (f e.2) e.2) :
    Reads (Part.table? read) (.table f t) t := by
  intro p hp
  obtain ⟨inside, hmembers, hholds⟩ := hp.members
  unfold Part.table?
  rw [hmembers, Option.bind_eq_bind, Option.bind_some, List.map_map,
    List.mapM_map]
  have hread : t.entries.mapM
        (fun e => (read ⟨(f e.2).tree, inside⟩).map (e.1, ·))
      = some (t.entries.map fun e => e) :=
    mapM_eq_some fun e he => by
      rw [h e he _ (hholds _ (List.mem_map_of_mem he))]
      rfl
  rw [List.map_id'] at hread
  refine (congrArg (Option.bind · _) hread).trans ?_
  exact congrArg some (Table.ofList_entries t)

-- =============================================================== records

theorem lookup_of_mem {l : List (String × α)} {name : String} {x : α}
    (hnd : (l.map (·.1)).Nodup) (h : (name, x) ∈ l) :
    l.lookup name = some x := by
  induction l with
  | nil => cases h
  | cons e l ih =>
    rw [List.map_cons, List.nodup_cons] at hnd
    rw [List.lookup_cons]
    rcases List.mem_cons.1 h with rfl | hmem
    · rw [beq_self_eq_true]
    · have hne : name ≠ e.1 := by
        rintro rfl
        exact hnd.1 (List.mem_map.2 ⟨_, hmem, rfl⟩)
      rw [beq_false_of_ne hne]
      exact ih hnd.2 hmem

namespace Part

/-- Among the fields given there is one of this name with this value. -/
def Fields.Gives (f : Fields) (name : String) (v : Value) : Prop :=
  ∃ p, f.given.lookup name = some p ∧ p.Holds v

/-- A record that was written is read with the fields that it has. -/
theorem Holds.record {ms : List (String × Value)}
    (h : p.Holds (.object ms)) (hnd : (ms.map (·.1)).Nodup) :
    ∃ f, p.fields? (ms.map (·.1)) = some f
      ∧ ∀ m ∈ ms, f.Gives m.1 m.2 := by
  obtain ⟨inside, hmembers, hholds⟩ := h.members
  have hnames : (ms.map fun m => ((m.1, ⟨m.2.tree, inside⟩)
      : String × Part)).map (·.1) = ms.map (·.1) := List.map_map
  have hall : (ms.map fun m => ((m.1, ⟨m.2.tree, inside⟩)
        : String × Part)).filter (fun m => (ms.map (·.1)).contains m.1)
      = ms.map fun m => (m.1, ⟨m.2.tree, inside⟩) := by
    refine List.filter_eq_self.2 fun m hm => List.contains_iff_mem.2 ?_
    rw [← hnames]
    exact List.mem_map_of_mem hm
  refine ⟨⟨ms.map fun m => (m.1, ⟨m.2.tree, inside⟩), false⟩, ?_,
    fun m hm => ⟨_, ?_, hholds m hm⟩⟩
  · unfold fields?
    rw [h.tree, Value.tree_object]
    dsimp only
    rw [hmembers, Option.bind_eq_bind, Option.bind_some, hall, hnames,
      if_pos hnd]
  · exact lookup_of_mem (hnames.symm ▸ hnd)
      (List.mem_map.2 ⟨m, hm, rfl⟩)

namespace Fields.Gives

variable {f : Fields} {name : String} {x : α}

theorem required (h : f.Gives name v) (hread : Reads read v x) :
    f.required name read = some x := by
  obtain ⟨p, hp, hholds⟩ := h
  unfold Fields.required
  rw [hp]
  exact hread p hholds

theorem withDefault (h : f.Gives name v) (default : α)
    (hread : Reads read v x) :
    f.withDefault name default read = some x := by
  obtain ⟨p, hp, hholds⟩ := h
  unfold Fields.withDefault
  rw [hp]
  exact hread p hholds

theorem nullable {o : Option α} (h : f.Gives name v)
    (hread : Reads (optional? read) v o) :
    f.nullable name read = some o := by
  obtain ⟨p, hp, hholds⟩ := h
  unfold Fields.nullable
  rw [hp]
  exact hread p hholds

end Fields.Gives

-- ============================================================== variants

theorem Holds.isSound (h : p.Holds v) : p.isSound = true := by
  unfold Part.isSound
  split
  · next room hr =>
    rw [h.tree]
    exact Value.isSound_tree h.plain (h.room room hr)
  · rfl

section Tag

variable {κ : Type} [DecidableEq κ] {k : κ} {l : List (κ × α)}

/-- Of the members of an object the tag is the one of its name. -/
theorem filter_tag (h : k ∉ l.map (·.1)) (x : α) :
    ((k, x) :: l).filter (fun m => m.1 = k) = [(k, x)] := by
  have hrest : l.filter (fun m => m.1 = k) = [] :=
    List.filter_eq_nil_iff.2 fun m hm heq =>
      h (List.mem_map.2 ⟨m, hm, of_decide_eq_true heq⟩)
  rw [List.filter_cons, if_pos (decide_eq_true rfl), hrest]

/-- And the others are left. -/
theorem filter_not_tag (h : k ∉ l.map (·.1)) (x : α) :
    ((k, x) :: l).filter (fun m => m.1 ≠ k) = l := by
  have hrest : l.filter (fun m => m.1 ≠ k) = l :=
    List.filter_eq_self.2 fun m hm => decide_eq_true fun heq =>
      h (List.mem_map.2 ⟨m, hm, heq⟩)
  rw [List.filter_cons, if_neg (by simp), hrest]

end Tag

/-- A variant that was written under a tag is found under it, and its
fields are what is left. -/
theorem Holds.variant {tag name : String} {names : List String}
    {ms : List (String × Value)}
    (h : p.Holds (.object ((tag, .string name) :: ms)))
    (hname : names.contains name = true)
    (htag : tag ∉ ms.map (·.1)) :
    ∃ q, p.variant? tag names = some (name, q) ∧ q.Holds (.object ms) := by
  obtain ⟨inside, hmembers, hholds⟩ := h.members
  -- one member has the name of the tag, and the others are sound
  have htagged : (((tag, .string name) :: ms).map fun m =>
      ((m.1, ⟨m.2.tree, inside⟩) : String × Part)).filter
        (fun m => m.1 = tag) = [(tag, ⟨.string (some name), inside⟩)] :=
    filter_tag (by rwa [List.map_map]) _
  have hleft : (((tag, .string name) :: ms).map fun m =>
      (some m.1, m.2.tree)).filter (fun m => m.1 ≠ some tag)
        = ms.map fun m => (some m.1, m.2.tree) := by
    refine filter_not_tag ?_ _
    rw [List.map_map]
    exact fun hmem =>
      have ⟨m, hm, heq⟩ := List.mem_map.1 hmem
      htag (List.mem_map.2 ⟨m, hm, Option.some.inj heq⟩)
  have hsound : (((tag, .string name) :: ms).map fun m =>
      ((m.1, ⟨m.2.tree, inside⟩) : String × Part)).all
        (fun m => m.1 = tag || m.2.isSound) = true := by
    refine List.all_eq_true.2 fun m hm => ?_
    obtain ⟨n, hn, rfl⟩ := List.mem_map.1 hm
    rw [(hholds n hn).isSound, Bool.or_true]
  refine ⟨⟨(Value.object ms).tree, .held⟩, ?_, rfl,
    Value.isPlain_object.2 fun m hm => Value.isPlain_object.1 h.plain m
      (List.mem_cons_of_mem _ hm), ?_, nofun⟩
  · unfold variant?
    rw [h.tree, Value.tree_object, Value.tree_object]
    dsimp only
    rw [hmembers, Option.bind_eq_bind, Option.bind_some, htagged, hleft,
      hsound]
    unfold variantName?
    dsimp only
    rw [if_pos hname]
    rfl
  · have hshallow := h.shallow
    have hdepth : (Value.object ((tag, .string name) :: ms)).depth
        = max 0 (Value.depthMembers ms) + 1 := rfl
    rw [Nat.zero_max] at hdepth
    exact hdepth ▸ hshallow

/-- No variant is found where there is no room for all of it: what is not
its tag is taken in whole. -/
theorem depth_le_of_variant {tag : String} {names : List String}
    {room : Nat} {ms : List (String × Value)} {r : String × Part}
    (h : variant? tag names ⟨(Value.object ms).tree, .direct room⟩
      = some r) : (Value.object ms).depth ≤ room := by
  unfold variant? at h
  dsimp only at h
  rw [Value.tree_object] at h
  obtain ⟨parts, hparts, h⟩ := Option.bind_eq_some_iff.1 h
  cases room with
  | zero => cases hparts
  | succ room =>
    rw [← Value.tree_object, members_of_tree rfl rfl] at hparts
    cases hparts
    split at h
    · next heq =>
      obtain ⟨name, hname, h⟩ := Option.bind_eq_some_iff.1 h
      split at h
      · next hall =>
        refine Nat.succ_le_succ (Value.depthMembers_le fun m hm => ?_)
        have hmem := List.mem_map_of_mem (f := fun m : String × Value =>
          ((m.1, ⟨m.2.tree, .direct room⟩) : String × Part)) hm
        rcases (Bool.or_eq_true ..).mp (List.all_eq_true.1 hall _ hmem)
          with htag | hsound
        · -- the tag itself is a word
          have hfilter := List.mem_filter
            (p := fun m : String × Part => m.1 = tag).2 ⟨hmem, htag⟩
          rw [heq] at hfilter
          cases List.mem_singleton.1 hfilter
          cases hv : m.2 with
          | array vs =>
            rw [hv] at hname
            cases hname
          | object ms =>
            rw [hv] at hname
            cases hname
          | _ => exact Nat.zero_le room
        · exact Value.depth_le_of_isSound hsound
      · cases h
    · obtain ⟨name, hname, -⟩ := Option.bind_eq_some_iff.1 h
      cases hname

end Part

-- =============================================== readers of the wire types

theorem bind_of {o : Option α} {f : α → Option β} {x : α} {y : β}
    (h : o = some x) (hf : f x = some y) : o.bind f = some y := by
  rw [h]
  exact hf

variable {ms : List (String × Value)} {fields names : List String}
  {build : Part.Fields → Option α} {x : α}

/-- A reader that takes the fields of a record and goes on from there. -/
theorem reads_record (hread : ∀ p, read p = (p.fields? fields).bind build)
    (hfields : ms.map (·.1) = fields) (hnd : fields.Nodup)
    (h : ∀ f : Part.Fields, (ms.Forall fun m => f.Gives m.1 m.2) →
      build f = some x) : Reads read (.object ms) x := by
  intro p hp
  subst hfields
  obtain ⟨f, hf, hgives⟩ := hp.record hnd
  rw [hread p]
  exact bind_of hf (h f (List.forall_iff_forall_mem.2 hgives))

variable {tag name : String} {pick : String × Part → Option α}

/-- A reader that looks at the tag and goes on with what is under it. -/
theorem reads_variant (hread : ∀ p, read p = (p.variant? tag names).bind pick)
    (hname : names.contains name = true) (htag : tag ∉ ms.map (·.1))
    (h : Reads (fun q => pick (name, q)) (.object ms) x) :
    Reads read (.object ((tag, .string name) :: ms)) x := by
  intro p hp
  obtain ⟨q, hq, hholds⟩ := hp.variant hname htag
  rw [hread p]
  exact bind_of hq (h q hholds)

/-- And what is under it is a record. -/
theorem reads_case (name : String)
    (hread : ∀ p, read p = (p.variant? tag names).bind pick)
    (hpick : ∀ q, pick (name, q) = (q.fields? fields).bind build)
    (hfields : ms.map (·.1) = fields)
    (hnames : names.contains name = true ∧ tag ∉ fields ∧ fields.Nodup)
    (h : ∀ f : Part.Fields, (ms.Forall fun m => f.Gives m.1 m.2) →
      build f = some x) :
    Reads read (.object ((tag, .string name) :: ms)) x :=
  reads_variant hread hnames.1 (hfields ▸ hnames.2.1)
    (reads_record hpick hfields hnames.2.2 h)

/-- And nothing is under it. -/
theorem reads_bare (name : String)
    (hread : ∀ p, read p = (p.variant? tag names).bind pick)
    (hpick : ∀ q, pick (name, q) = q.noFields?.map fun _ => x)
    (hname : names.contains name = true) :
    Reads read (.object [(tag, .string name)]) x := by
  refine reads_variant hread hname List.not_mem_nil fun q hq => ?_
  have hnone : q.noFields? = some () := by
    unfold Part.noFields?
    rw [hq.tree, Value.tree_object]
  refine (hpick q).trans ?_
  rw [hnone]
  rfl

end LabLease.Json
