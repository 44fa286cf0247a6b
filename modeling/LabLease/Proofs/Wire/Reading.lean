/-
What is read is proper, whoever wrote it: patterns have been read from
texts, free parameters are in the order of their names, and a priority has
the bits that it may have. So of a request that was read at all nothing
has to be asked (`RequestFrame.proper_of_parse`).
-/
import LabLease.Proofs.Wire.Frame

namespace LabLease

open Json

-- =============================================================== readers

/-- Whatever is read is of some kind. -/
structure Yields {α : Type} (Q : α → Prop) (o : Option α) : Prop where
  read : ∀ x, o = some x → Q x

namespace Yields

variable {α β : Type} {Q : α → Prop} {R : β → Prop} {o : Option α}

/-- A value of the kind may be read. -/
theorem some {x : α} (h : Q x) : Yields Q (.some x) := by
  refine ⟨fun y hy => ?_⟩
  cases hy
  exact h

/-- A reader that fails reads nothing. -/
theorem none : Yields Q (.none : Option α) := ⟨nofun⟩

/-- A reader goes on with what was read before. -/
theorem bind {f : α → Option β} (h : Yields Q o)
    (hf : ∀ x, Q x → Yields R (f x)) : Yields R (o >>= f) := by
  cases o with
  | none => exact .none
  | some x => exact hf x (h.read x rfl)

/-- What was read may be of any kind. -/
theorem next {f : α → Option β} (hf : ∀ x, Yields R (f x)) :
    Yields R (o >>= f) := by
  cases o with
  | none => exact .none
  | some x => exact hf x

/-- What was read is turned into something else. -/
theorem map {f : α → β} (h : Yields Q o) (hf : ∀ x, Q x → R (f x)) :
    Yields R (o.map f) := by
  cases o with
  | none => exact .none
  | some x => exact .some (hf x (h.read x rfl))

/-- And may be of any kind, if all of them lead to the right one. -/
theorem mapAny {f : α → β} (hf : ∀ x, R (f x)) : Yields R (o.map f) := by
  cases o with
  | none => exact .none
  | some x => exact .some (hf x)

/-- A list is read one by one, and fails as a whole. -/
theorem mapM {f : α → Option β} {xs : List α}
    (h : ∀ x ∈ xs, Yields R (f x)) :
    Yields (fun ys => ∀ y ∈ ys, R y) (xs.mapM f) := by
  induction xs with
  | nil => exact .some nofun
  | cons x xs ih =>
    rw [List.forall_mem_cons] at h
    rw [List.mapM_cons]
    exact h.1.bind fun y hy => (ih h.2).bind fun ys hys =>
      .some (List.forall_mem_cons.2 ⟨hy, hys⟩)

end Yields

namespace Json

variable {α : Type} {Q : α → Prop} {read : Part → Option α}

-- ============================================================== parameters

namespace Tree

/-- The items of an array are values with less room to nest. -/
theorem valueItems?_ordered {room : Nat}
    (h : ∀ t : Tree, Yields (fun v => v.isOrdered = true) (t.value? room))
    (items : List Tree) :
    Yields (fun vs => ∀ v ∈ vs, v.isOrdered = true)
      (valueItems? room items) := by
  induction items with
  | nil => exact .some nofun
  | cons t items ih =>
    exact (h t).bind fun v hv => ih.bind fun vs hvs =>
      .some (List.forall_mem_cons.2 ⟨hv, hvs⟩)

/-- So are the members of an object, under names that may be repeated. -/
theorem valueMembers?_ordered {room : Nat}
    (h : ∀ t : Tree, Yields (fun v => v.isOrdered = true) (t.value? room))
    (members : List (Option String × Tree)) :
    Yields (fun ms => ∀ m ∈ ms, m.2.isOrdered = true)
      (valueMembers? room members) := by
  induction members with
  | nil => exact .some nofun
  | cons m members ih =>
    exact .next fun _ => (h m.2).bind fun v hv => ih.bind fun ms hms =>
      .some (List.forall_mem_cons.2 ⟨hv, hms⟩)

/-- One level: the names of an object are put in order when its table is
made. -/
theorem value?_ordered_of {room : Nat}
    (h : ∀ room', room = room' + 1 → ∀ t : Tree,
      Yields (fun v => v.isOrdered = true) (t.value? room')) (t : Tree) :
    Yields (fun v => v.isOrdered = true) (t.value? room) := by
  cases t with
  | null => exact .some rfl
  | bool b => exact .some rfl
  | number n => exact .mapAny fun _ => rfl
  | real x =>
    cases x with
    | none => exact .some rfl
    | some x => exact .some rfl
  | string s => exact .mapAny fun _ => rfl
  | array items =>
    cases room with
    | zero => exact .none
    | succ room =>
      exact (valueItems?_ordered (h room rfl) items).map fun vs hvs =>
        Value.isOrdered_array.2 hvs
  | object members =>
    cases room with
    | zero => exact .none
    | succ room =>
      refine (valueMembers?_ordered (h room rfl) members).map
        fun ms hms => Value.isOrdered_object.2
          ⟨(Table.ofList ms).ascending, fun m hm => ?_⟩
      have hall : (Table.ofList ms).All fun v => v.isOrdered = true :=
        .ofList hms
      exact hall.entry hm

/-- The meaning of a text is in order, however it was written. -/
theorem value?_ordered (room : Nat) (t : Tree) :
    Yields (fun v => v.isOrdered = true) (t.value? room) := by
  induction room generalizing t with
  | zero =>
    exact value?_ordered_of
      (fun _ heq => absurd heq.symm (Nat.succ_ne_zero _)) t
  | succ room ih =>
    refine value?_ordered_of (fun room' heq => ?_) t
    cases heq
    exact ih

end Tree

/-- The same for a part of a frame, wherever in it the part stands. -/
theorem Part.value?_ordered (p : Part) :
    Yields (fun v => v.isOrdered = true) p.value? := by
  unfold value?
  split
  · exact p.tree.value?_ordered _
  · exact p.tree.value?_ordered _

-- ============================================================== containers

namespace Part

/-- A list is of the kind if its items are. -/
theorem list?_yields (h : ∀ p, Yields Q (read p)) (p : Part) :
    Yields (fun xs => ∀ x ∈ xs, Q x) (p.list? read) :=
  .next fun _ => .mapM fun q _ => h q

/-- A table is of the kind if its entries are. -/
theorem table?_yields (h : ∀ p, Yields Q (read p)) (p : Part) :
    Yields (Table.All Q) (p.table? read) := by
  refine .next fun ms => ?_
  have hentries : Yields (fun entries => ∀ e ∈ entries, Q e.2)
      (ms.mapM fun m => (read m.2).map (m.1, ·)) :=
    .mapM fun m _ => (h m.2).map fun _ hx => hx
  exact hentries.bind fun _ hall => .some (.ofList hall)

/-- A number that is read lies within its bounds. -/
theorem int?_yields (low high : Int) (p : Part) :
    Yields (fun n => low ≤ n ∧ n ≤ high) (p.int? low high) := by
  unfold int?
  split
  · split
    · split
      · next h => exact .some h
      · exact .none
    · exact .none
  · exact .none

/-- A part that is left out or null is none. -/
theorem optional?_yields (h : ∀ p, Yields Q (read p)) (p : Part) :
    Yields (fun o => ∀ x, o = some x → Q x) (p.optional? read) := by
  unfold optional?
  split
  · exact .some nofun
  · refine (h p).map fun x hx y hy => ?_
    cases hy
    exact hx

/-- A field that has to be there is what its reader makes of it. -/
theorem Fields.required_yields (f : Fields) (name : String)
    (h : ∀ p, Yields Q (read p)) : Yields Q (f.required name read) :=
  .next fun p => h p

/-- A default is of the kind as well. -/
theorem Fields.withDefault_yields (f : Fields) (name : String)
    {default : α} (hdefault : Q default) (h : ∀ p, Yields Q (read p)) :
    Yields Q (f.withDefault name default read) := by
  unfold withDefault
  split
  · exact h _
  · exact .some hdefault

end Part

end Json

-- ============================================================== resources

/-- A pattern comes from the text it was read from. -/
theorem ResourcePattern.ofJson?_written (p : Part) :
    Yields ResourcePattern.Written (ofJson? p) := by
  refine .next fun s => ⟨fun m hm => ⟨s, ?_⟩⟩
  cases hparse : ResourcePattern.parse s with
  | error e =>
    rw [hparse] at hm
    cases hm
  | ok m' =>
    rw [hparse] at hm
    cases hm
    rfl

/-- Only free parameters can be out of order, and they come out of a
table. -/
theorem ResourceParams.ofJson?_proper (p : Part) :
    Yields ResourceParams.Proper (ofJson? p) := by
  unfold ofJson?
  refine .next fun v => ?_
  split
  · exact .next fun _ => .next fun _ => .next fun _ => .some trivial
  · exact .next fun _ => .next fun _ => .next fun _ => .next fun _ =>
      .some trivial
  · exact .next fun _ => .next fun _ => .some trivial
  · exact .next fun _ => .next fun _ => .next fun _ => .some trivial
  · exact .next fun _ => .next fun _ => .some trivial
  · exact .next fun _ => .next fun _ => .next fun _ => .some trivial
  · exact .next fun _ => .next fun _ => .next fun _ => .next fun _ =>
      .next fun _ => .next fun _ => .some trivial
  · exact .next fun _ => .next fun _ => .next fun _ => .next fun _ =>
      .some trivial
  · exact .next fun _ => .next fun _ => .next fun _ => .next fun _ =>
      .some trivial
  · exact .next fun f => .next fun _ =>
      (f.withDefault_yields "params" .empty (Part.table?_yields
        Part.value?_ordered)).bind fun params hparams =>
          .some fun e he => hparams.entry he
  · exact .none

/-- An announcement asks for nothing else. -/
theorem ResourceSpec.ofJson?_proper (p : Part) :
    Yields ResourceSpec.Proper (ofJson? p) :=
  .next fun f => .next fun _ => .next fun _ =>
    (f.required_yields "params" ResourceParams.ofJson?_proper).bind
      fun _ h => .some h

-- ============================================================== requests

/-- The default is a priority. -/
theorem isPriority_zero : IsPriority 0 :=
  ⟨by decide, Int.ofNat_lt.2 (twoTo_pos 31)⟩

/-- The bounds that the reader checks are those of 32 bits. -/
theorem priority?_proper (p : Part) : Yields IsPriority (priority? p) :=
  ⟨fun n hn => by
    have h := (Part.int?_yields _ _ p).read n hn
    exact ⟨h.1, Int.lt_of_le_sub_one h.2⟩⟩

/-- Operations differ in which of their fields can be out of order. What
the other fields are does not matter. -/
theorem Operation.ofJson?_proper (p : Part) :
    Yields Operation.Proper (ofJson? p) := by
  unfold ofJson?
  refine .next fun v => ?_
  have hpatterns : ∀ p, Yields (fun ms => ∀ m ∈ ms, m.Written)
      (Part.list? ResourcePattern.ofJson? p) :=
    Part.list?_yields ResourcePattern.ofJson?_written
  split
  · -- register
    exact .next fun _ => .next fun _ => .next fun _ => .some trivial
  · exact .mapAny fun _ => trivial
  · exact .mapAny fun _ => trivial
  · -- set-resources
    exact .next fun f => (f.required_yields "resources"
      (Part.list?_yields ResourceSpec.ofJson?_proper)).bind
        fun _ h => .some h
  · exact .next fun _ => .next fun _ => .some trivial
  · exact .next fun _ => .next fun _ => .some trivial
  · -- list-resources
    exact .next fun f => (f.withDefault_yields "pattern" nofun
      (Part.optional?_yields ResourcePattern.ofJson?_written)).bind
        fun _ h => .some h
  · exact .mapAny fun _ => trivial
  · exact .mapAny fun _ => trivial
  · -- create-place
    exact .next fun f => .next fun _ =>
      (f.withDefault_yields "matches" nofun hpatterns).bind fun _ h =>
        .next fun _ => .some h
  · exact .next fun _ => .next fun _ => .some trivial
  · -- add-match
    exact .next fun f => .next fun _ => (f.required_yields "pattern"
      ResourcePattern.ofJson?_written).bind fun _ h => .some h
  · -- delete-match
    exact .next fun f => .next fun _ => (f.required_yields "pattern"
      ResourcePattern.ofJson?_written).bind fun _ h => .some h
  · exact .next fun _ => .next fun _ => .next fun _ => .some trivial
  · exact .next fun _ => .next fun _ => .next fun _ => .some trivial
  · exact .next fun _ => .next fun _ => .some trivial
  · exact .next fun _ => .next fun _ => .next fun _ => .some trivial
  · -- create-reservation
    exact .next fun f => (f.required_yields "filters" hpatterns).bind
      fun _ hfilters => (f.withDefault_yields "priority" isPriority_zero
        priority?_proper).bind fun _ hpriority =>
          .some ⟨hfilters, hpriority⟩
  · exact .next fun _ => .next fun _ => .some trivial
  · exact .next fun _ => .next fun _ => .some trivial
  · exact .next fun _ => .next fun _ => .some trivial
  · exact .mapAny fun _ => trivial
  · exact .mapAny fun _ => trivial
  · exact .none

/-- The number of a request does not matter either. -/
theorem RequestFrame.ofJson?_proper (p : Part) :
    Yields RequestFrame.Proper (ofJson? p) :=
  .next fun f => .next fun _ =>
    (f.required_yields "request" Operation.ofJson?_proper).bind
      fun _ h => .some h

/-- A request that was read is proper. -/
theorem RequestFrame.proper_of_parse {s : String} {f : RequestFrame}
    (h : parseFrame ofJson? s = .ok f) : f.Proper := by
  unfold parseFrame at h
  split at h
  · cases h
  · split at h
    · next g hread =>
      cases h
      obtain ⟨t, -, hg⟩ := Option.bind_eq_some_iff.1 hread
      exact (ofJson?_proper _).read f hg
    · cases h

end LabLease
