/-
What the records of the sessions list: every live session lists exactly
the resources that it publishes and the places that it holds.

# Two books

Who owns a resource is written down twice, in the inventory and in the
record of the owner, and so is who holds a place. The coordinator keeps
the second book by hand, from the changes that the inventory reports
(`Roster.noteAll`) and place by place. Both books agree because each
report says what became of one identity and no identity is reported twice
(`mem_foldl_noted`, `Restock.ownerOf?_self`).

A session that has left has no record, so nothing is said about what it
may still hold.
-/
import LabLease.Proofs.Registry.Attendance

namespace LabLease

-- ============================================================ the owners

namespace Inventory

variable {inv inv' : Inventory} {id : ResourceId} {i owner : SessionId}

theorem ownerOf?_eq_some :
    inv.ownerOf? id = some i ↔
      ∃ e, inv.entries.get? id = some e ∧ e.owner = i :=
  Option.map_eq_some_iff

/-- Flags say nothing about who publishes. -/
@[simp] theorem ownerOf?_flag (inv : Inventory) (ids : List ResourceId)
    (b : Bool) (id : ResourceId) :
    (inv.flag ids b).ownerOf? id = inv.ownerOf? id := by
  unfold ownerOf?
  rw [get?_entries_flag, Option.map_map]
  refine congrArg (fun f => (inv.entries.get? id).map f) (funext fun e => ?_)
  by_cases hid : id ∈ ids <;> simp [hid]

namespace Restock

variable {exporter : String} {changes : List ResourceChange}

theorem ownerOf?_same (h : Restock exporter owner inv inv' changes)
    (hid : id ∉ changes.map (·.id)) :
    inv'.ownerOf? id = inv.ownerOf? id :=
  congrArg (Option.map Published.owner) (h.same id hid)

/-- What the session has afterwards: what it has put in, and what it had
and did not remove. -/
theorem ownerOf?_self (h : Restock exporter owner inv inv' changes) :
    inv'.ownerOf? id = some owner ↔
      (∃ x, .upserted x ∈ changes ∧ x.id = id)
        ∨ (inv.ownerOf? id = some owner ∧ .removed id ∉ changes) := by
  by_cases hid : id ∈ changes.map (·.id)
  · obtain ⟨c, hc, rfl⟩ := List.mem_map.1 hid
    cases c with
    | upserted x =>
      have hown : inv'.ownerOf? x.id = some owner :=
        ownerOf?_eq_some.2 ⟨_, (h.upserted x hc).2, rfl⟩
      exact iff_of_true hown (Or.inl ⟨x, hc, rfl⟩)
    | removed k =>
      have hgone : inv'.ownerOf? k = none :=
        congrArg (Option.map Published.owner) (h.removed k hc).1
      have hput : ¬ ∃ x, .upserted x ∈ changes ∧ x.id = k := by
        rintro ⟨x, hx, rfl⟩
        have hget := (h.upserted x hx).2
        rw [(h.removed x.id hc).1] at hget
        cases hget
      simp [ResourceChange.id, hgone, hput, hc]
  · have hput : ¬ ∃ x, .upserted x ∈ changes ∧ x.id = id := by
      rintro ⟨x, hx, rfl⟩
      exact hid (List.mem_map.2 ⟨_, hx, rfl⟩)
    have hkept : .removed id ∉ changes :=
      fun hx => hid (List.mem_map.2 ⟨_, hx, rfl⟩)
    simp [h.ownerOf?_same hid, hput, hkept]

/-- Nobody else gets or loses anything. -/
theorem ownerOf?_other (h : Restock exporter owner inv inv' changes)
    (hne : i ≠ owner) :
    inv'.ownerOf? id = some i ↔ inv.ownerOf? id = some i := by
  by_cases hid : id ∈ changes.map (·.id)
  · obtain ⟨c, hc, rfl⟩ := List.mem_map.1 hid
    cases c with
    | upserted x =>
      have hnow : inv'.ownerOf? x.id = some owner :=
        ownerOf?_eq_some.2 ⟨_, (h.upserted x hc).2, rfl⟩
      have hwas : inv.ownerOf? x.id ≠ some i := by
        intro howner
        obtain ⟨e, he, rfl⟩ := ownerOf?_eq_some.1 howner
        exact hne (h.known x hc e he).1
      simp [ResourceChange.id, hnow, hwas, Ne.symm hne]
    | removed k =>
      have hnow : inv'.ownerOf? k = none :=
        congrArg (Option.map Published.owner) (h.removed k hc).1
      have hwas : inv.ownerOf? k = some owner :=
        ownerOf?_eq_some.2 (h.removed k hc).2
      simp [ResourceChange.id, hnow, hwas, Ne.symm hne]
  · rw [h.ownerOf?_same hid]

end Restock

end Inventory

-- ====================================================== one record's lists

namespace Session

/-- What a record lists as its session's own is what the session has. -/
structure Lists (o : Session) (i : SessionId) (inv : Inventory)
    (ps : Places) : Prop where
  resources : ∀ id, o.resources.contains id = true ↔
    inv.ownerOf? id = some i
  places : ∀ n, o.places.contains n = true ↔
    ∃ p, ps.entries.get? n = some p ∧ p.isHeldBy i = true

variable {changes : List ResourceChange} {id : ResourceId}

/-- Changes that are noted in turn: what was put in is listed, what was
removed is not, and nothing else is another way than before. -/
theorem mem_foldl_noted (o : Session)
    (hnd : (changes.map (·.id)).Nodup) :
    (changes.foldl noted o).resources.contains id = true ↔
      (∃ x, .upserted x ∈ changes ∧ x.id = id)
        ∨ (o.resources.contains id = true ∧ .removed id ∉ changes) := by
  induction changes generalizing o with
  | nil => simp
  | cons c changes ih =>
    obtain ⟨hfirst, hrest⟩ := List.nodup_cons.1 hnd
    rw [List.foldl_cons, ih _ hrest]
    cases c with
    | upserted x =>
      have hlists : (o.noted (.upserted x)).resources.contains id = true ↔
          x.id = id ∨ o.resources.contains id = true :=
        Table.contains_insert
      have hkept : x.id = id → .removed id ∉ changes := by
        intro hid hmem
        exact hfirst (List.mem_map.2 ⟨_, hmem, hid.symm⟩)
      rw [hlists]
      by_cases hid : x.id = id
      · simp [hid, hkept hid]
      · simp [hid]
    | removed k =>
      have hlists : (o.noted (.removed k)).resources.contains id = true ↔
          k ≠ id ∧ o.resources.contains id = true :=
        Table.contains_erase
      rw [hlists]
      by_cases hid : k = id
      · simp [hid]
      · simp [hid, Ne.symm hid]

@[simp] theorem foldl_noted_places (o : Session)
    (changes : List ResourceChange) :
    (changes.foldl noted o).places = o.places := by
  induction changes generalizing o with
  | nil => rfl
  | cons c changes ih =>
    rw [List.foldl_cons, ih]
    cases c <;> rfl

end Session

namespace Roster

variable {r : Roster} {i owner : SessionId}

theorem get?_edit (r : Roster) (id : SessionId) (f : Session → Session)
    (i : SessionId) :
    (r.edit id f).sessions.get? i
      = (r.sessions.get? i).map fun o => if i = id then f o else o :=
  Table.get?_adjust ..

theorem get?_noteAll (r : Roster) (owner : SessionId)
    (changes : List ResourceChange) (i : SessionId) :
    (r.noteAll owner changes).sessions.get? i
      = (r.sessions.get? i).map fun o =>
          if i = owner then changes.foldl Session.noted o else o := by
  induction changes generalizing r with
  | nil => simp [noteAll]
  | cons c changes ih =>
    have hstep : r.noteAll owner (c :: changes)
        = (r.edit owner (·.noted c)).noteAll owner changes := rfl
    rw [hstep, ih, get?_edit, Option.map_map]
    refine congrArg (fun f => (r.sessions.get? i).map f)
      (funext fun o => ?_)
    by_cases hi : i = owner <;> simp [hi]

@[simp] theorem noteAll_lastId (r : Roster) (owner : SessionId)
    (changes : List ResourceChange) :
    (r.noteAll owner changes).lastId = r.lastId := by
  induction changes generalizing r with
  | nil => rfl
  | cons c changes ih => exact ih _

theorem get?_vacated (r : Roster) (place : String)
    (holder : Option Holder) (i : SessionId) :
    (r.vacated place holder).sessions.get? i
      = (r.sessions.get? i).map fun o =>
          if holder.any (·.session = i) then
            { o with places := o.places.erase place }
          else o := by
  cases holder with
  | none => simp [vacated]
  | some h => simp [vacated, get?_edit, eq_comm]

@[simp] theorem vacated_lastId (r : Roster) (place : String)
    (holder : Option Holder) :
    (r.vacated place holder).lastId = r.lastId := by
  cases holder <;> rfl

end Roster

-- ======================================================== every record

/-- Every live session lists what it has, and whoever holds a place has a
number that was given. -/
structure Listed (r : Roster) (inv : Inventory) (ps : Places) : Prop where
  lists : ∀ i o, r.sessions.get? i = some o → o.Lists i inv ps
  given : ∀ n p h, ps.entries.get? n = some p → p.holder = some h →
    h.session ≤ r.lastId

namespace Listed

variable {r r' : Roster} {inv inv' : Inventory} {ps : Places}
  {name : String} {p q : Place}

theorem empty (timeout : Nat) : Listed (.new timeout) .empty .empty := by
  refine ⟨?_, ?_⟩
  · intro i o ho
    cases ho
  · intro n p h hp
    cases hp

/-- Records may go, and may change in other ways. -/
theorem of_roster (h : Listed r inv ps) (hlast : r.lastId ≤ r'.lastId)
    (hwas : ∀ i o', r'.sessions.get? i = some o' →
      ∃ o, r.sessions.get? i = some o ∧ o'.resources = o.resources
        ∧ o'.places = o.places) : Listed r' inv ps := by
  refine ⟨?_, fun n p x hp hx => Nat.le_trans (h.given n p x hp hx) hlast⟩
  intro i o' ho'
  obtain ⟨o, ho, hres, hplaces⟩ := hwas i o' ho'
  obtain ⟨hr, hp⟩ := h.lists i o ho
  exact ⟨hres ▸ hr, hplaces ▸ hp⟩

theorem heard (h : Listed r inv ps) {session : SessionId} {now : Moment}
    (hr : r.heartbeat session now = .ok r') : Listed r' inv ps := by
  rw [Roster.heartbeat_eq_edit hr]
  refine h.of_roster (Nat.le_refl _) fun i o' ho' => ?_
  rw [Roster.get?_edit] at ho'
  obtain ⟨o, ho, rfl⟩ := Option.map_eq_some_iff.1 ho'
  refine ⟨o, ho, ?_⟩
  by_cases hi : i = session <;> simp [hi]

theorem remove (h : Listed r inv ps) (session : SessionId) :
    Listed (r.remove session) inv ps := by
  refine h.of_roster (Nat.le_of_eq (r.remove_lastId session).symm)
    fun i o ho => ?_
  rw [Roster.get?_remove] at ho
  split at ho
  · cases ho
  · exact ⟨o, ho, rfl, rfl⟩

/-- A newcomer has nothing, since its number was nobody's. -/
theorem register (h : Listed r inv ps) {role : Role} {now : Moment}
    {session : SessionId}
    (howned : ∀ id i, inv.ownerOf? id = some i → i ≤ r.lastId)
    (hr : r.register name role now = .ok (session, r')) :
    Listed r' inv ps := by
  obtain ⟨-, -, rfl, rfl⟩ := Roster.register_ok hr
  refine ⟨?_, fun n p x hp hx => Nat.le_succ_of_le (h.given n p x hp hx)⟩
  intro i o ho
  rw [Table.get?_insert] at ho
  split at ho
  · next hi =>
    subst hi
    cases ho
    refine ⟨fun id => iff_of_false (by simp [Table.contains]) ?_,
      fun n => iff_of_false (by simp [Table.contains]) ?_⟩
    · intro hown
      exact Nat.not_succ_le_self _ (howned id _ hown)
    · rintro ⟨p, hp, hheld⟩
      obtain ⟨x, hx, heq⟩ := (Option.any_eq_true _ _).1 hheld
      have hle := h.given n p x hp hx
      rw [of_decide_eq_true heq] at hle
      exact Nat.not_succ_le_self _ hle
  · exact h.lists i o ho

/-- The inventory may change as long as nothing gets another owner. -/
theorem of_inventory (h : Listed r inv ps)
    (hi : ∀ id, inv'.ownerOf? id = inv.ownerOf? id) :
    Listed r inv' ps := by
  refine ⟨fun i o ho => ?_, h.given⟩
  obtain ⟨hr, hp⟩ := h.lists i o ho
  exact ⟨fun id => (hr id).trans (by rw [hi]), hp⟩

theorem flag (h : Listed r inv ps) (ids : List ResourceId) (b : Bool) :
    Listed r (inv.flag ids b) ps :=
  h.of_inventory fun id => inv.ownerOf?_flag ids b id

/-- A restocking is noted in the record of the session. -/
theorem restock (h : Listed r inv ps) {exporter : String}
    {owner : SessionId} {changes : List ResourceChange}
    (hr : inv.Restock exporter owner inv' changes) :
    Listed (r.noteAll owner changes) inv' ps := by
  refine ⟨?_, fun n p x hp hx => ?_⟩
  · intro i o' ho'
    rw [Roster.get?_noteAll] at ho'
    obtain ⟨o, ho, rfl⟩ := Option.map_eq_some_iff.1 ho'
    obtain ⟨hres, hplaces⟩ := h.lists i o ho
    by_cases hi : i = owner
    · subst hi
      rw [if_pos rfl]
      refine ⟨fun id => ?_, ?_⟩
      · rw [Session.mem_foldl_noted o hr.nodup, hr.ownerOf?_self, hres]
      · rw [Session.foldl_noted_places]
        exact hplaces
    · rw [if_neg hi]
      exact ⟨fun id => (hres id).trans (hr.ownerOf?_other hi).symm, hplaces⟩
  · rw [Roster.noteAll_lastId]
    exact h.given n p x hp hx

/-- One place is put in, and those who gain or lose it note that. -/
theorem putPlace (h : Listed r inv ps) (hlast : r.lastId = r'.lastId)
    (hq : ∀ x, q.holder = some x → x.session ≤ r.lastId)
    (hnoted : ∀ i o', r'.sessions.get? i = some o' →
      ∃ o, r.sessions.get? i = some o ∧ o'.resources = o.resources
        ∧ ∀ n, o'.places.contains n = true ↔
          if n = name then q.isHeldBy i = true
          else o.places.contains n = true) :
    Listed r' inv ⟨ps.entries.insert name q⟩ := by
  refine ⟨?_, ?_⟩
  · intro i o' ho'
    obtain ⟨o, ho, hres, hplaces⟩ := hnoted i o' ho'
    obtain ⟨hr, hp⟩ := h.lists i o ho
    refine ⟨hres ▸ hr, fun n => (hplaces n).trans ?_⟩
    rw [Table.get?_insert]
    by_cases hn : n = name
    · subst hn
      simp
    · rw [if_neg hn, if_neg (Ne.symm hn)]
      exact hp n
  · intro n p x hget hx
    rw [← hlast]
    rw [Table.get?_insert] at hget
    split at hget
    · cases hget
      exact hq x hx
    · exact h.given n p x hget hx

/-- A place in other words, with the same holder or none as before. -/
theorem keepPlace (h : Listed r inv ps)
    (hsame : q.holder = (ps.entries.get? name).bind (·.holder)) :
    Listed r inv ⟨ps.entries.insert name q⟩ := by
  refine h.putPlace rfl ?_ fun i o ho => ⟨o, ho, rfl, fun n => ?_⟩
  · intro x hx
    obtain ⟨p, hp, hh⟩ := Option.bind_eq_some_iff.1 (hsame.symm.trans hx)
    exact h.given name p x hp hh
  · by_cases hn : n = name
    · subst hn
      rw [if_pos rfl, (h.lists i o ho).places n]
      unfold Place.isHeldBy
      rw [hsame]
      cases ps.entries.get? n <;> simp
    · rw [if_neg hn]

theorem erasePlace (h : Listed r inv ps)
    (hp : ps.entries.get? name = some p) (hfree : p.holder = none) :
    Listed r inv ⟨ps.entries.erase name⟩ := by
  refine ⟨fun i o ho => ⟨(h.lists i o ho).resources, fun n => ?_⟩, ?_⟩
  · rw [(h.lists i o ho).places n, Table.get?_erase]
    by_cases hn : name = n
    · subst hn
      simp [hp, Place.isHeldBy, hfree]
    · rw [if_neg hn]
  · intro n p x hget hx
    rw [Table.get?_erase] at hget
    split at hget
    · cases hget
    · exact h.given n p x hget hx

/-- A place is given back. Whose record is changed is the one that held
it, unless that session has no record any more. -/
theorem vacate (h : Listed r inv ps) {held : Holder}
    {holder : Option Holder}
    (hp : ps.entries.get? name = some p) (hh : p.holder = some held)
    (hrec : holder = some held ∨ r.sessions.get? held.session = none)
    (hq : q.holder = none) :
    Listed (r.vacated name holder) inv ⟨ps.entries.insert name q⟩ := by
  refine h.putPlace (r.vacated_lastId name holder).symm ?_
    fun i o' ho' => ?_
  · intro x hx
    rw [hq] at hx
    cases hx
  · rw [Roster.get?_vacated] at ho'
    obtain ⟨o, ho, rfl⟩ := Option.map_eq_some_iff.1 ho'
    refine ⟨o, ho, by split <;> rfl, fun n => ?_⟩
    -- a session with a record lists the place only if it was the holder
    have hlisted : o.places.contains name = true → held.session = i := by
      intro hin
      obtain ⟨p', hp', hheld⟩ := ((h.lists i o ho).places name).1 hin
      rw [hp] at hp'
      cases hp'
      simpa [Place.isHeldBy, hh] using hheld
    by_cases hi : holder.any (·.session = i) = true
    · rw [if_pos hi, Table.contains_erase]
      by_cases hn : n = name
      · simp [hn, Place.isHeldBy, hq]
      · simp [hn, Ne.symm hn]
    · rw [if_neg hi]
      by_cases hn : n = name
      · subst hn
        have hnot : ¬ o.places.contains n = true := by
          intro hin
          rcases hrec with hrec | hgone
          · exact hi (by simp [hrec, hlisted hin])
          · rw [hlisted hin, ho] at hgone
            cases hgone
        simp [hnot, Place.isHeldBy, hq]
      · simp [hn]

/-- A free place is given to a live session. -/
theorem occupy (h : Listed r inv ps) {client : Holder} {o : Session}
    (hr : r.Sound) (ho : r.sessions.get? client.session = some o)
    (hp : ps.entries.get? name = some p) (hfree : p.holder = none)
    (hq : q.holder = some client) :
    Listed (r.edit client.session fun o =>
        { o with places := o.places.insert name () }) inv
      ⟨ps.entries.insert name q⟩ := by
  refine h.putPlace rfl ?_ fun i o' ho' => ?_
  · intro x hx
    rw [hq] at hx
    cases hx
    exact hr.given _ o ho
  · rw [Roster.get?_edit] at ho'
    obtain ⟨o, ho, rfl⟩ := Option.map_eq_some_iff.1 ho'
    refine ⟨o, ho, by split <;> rfl, fun n => ?_⟩
    have hnot : ¬ o.places.contains name = true := by
      rw [(h.lists i o ho).places name]
      simp [hp, Place.isHeldBy, hfree]
    by_cases hi : i = client.session
    · subst hi
      rw [if_pos rfl, Table.contains_insert]
      by_cases hn : n = name
      · simp [hn, Place.isHeldBy, hq]
      · simp [hn, Ne.symm hn]
    · rw [if_neg hi]
      by_cases hn : n = name
      · subst hn
        simp [hnot, Place.isHeldBy, hq, Ne.symm hi]
      · simp [hn]

end Listed

end LabLease
