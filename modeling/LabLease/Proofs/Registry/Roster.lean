/-
The roster: which sessions are live, and under which name and role.

Everything that others record about a session is its number, its name and
its role, so `Live` is what they rely on: it outlasts a sign of life, the
registration of somebody else, an edit of the record's lists and the end
of any other session. That a name leads back to one session
(`Sound.named`) is what makes "an exporter of this name is connected" say
something about the session that publishes a resource.
-/
import LabLease.Proofs.Table
import LabLease.Registry.Roster

namespace LabLease.Roster

variable {r : Roster} {id : SessionId} {o : Session} {name : String}
  {role : Role}

/-- A session of this number is live, under this name and in this
role. -/
def Live (r : Roster) (id : SessionId) (name : String) (role : Role) :
    Prop :=
  ∃ o, r.sessions.get? id = some o ∧ o.name = name ∧ o.role = role

/-- Every record is stored under its own number, the names lead to the
records that bear them, no number is ahead of the last one given, and
every name is one that can be registered. -/
structure Sound (r : Roster) : Prop where
  filed : ∀ id o, r.sessions.get? id = some o → o.id = id
  indexed : ∀ name id, r.names.get? name = some id ↔
    ∃ o, r.sessions.get? id = some o ∧ o.name = name
  given : ∀ id o, r.sessions.get? id = some o → id ≤ r.lastId
  valid : ∀ id o, r.sessions.get? id = some o → isName o.name = true

-- ============================================================== queries

theorem get_eq_ok : r.get id = .ok o ↔ r.sessions.get? id = some o := by
  unfold get
  cases r.sessions.get? id <;> simp

/-- No two live sessions bear one name. -/
theorem Sound.named (h : r.Sound) {i j : SessionId} {o o' : Session}
    (ho : r.sessions.get? i = some o) (ho' : r.sessions.get? j = some o')
    (hn : o.name = o'.name) : i = j := by
  have hi := (h.indexed o'.name i).2 ⟨o, ho, hn⟩
  have hj := (h.indexed o'.name j).2 ⟨o', ho', rfl⟩
  exact Option.some.inj (hi.symm.trans hj)

theorem named?_eq_some : r.named? name = some o ↔
    ∃ id, r.names.get? name = some id ∧ r.sessions.get? id = some o :=
  Option.bind_eq_some_iff

theorem Sound.named?_eq_some (h : r.Sound) :
    r.named? name = some o ↔
      r.sessions.get? o.id = some o ∧ o.name = name := by
  rw [Roster.named?_eq_some]
  constructor
  · rintro ⟨id, hid, ho⟩
    obtain ⟨o', ho', hn⟩ := (h.indexed name id).1 hid
    have hsame : o' = o := Option.some.inj (ho'.symm.trans ho)
    subst hsame
    have hfiled := h.filed id o' ho
    subst hfiled
    exact ⟨ho, hn⟩
  · rintro ⟨ho, hn⟩
    exact ⟨o.id, (h.indexed name o.id).2 ⟨o, ho, hn⟩, ho⟩

/-- A name is free iff nobody is found under it. -/
theorem Sound.names_contains_iff (h : r.Sound) :
    r.names.contains name = true ↔ ∃ o, r.named? name = some o := by
  unfold Table.contains
  rw [Option.isSome_iff_exists]
  constructor
  · rintro ⟨id, hid⟩
    obtain ⟨o, ho, -⟩ := (h.indexed name id).1 hid
    exact ⟨o, Roster.named?_eq_some.2 ⟨id, hid, ho⟩⟩
  · rintro ⟨o, ho⟩
    obtain ⟨id, hid, -⟩ := Roster.named?_eq_some.1 ho
    exact ⟨id, hid⟩

/-- An exporter of a name is connected iff some live exporter bears
it. -/
theorem Sound.isLiveExporter_iff (h : r.Sound) :
    r.isLiveExporter name = true ↔ ∃ id, r.Live id name .exporter := by
  unfold isLiveExporter
  rw [Option.any_eq_true]
  constructor
  · intro hex
    obtain ⟨o, ho, hrole⟩ := hex
    obtain ⟨hget, hname⟩ := h.named?_eq_some.1 ho
    exact ⟨o.id, o, hget, hname, by simpa using hrole⟩
  · intro hex
    obtain ⟨id, o, hget, hname, hrole⟩ := hex
    have hid := h.filed id o hget
    subst hid
    exact ⟨o, h.named?_eq_some.2 ⟨hget, hname⟩, by simpa using hrole⟩

/-- Who has been silent for too long. -/
theorem Sound.mem_expired (h : r.Sound) {now : Moment} :
    id ∈ r.expired now ↔ ∃ o, r.sessions.get? id = some o
      ∧ r.timeout < now.since o.lastSeen := by
  unfold expired
  rw [List.mem_map]
  constructor
  · intro hex
    obtain ⟨o, ho, rfl⟩ := hex
    obtain ⟨hall, hsilent⟩ :=
      List.mem_filter.1 (List.mem_mergeSort.1 ho)
    obtain ⟨i, hi⟩ := Table.mem_values.1 hall
    rw [h.filed i o hi]
    exact ⟨o, hi, of_decide_eq_true hsilent⟩
  · intro hex
    obtain ⟨o, ho, hsilent⟩ := hex
    refine ⟨o, List.mem_mergeSort.2 (List.mem_filter.2 ⟨?_, ?_⟩),
      h.filed id o ho⟩
    · exact Table.mem_values.2 ⟨id, ho⟩
    · exact decide_eq_true hsilent

theorem Sound.nodup_expired (h : r.Sound) (now : Moment) :
    (r.expired now).Nodup := by
  have hids : (r.all.map (·.id)).Nodup := by
    refine List.pairwise_map.2 (Table.pairwise_values ?_)
    intro i j o o' hne ho ho' heq
    rw [h.filed i o ho, h.filed j o' ho'] at heq
    exact hne heq
  unfold expired
  refine (List.Perm.nodup_iff ((List.mergeSort_perm _ _).map _)).2 ?_
  exact hids.sublist (List.filter_sublist.map _)

/-- The most silent is listed first, and of those who were heard at the
same time the one with the smallest number. -/
theorem Sound.pairwise_expired (h : r.Sound) (now : Moment) :
    (r.expired now).Pairwise fun x y => ∃ o o',
      r.sessions.get? x = some o ∧ r.sessions.get? y = some o'
      ∧ (o.lastSeen < o'.lastSeen ∨ o.lastSeen = o'.lastSeen ∧ x < y) := by
  have hdistinct := h.nodup_expired now
  unfold expired at hdistinct ⊢
  have hsorted := @List.pairwise_mergeSort Session
    (fun o o' => o.lastSeen < o'.lastSeen
      || o.lastSeen = o'.lastSeen && o.id ≤ o'.id) ?_ ?_
    (r.all.filter fun o => r.timeout < now.since o.lastSeen)
  · refine List.pairwise_map.2
      ((hsorted.and (List.pairwise_map.1 hdistinct)).imp_of_mem ?_)
    rintro o o' ho ho' ⟨hle, hne⟩
    obtain ⟨i, hi⟩ := Table.mem_values.1
      (List.mem_filter.1 (List.mem_mergeSort.1 ho)).1
    obtain ⟨j, hj⟩ := Table.mem_values.1
      (List.mem_filter.1 (List.mem_mergeSort.1 ho')).1
    refine ⟨o, o', h.filed i o hi ▸ hi, h.filed j o' hj ▸ hj, ?_⟩
    rw [Bool.or_eq_true, Bool.and_eq_true] at hle
    simp only [decide_eq_true_eq] at hle
    exact hle.imp_right fun heq => ⟨heq.1, Nat.lt_of_le_of_ne heq.2 hne⟩
  · intro a b c
    simp only [Bool.or_eq_true, Bool.and_eq_true, decide_eq_true_eq]
    rintro (hab | ⟨hab, hid⟩) (hbc | ⟨hbc, hid'⟩)
    · exact Or.inl (Nat.lt_trans hab hbc)
    · exact Or.inl (hbc ▸ hab)
    · exact Or.inl (hab ▸ hbc)
    · exact Or.inr ⟨hab.trans hbc, Nat.le_trans hid hid'⟩
  · intro a b
    simp only [Bool.or_eq_true, Bool.and_eq_true, decide_eq_true_eq]
    rcases Nat.lt_trichotomy a.lastSeen b.lastSeen with hlt | heq | hgt
    · exact Or.inl (Or.inl hlt)
    · exact (Nat.le_total a.id b.id).imp (fun hid => Or.inr ⟨heq, hid⟩)
        fun hid => Or.inr ⟨heq.symm, hid⟩
    · exact Or.inr (Or.inl hgt)

/-- Whoever has been silent for too long is listed once. -/
theorem Sound.expired_once (h : r.Sound) {now : Moment}
    {before after : List SessionId}
    (heq : r.expired now = before ++ id :: after) :
    id ∉ before ∧ id ∉ after := by
  have hnodup := h.nodup_expired now
  rw [heq] at hnodup
  obtain ⟨-, hrest, hdiff⟩ := List.nodup_append.1 hnodup
  exact ⟨fun hin => hdiff id hin id List.mem_cons_self rfl,
    (List.nodup_cons.1 hrest).1⟩

-- ============================================================== changes

theorem new_sound (timeout : Nat) : (new timeout).Sound := by
  refine ⟨?_, ?_, ?_, ?_⟩
  · intro id o ho
    cases ho
  · intro name id
    constructor
    · intro hid
      cases hid
    · rintro ⟨o, ho, -⟩
      cases ho
  · intro id o ho
    cases ho
  · intro id o ho
    cases ho

/-- A registration gives the next number to a name that is not in use. -/
theorem register_ok {now : Moment} {r' : Roster}
    (h : r.register name role now = .ok (id, r')) :
    isName name = true ∧ r.names.get? name = none ∧ id = r.lastId + 1
      ∧ r' = { r with
          sessions := r.sessions.insert id
            { id, name, role, connected := now.date
              lastSeen := now.ticks
              resources := .empty, places := .empty }
          names := r.names.insert name id
          lastId := id } := by
  unfold register at h
  split at h
  · cases h
  · next hname =>
    split at h
    · cases h
    · next hfree =>
      cases h
      refine ⟨by simpa using hname, ?_, rfl, rfl⟩
      simpa [Table.contains] using hfree

/-- Any name that can be registered is, once nobody uses it. -/
theorem Sound.register_of_free (h : r.Sound) (role : Role) (now : Moment)
    (hname : isName name = true) (hfree : r.named? name = none) :
    ∃ out, r.register name role now = .ok out := by
  have hunused : r.names.contains name = false := by
    rw [Bool.eq_false_iff]
    intro hin
    obtain ⟨o, ho⟩ := h.names_contains_iff.1 hin
    rw [hfree] at ho
    cases ho
  unfold Roster.register
  rw [hname, hunused]
  exact ⟨_, rfl⟩

theorem Sound.register (h : r.Sound) {now : Moment} {r' : Roster}
    (hr : r.register name role now = .ok (id, r')) : r'.Sound := by
  obtain ⟨hname, hfree, rfl, rfl⟩ := register_ok hr
  -- the new number is nobody's
  have hnew : r.sessions.get? (r.lastId + 1) = none := by
    rw [Option.eq_none_iff_forall_ne_some]
    intro o ho
    exact Nat.not_succ_le_self _ (h.given _ o ho)
  refine ⟨?_, ?_, ?_, ?_⟩
  · intro i o ho
    rw [Table.get?_insert] at ho
    split at ho
    · next hi => cases ho; exact hi
    · exact h.filed i o ho
  · intro n i
    rw [Table.get?_insert, Table.get?_insert]
    by_cases hn : name = n
    · subst hn
      rw [if_pos rfl]
      by_cases hi : r.lastId + 1 = i
      · subst hi
        simp
      · -- nobody else bears the name
        have hother : ¬ ∃ o, r.sessions.get? i = some o ∧ o.name = name := by
          rw [← h.indexed, hfree]
          simp
        simp [hi, hother]
    · rw [if_neg hn]
      by_cases hi : r.lastId + 1 = i
      · subst hi
        have hnone : ¬ r.names.get? n = some (r.lastId + 1) := by
          rw [h.indexed, hnew]
          simp
        simp [hn, hnone]
      · rw [if_neg hi]
        exact h.indexed n i
  · intro i o ho
    rw [Table.get?_insert] at ho
    split at ho
    · next hi => exact Nat.le_of_eq hi.symm
    · exact Nat.le_succ_of_le (h.given i o ho)
  · intro i o ho
    rw [Table.get?_insert] at ho
    split at ho
    · cases ho
      exact hname
    · exact h.valid i o ho

theorem heartbeat_ok {now : Moment} {r' : Roster}
    (h : r.heartbeat id now = .ok r') :
    ∃ o, r.sessions.get? id = some o
      ∧ r' = { r with sessions :=
          r.sessions.insert id { o with lastSeen := now.ticks } } := by
  unfold heartbeat at h
  cases hg : r.get id with
  | error e => rw [hg] at h; cases h
  | ok o =>
    rw [hg] at h
    cases h
    exact ⟨o, get_eq_ok.1 hg, rfl⟩

/-- A sign of life is an edit of one record. -/
theorem heartbeat_eq_edit {now : Moment} {r' : Roster}
    (h : r.heartbeat id now = .ok r') :
    r' = r.edit id fun o => { o with lastSeen := now.ticks } := by
  obtain ⟨o, ho, rfl⟩ := heartbeat_ok h
  have hsame : r.sessions.insert id { o with lastSeen := now.ticks }
      = r.sessions.adjust id fun o => { o with lastSeen := now.ticks } := by
    refine Table.ext_get? fun i => ?_
    rw [Table.get?_insert, Table.get?_adjust]
    by_cases hi : id = i
    · subst hi
      rw [if_pos rfl, ho, Option.map_some, if_pos rfl]
    · rw [if_neg hi]
      cases r.sessions.get? i with
      | none => rfl
      | some o' => rw [Option.map_some, if_neg (Ne.symm hi)]
  unfold edit
  rw [hsame]

theorem heartbeat_of_live (ho : r.sessions.get? id = some o)
    (now : Moment) : ∃ r', r.heartbeat id now = .ok r' := by
  unfold heartbeat
  rw [get_eq_ok.2 ho]
  exact ⟨_, rfl⟩

/-- Whoever was heard is live. -/
theorem get?_of_heartbeat {now : Moment} {r' : Roster}
    (h : r.heartbeat id now = .ok r') :
    ∃ o, r'.sessions.get? id = some o := by
  obtain ⟨o, -, rfl⟩ := heartbeat_ok h
  exact ⟨_, (Table.get?_insert ..).trans (if_pos rfl)⟩

/-- One record in place of another of the same number and name. -/
theorem Sound.revise (h : r.Sound) {r' : Roster}
    (hnames : r'.names = r.names) (hlast : r'.lastId = r.lastId)
    (hsame : ∀ i, (r'.sessions.get? i).map (fun o => (o.id, o.name))
      = (r.sessions.get? i).map (fun o => (o.id, o.name))) : r'.Sound := by
  have hwas : ∀ i o', r'.sessions.get? i = some o' →
      ∃ o, r.sessions.get? i = some o ∧ o.id = o'.id ∧ o.name = o'.name := by
    intro i o' ho'
    have hi := hsame i
    rw [ho', Option.map_some] at hi
    obtain ⟨o, ho, heq⟩ := Option.map_eq_some_iff.1 hi.symm
    exact ⟨o, ho, (Prod.ext_iff.1 heq).1, (Prod.ext_iff.1 heq).2⟩
  refine ⟨?_, ?_, ?_, ?_⟩
  · intro i o' ho'
    obtain ⟨o, ho, hid, -⟩ := hwas i o' ho'
    exact hid ▸ h.filed i o ho
  · intro name i
    rw [hnames, h.indexed]
    have hi := hsame i
    cases ho : r.sessions.get? i with
    | none =>
      rw [ho, Option.map_none, Option.map_eq_none_iff] at hi
      simp [hi]
    | some o =>
      rw [ho, Option.map_some] at hi
      obtain ⟨o', ho', heq⟩ := Option.map_eq_some_iff.1 hi
      have hn : o'.name = o.name := (Prod.ext_iff.1 heq).2
      simp [ho', hn]
  · intro i o' ho'
    obtain ⟨o, ho, -⟩ := hwas i o' ho'
    exact hlast ▸ h.given i o ho
  · intro i o' ho'
    obtain ⟨o, ho, -, hname⟩ := hwas i o' ho'
    exact hname ▸ h.valid i o ho

/-- An edit of the lists in a record leaves number, name and role. -/
def KeepsIdentity (f : Session → Session) : Prop :=
  ∀ o, (f o).id = o.id ∧ (f o).name = o.name ∧ (f o).role = o.role

theorem Sound.edit (h : r.Sound) {f : Session → Session}
    (hf : KeepsIdentity f) (id : SessionId) : (r.edit id f).Sound := by
  refine h.revise rfl rfl fun i => ?_
  unfold Roster.edit
  rw [Table.get?_adjust, Option.map_map]
  refine congrArg (fun g => (r.sessions.get? i).map g) (funext fun o => ?_)
  by_cases hi : i = id
  · simp [hi, (hf o).1, (hf o).2.1]
  · simp [hi]

/-- Where there is no record there is nothing to edit. -/
theorem edit_of_gone (hgone : r.sessions.get? id = none)
    (f : Session → Session) : r.edit id f = r := by
  have hsame : r.sessions.adjust id f = r.sessions := by
    refine Table.ext_get? fun i => ?_
    rw [Table.get?_adjust]
    cases ho : r.sessions.get? i with
    | none => rfl
    | some o =>
      have hne : i ≠ id := by
        rintro rfl
        rw [hgone] at ho
        cases ho
      rw [Option.map_some, if_neg hne]
  unfold edit
  rw [hsame]

theorem Sound.heartbeat (h : r.Sound) {now : Moment} {r' : Roster}
    (hr : r.heartbeat id now = .ok r') : r'.Sound := by
  rw [heartbeat_eq_edit hr]
  refine h.edit (fun o => ?_) id
  exact ⟨rfl, rfl, rfl⟩

/-- Whose record is left once a session is struck off. -/
theorem get?_remove (r : Roster) (id i : SessionId) :
    (r.remove id).sessions.get? i
      = if id = i then none else r.sessions.get? i := by
  unfold remove
  cases ho : r.sessions.get? id with
  | some o => exact Table.get?_erase ..
  | none =>
    by_cases hi : id = i
    · rw [if_pos hi, ← hi]
      exact ho
    · rw [if_neg hi]

@[simp] theorem remove_lastId (r : Roster) (id : SessionId) :
    (r.remove id).lastId = r.lastId := by
  unfold remove
  split <;> rfl

@[simp] theorem remove_timeout (r : Roster) (id : SessionId) :
    (r.remove id).timeout = r.timeout := by
  unfold remove
  split <;> rfl

theorem Sound.remove (h : r.Sound) (id : SessionId) :
    (r.remove id).Sound := by
  cases ho : r.sessions.get? id with
  | none =>
    have hsame : r.remove id = r := by
      unfold Roster.remove
      rw [ho]
    rw [hsame]
    exact h
  | some gone =>
    have hkept : ∀ i o, (r.remove id).sessions.get? i = some o →
        id ≠ i ∧ r.sessions.get? i = some o := by
      intro i o hi
      rw [get?_remove] at hi
      split at hi
      · cases hi
      · next hne => exact ⟨hne, hi⟩
    have hnames : (r.remove id).names = r.names.erase gone.name := by
      unfold Roster.remove
      rw [ho]
    refine ⟨fun i o hi => h.filed i o (hkept i o hi).2, ?_, ?_,
      fun i o hi => h.valid i o (hkept i o hi).2⟩
    · intro name i
      rw [hnames, Table.get?_erase, get?_remove]
      by_cases hi : id = i
      · subst hi
        have hgone : gone.name ≠ name → r.names.get? name ≠ some id := by
          intro hne hin
          obtain ⟨o, hget, hn⟩ := (h.indexed name id).1 hin
          rw [ho] at hget
          cases hget
          exact hne hn
        by_cases hn : gone.name = name
        · simp [hn]
        · simp [hn, hgone hn]
      · rw [if_neg hi, ← h.indexed]
        have hother : gone.name = name → r.names.get? name ≠ some i := by
          intro hn hin
          rw [(h.indexed name id).2 ⟨gone, ho, hn⟩] at hin
          exact hi (Option.some.inj hin)
        by_cases hn : gone.name = name
        · simp [hn, hother hn]
        · simp [hn]
    · intro i o hi
      rw [remove_lastId]
      exact h.given i o (hkept i o hi).2

-- ========================================================= who stays live

theorem Live.register (h : r.Sound) {now : Moment} {r' : Roster}
    {new : SessionId} {name' : String} {role' : Role}
    (hr : r.register name' role' now = .ok (new, r'))
    (hl : r.Live id name role) : r'.Live id name role := by
  obtain ⟨-, -, rfl, rfl⟩ := register_ok hr
  obtain ⟨o, ho, hn⟩ := hl
  refine ⟨o, ?_, hn⟩
  have hne : r.lastId + 1 ≠ id :=
    Nat.ne_of_gt (Nat.lt_succ_of_le (h.given id o ho))
  rw [Table.get?_insert, if_neg hne, ho]

theorem Live.heartbeat {now : Moment} {r' : Roster} {other : SessionId}
    (hr : r.heartbeat other now = .ok r') (hl : r.Live id name role) :
    r'.Live id name role := by
  obtain ⟨o₁, ho₁, rfl⟩ := heartbeat_ok hr
  obtain ⟨o, ho, hn⟩ := hl
  by_cases hid : other = id
  · subst hid
    rw [ho] at ho₁
    cases ho₁
    exact ⟨{ o₁ with lastSeen := now.ticks }, by simp, hn⟩
  · exact ⟨o, by simp [hid, ho], hn⟩

theorem live_edit_iff {f : Session → Session} (hf : KeepsIdentity f)
    (other : SessionId) :
    (r.edit other f).Live id name role ↔ r.Live id name role := by
  unfold Live Roster.edit
  simp only [Table.get?_adjust, Option.map_eq_some_iff]
  constructor
  · intro hex
    obtain ⟨o', ⟨o, ho, rfl⟩, hn, hr⟩ := hex
    refine ⟨o, ho, ?_⟩
    split at hn <;> simp_all [hf o]
  · intro hex
    obtain ⟨o, ho, hn, hr⟩ := hex
    refine ⟨_, ⟨o, ho, rfl⟩, ?_⟩
    split <;> simp_all [hf o]

theorem Live.remove (hl : r.Live id name role) {other : SessionId}
    (hne : id ≠ other) : (r.remove other).Live id name role := by
  obtain ⟨o, ho, hn⟩ := hl
  refine ⟨o, ?_, hn⟩
  rw [get?_remove, if_neg (Ne.symm hne), ho]

end LabLease.Roster
