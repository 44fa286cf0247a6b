/-
Greedy binding, held against every other way to bind.

An assignment gives each pattern a resource of its own: registered,
available, selected by the pattern, and given to no other one. Binding
does not search for one. It goes through the patterns once, and each
picks the smallest identity that is still spare (`Picks`, `Greedy`). Two
lists of patterns may differ in their order alone, and only one of them be
bound.

# The smallest assignment

What an assignment gives to the first pattern is spare, so the pick is at
most that. If it is smaller the comparison is decided; if it is the same,
the rest of the assignment leaves it alone and is one for the other
patterns, with one identity less to spare (`Greedy.least`). So whenever the
greedy run gets through, nothing is before it, pattern by pattern.

# More to pick from

The invariant of two runs side by side is that what is spare in the one is
spare in the other. A pick out of more is at most the pick out of less. If
it is smaller, it is nothing that was spare in the poorer run, which would
have picked it; so it takes away nothing that the poorer run has left
(`Picks.wider`). That the richer run gets through at all is the exchange
argument (`bind_of_firstFit`).
-/
import LabLease.Proofs.Registry.Binding

namespace LabLease.Inventory

/-- A way to give each pattern a resource of its own. -/
structure Assignment (inv : Inventory) (available : Resource → Bool)
    (patterns : List ResourcePattern) (ids : List ResourceId) : Prop where
  selected : List.Forall₂
    (fun p id => ResourcePattern.selects p id = true) patterns ids
  provided : ∀ id ∈ ids, inv.Provides available id
  distinct : ids.Nodup

variable {inv : Inventory} {available : Resource → Bool}
  {taken : List ResourceId} {p : ResourcePattern}
  {ps : List ResourcePattern} {id : ResourceId} {ids : List ResourceId}

-- ================================================ the smallest assignment

/-- Greedy choices are an assignment. -/
theorem Greedy.assignment (h : inv.Greedy available taken ps ids) :
    inv.Assignment available ps ids :=
  ⟨h.firstFit.forall₂, fun id hid => (h.spare id hid).provided,
    h.firstFit.nodup⟩

/-- No assignment out of what is spare comes before the greedy choices. -/
theorem Greedy.least (h : inv.Greedy available taken ps ids)
    {others : List ResourceId} (ho : inv.Assignment available ps others)
    (hapart : ∀ id ∈ others, id ∉ taken) :
    ids = others
      ∨ List.Lex (fun a b => compare a b = .lt) ids others := by
  induction h generalizing others with
  | nil =>
    cases ho.selected
    exact Or.inl rfl
  | @cons taken p ps id ids picks rest ih =>
    obtain ⟨hsel, hprov, hnd⟩ := ho
    cases hsel with
    | @cons _ other _ others hsel hrest =>
      have hspare : inv.Spare available taken other :=
        ⟨hprov other List.mem_cons_self, hapart other List.mem_cons_self⟩
      rcases ResourceId.eq_or_lt_of_ne_gt (picks.least other hsel hspare)
        with rfl | hlt
      · obtain ⟨hnot, hnd⟩ := List.nodup_cons.1 hnd
        -- the rest of the assignment leaves the pick alone
        have hapart' : ∀ k ∈ others, k ∉ taken ++ [id] := by
          intro k hk
          rw [List.mem_append, List.mem_singleton, not_or]
          refine ⟨hapart k (List.mem_cons_of_mem _ hk), ?_⟩
          rintro rfl
          exact hnot hk
        have hothers : inv.Assignment available ps others :=
          ⟨hrest, fun k hk => hprov k (List.mem_cons_of_mem _ hk), hnd⟩
        rcases ih hothers hapart' with rfl | hlex
        · exact Or.inl rfl
        · exact Or.inr (.cons hlex)
      · exact Or.inr (.rel hlt)

/-- Greedy binding is the smallest binding. Out of any inventory that the
operations make (`Reached.filed`), and whatever is available, the
identities that patterns are bound to are an assignment, and every other
assignment comes after them, pattern by pattern in the order of
identities. Binding fails exactly at a pattern before which all have their
greedy choice, and which finds that these have taken everything available
that it selects. -/
theorem binding_least (hf : inv.Filed) (available : Resource → Bool)
    (ps : List ResourcePattern) :
    (∀ ids, inv.bind available ps = .ok ids →
      inv.Assignment available ps ids
        ∧ ∀ others, inv.Assignment available ps others →
          ids = others
            ∨ List.Lex (fun a b => compare a b = .lt) ids others)
    ∧ ∀ p, inv.bind available ps = .error p
      ↔ ∃ front back ids, ps = front ++ p :: back
        ∧ inv.Greedy available [] front ids
        ∧ inv.Exhausted available ids p := by
  refine ⟨fun ids h => ?_, fun p => bind_eq_error_iff hf⟩
  have hgreedy := (bind_eq_ok_iff hf).1 h
  refine ⟨hgreedy.assignment, fun others ho => ?_⟩
  exact hgreedy.least ho fun _ _ => List.not_mem_nil

/-- Two patterns on a bench of two resources. In one order they are bound,
and the other way to assign them comes after that. In the other order the
first one takes what the second one needs, and binding fails although the
two can be assigned. -/
theorem binding_least_bench :
    let star : Text.Glob := ⟨"*", [.anyRun], by decide⟩
    let f : Text.Glob := ⟨"f*", [.literal 'f', .anyRun], by decide⟩
    let any : ResourcePattern := ⟨star, star, star, none⟩
    let fans : ResourcePattern := ⟨star, star, star, some f⟩
    let fan : Resource :=
      ⟨⟨"bench", "rack", "SysfsGPIO", "fan"⟩, .sysfsGpio 3, false, 1⟩
    let led : Resource :=
      ⟨⟨"bench", "rack", "SysfsGPIO", "led"⟩, .sysfsGpio 7, false, 1⟩
    let inv : Inventory :=
      ⟨.ofList [(led.id, ⟨led, 1⟩), (fan.id, ⟨fan, 1⟩)]⟩
    let free : Resource → Bool := fun r => !r.acquired
    inv.Filed
      ∧ inv.bind free [fans, any] = .ok [fan.id, led.id]
      ∧ inv.bind free [any, any] = .ok [fan.id, led.id]
      ∧ inv.Assignment free [any, any] [led.id, fan.id]
      ∧ List.Lex (fun a b => compare a b = .lt)
        [fan.id, led.id] [led.id, fan.id]
      ∧ inv.bind free [any, fans] = .error fans
      ∧ inv.Assignment free [any, fans] [led.id, fan.id]
      ∧ ∃ front back ids, [any, fans] = front ++ fans :: back
        ∧ inv.Greedy free [] front ids ∧ inv.Exhausted free ids fans := by
  intro star f any fans fan led inv free
  have hpublish : Inventory.empty.publish "bench" 1
      [⟨"rack", "led", .sysfsGpio 7⟩, ⟨"rack", "fan", .sysfsGpio 3⟩]
      = .ok ([.upserted fan, .upserted led], inv) := by
    decide +kernel +revert
  have hbind : inv.bind free [fans, any] = .ok [fan.id, led.id]
      ∧ inv.bind free [any, any] = .ok [fan.id, led.id]
      ∧ inv.bind free [any, fans] = .error fans := by
    decide +kernel +revert
  have hled : any.selects led.id = true ∧ inv.get? led.id = some led := by
    decide +kernel +revert
  have hfan : any.selects fan.id = true ∧ fans.selects fan.id = true
      ∧ inv.get? fan.id = some fan := by
    decide +kernel +revert
  have hne : led.id ≠ fan.id := by decide +kernel +revert
  have hf : inv.Filed := (Reached.publish .empty hpublish).filed
  -- the resources the other way round, for either list of patterns
  have hother : ∀ p, p.selects fan.id = true →
      inv.Assignment free [any, p] [led.id, fan.id] := by
    intro p hp
    refine ⟨.cons hled.1 (.cons hp .nil), ?_, by simpa using hne⟩
    intro id hid
    rcases List.mem_pair.1 hid with rfl | rfl
    · exact ⟨led, hled.2, rfl⟩
    · exact ⟨fan, hfan.2.2, rfl⟩
  obtain ⟨-, hleast⟩ := (binding_least hf free [any, any]).1 _ hbind.2.1
  refine ⟨hf, hbind.1, hbind.2.1, hother any hfan.1, ?_, hbind.2.2,
    hother fans hfan.2.1, ?_⟩
  · refine (hleast _ (hother any hfan.1)).resolve_left fun heq => ?_
    exact hne (List.cons.inj heq).1.symm
  · exact ((binding_least hf free [any, fans]).2 fans).1 hbind.2.2

-- ====================================================== more to pick from

/-- One pick out of more: it is at most the pick out of less, and what is
spare after the one is spare after the other. -/
theorem Picks.wider {wider : Resource → Bool} {taken' : List ResourceId}
    {id' : ResourceId} (h : inv.Picks available taken p id)
    (h' : inv.Picks wider taken' p id')
    (hspare : ∀ k, inv.Spare available taken k →
      inv.Spare wider taken' k) :
    compare id' id ≠ .gt
      ∧ ∀ k, inv.Spare available (taken ++ [id]) k →
        inv.Spare wider (taken' ++ [id']) k := by
  have hle := h'.least id h.selected (hspare id h.spare)
  refine ⟨hle, fun k hk => ?_⟩
  obtain ⟨hk, hne⟩ := spare_concat.1 hk
  refine spare_concat.2 ⟨hspare k hk, ?_⟩
  -- had it been spare, the smaller pick would have been made here as well
  rintro rfl
  exact hne (ResourceId.eq_of_ne_gt hle (h.least k h'.selected hk))

/-- The greedy choices out of more, beside those out of less. -/
theorem Greedy.wider {wider : Resource → Bool}
    {taken' ids' : List ResourceId}
    (h : inv.Greedy available taken ps ids)
    (h' : inv.Greedy wider taken' ps ids')
    (hspare : ∀ k, inv.Spare available taken k →
      inv.Spare wider taken' k) :
    List.Forall₂ (fun id' id => compare id' id ≠ .gt) ids' ids
      ∧ ∀ k, inv.Spare available (taken ++ ids) k →
        inv.Spare wider (taken' ++ ids') k := by
  induction h generalizing taken' ids' with
  | nil =>
    cases h'
    rw [List.append_nil, List.append_nil]
    exact ⟨.nil, hspare⟩
  | cons picks rest ih =>
    cases h' with
    | cons picks' rest' =>
      obtain ⟨hle, hone⟩ := picks.wider picks' hspare
      obtain ⟨hall, hleft⟩ := ih rest' hone
      refine ⟨.cons hle hall, fun k hk => ?_⟩
      rw [List.append_cons] at hk ⊢
      exact hleft k hk

/-- Greedy binding is monotone in what is available. What can be bound out
of some resources of an inventory can be bound out of more: each pattern
then has what it had or something smaller, and whatever was left over still
is. And what cannot be bound out of more cannot be bound out of less. -/
theorem binding_monotone (hf : inv.Filed) {wider : Resource → Bool}
    (hwider : ∀ r ∈ inv.all, available r = true → wider r = true)
    (ps : List ResourcePattern) :
    (∀ ids, inv.bind available ps = .ok ids →
      ∃ ids', inv.bind wider ps = .ok ids'
        ∧ List.Forall₂ (fun id' id => compare id' id ≠ .gt) ids' ids
        ∧ ∀ id, inv.Provides available id → id ∉ ids → id ∉ ids')
    ∧ ∀ p', inv.bind wider ps = .error p' →
      ∃ p, inv.bind available ps = .error p := by
  have hprov : ∀ id, inv.Provides available id →
      inv.Provides wider id := by
    rintro id ⟨r, hr, hav⟩
    refine ⟨r, hr, hwider r (hf.mem_all.2 ?_) hav⟩
    rwa [hf.id_eq hr]
  have hok : ∀ ids, inv.bind available ps = .ok ids →
      ∃ ids', inv.bind wider ps = .ok ids' := by
    intro ids h
    obtain ⟨hfit, hids⟩ := bind_firstFit hf h
    exact bind_of_firstFit hf hfit fun id hid => hprov id (hids id hid)
  refine ⟨fun ids h => ?_, fun p' h' => ?_⟩
  · obtain ⟨ids', h'⟩ := hok ids h
    obtain ⟨hall, hleft⟩ := ((bind_eq_ok_iff hf).1 h).wider
      ((bind_eq_ok_iff hf).1 h')
      fun k hk => ⟨hprov k hk.provided, List.not_mem_nil⟩
    exact ⟨ids', h', hall,
      fun id hid hnot => (hleft id ⟨hid, hnot⟩).untaken⟩
  · cases h : inv.bind available ps with
    | error p => exact ⟨p, rfl⟩
    | ok ids =>
      obtain ⟨ids', hids'⟩ := hok ids h
      rw [h'] at hids'
      cases hids'

/-- A bench of three resources, the first of them set aside or not. With
all three to pick from both patterns get something smaller than without
it. Four patterns are too many for the three, hence for the two. -/
theorem binding_monotone_bench :
    let star : Text.Glob := ⟨"*", [.anyRun], by decide⟩
    let any : ResourcePattern := ⟨star, star, star, none⟩
    let fan : Resource :=
      ⟨⟨"bench", "rack", "SysfsGPIO", "fan"⟩, .sysfsGpio 3, false, 1⟩
    let led : Resource :=
      ⟨⟨"bench", "rack", "SysfsGPIO", "led"⟩, .sysfsGpio 7, false, 1⟩
    let relay : Resource :=
      ⟨⟨"bench", "rack", "SysfsGPIO", "relay"⟩, .sysfsGpio 5, false, 1⟩
    let inv : Inventory :=
      ⟨.ofList [(fan.id, ⟨fan, 1⟩), (led.id, ⟨led, 1⟩),
        (relay.id, ⟨relay, 1⟩)]⟩
    let free : Resource → Bool := fun r => !r.acquired
    let left : Resource → Bool := fun r => free r && r.id ≠ fan.id
    inv.Filed
      ∧ (∀ r ∈ inv.all, left r = true → free r = true)
      ∧ inv.bind left [any, any] = .ok [led.id, relay.id]
      ∧ inv.bind free [any, any] = .ok [fan.id, led.id]
      ∧ List.Forall₂ (fun id' id => compare id' id ≠ .gt)
        [fan.id, led.id] [led.id, relay.id]
      ∧ (∀ id, inv.Provides left id → id ∉ [led.id, relay.id] →
        id ∉ [fan.id, led.id])
      ∧ inv.bind free [any, any, any, any] = .error any
      ∧ ∃ p, inv.bind left [any, any, any, any] = .error p := by
  intro star any fan led relay inv free left
  have hpublish : Inventory.empty.publish "bench" 1
      [⟨"rack", "fan", .sysfsGpio 3⟩, ⟨"rack", "led", .sysfsGpio 7⟩,
        ⟨"rack", "relay", .sysfsGpio 5⟩]
      = .ok ([.upserted fan, .upserted led, .upserted relay], inv) := by
    decide +kernel +revert
  have hbind : inv.bind left [any, any] = .ok [led.id, relay.id]
      ∧ inv.bind free [any, any] = .ok [fan.id, led.id]
      ∧ inv.bind free [any, any, any, any] = .error any := by
    decide +kernel +revert
  have hf : inv.Filed := (Reached.publish .empty hpublish).filed
  have hmore : ∀ r ∈ inv.all, left r = true → free r = true :=
    fun _ _ h => (Bool.and_eq_true_iff.1 h).1
  obtain ⟨ids, hfree, hsmaller, hleft⟩ :=
    (binding_monotone hf hmore [any, any]).1 _ hbind.1
  cases hfree.symm.trans hbind.2.1
  exact ⟨hf, hmore, hbind.1, hbind.2.1, hsmaller, hleft, hbind.2.2,
    (binding_monotone hf hmore [any, any, any, any]).2 _ hbind.2.2⟩

end LabLease.Inventory
