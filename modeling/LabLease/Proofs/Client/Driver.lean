/-
Binding is all or nothing.

What drivers do is a matter of a state that no one here can see into, so
what is said of a list of calls says of each from which state it was made
and to which one it led (`Activated`, `Deactivated`). Binding resources
activates them up to the first that cannot be (`Unusable`), and if there is
one deactivates those before it, last first, whatever comes of that
(`bindFrom_cases`). What is bound is unbound in the same way.
-/
import LabLease.Client.Driver

namespace LabLease

namespace Drivers

variable {σ : Type}

/-- Resources that were activated one after the other, each by the driver
of its class. -/
inductive Activated (d : Drivers σ) : List (Binding σ) → σ → σ → Prop
  | nil (s : σ) : Activated d [] s s
  | cons {b : Binding σ} {bs : List (Binding σ)} {s mid s' : σ}
      (hdriver : d.get? b.resource.id.cls = some b.driver)
      (hon : b.driver.activate b.resource s = (.ok (), mid))
      (hrest : Activated d bs mid s') : Activated d (b :: bs) s s'

/-- Resources that were deactivated one after the other, and what came of
it for each. -/
inductive Deactivated :
    List (Binding σ) → List (Except Failure Unit) → σ → σ → Prop
  | nil (s : σ) : Deactivated [] [] s s
  | cons {b : Binding σ} {bs : List (Binding σ)}
      {result : Except Failure Unit} {results : List (Except Failure Unit)}
      {s mid s' : σ}
      (hoff : b.driver.deactivate b.resource s = (result, mid))
      (hrest : Deactivated bs results mid s') :
      Deactivated (b :: bs) (result :: results) s s'

/-- A resource that cannot be activated: the calls this took, and the
failure. -/
inductive Unusable (d : Drivers σ) (r : Resource) :
    σ → List DriverCall → Failure → σ → Prop
  | undriven {s : σ} (hnone : d.get? r.id.cls = none) : Unusable d r s []
      (.of s!"No driver for resource class '{r.id.cls}'") s
  | failed {s s' : σ} {driver : Driver σ} {e : Failure}
      (hdriver : d.get? r.id.cls = some driver)
      (hon : driver.activate r s = (.error e, s')) :
      Unusable d r s [.on r false] e s'

/-- The calls that activated resources. -/
def ons (bs : List (Binding σ)) : List DriverCall :=
  bs.map fun b => .on b.resource true

/-- The calls that deactivated resources. -/
def offs (bs : List (Binding σ)) (results : List (Except Failure Unit)) :
    List DriverCall :=
  List.zipWith (fun b result => .off b.resource result.toBool) bs results

/-- The failure of a call, if it failed. -/
def failure? : Except Failure Unit → Option Failure
  | .ok () => none
  | .error e => some e

-- =========================================================== deactivation

/-- All are deactivated, and the first failure is kept. -/
theorem deactivateAll_eq (bs : List (Binding σ)) (s : σ) :
    ∃ results s', Deactivated bs results s s' ∧ deactivateAll bs s
      = ((offs bs results, results.findSome? failure?), s') := by
  induction bs generalizing s with
  | nil => exact ⟨[], s, .nil s, rfl⟩
  | cons b bs ih =>
    obtain ⟨result, mid, hoff⟩ :
        ∃ result mid, b.driver.deactivate b.resource s = (result, mid) :=
      ⟨_, _, rfl⟩
    obtain ⟨results, s', hrest, heq⟩ := ih mid
    refine ⟨result :: results, s', .cons hoff hrest, ?_⟩
    unfold deactivateAll
    rw [hoff]
    cases result with
    | ok u =>
      simp only [heq]
      rfl
    | error e =>
      simp only [heq]
      rfl

-- ============================================================= activation

/-- Behind resources that are active already, the others become so as
well, or all are deactivated with the first that cannot. -/
theorem bindFrom_cases (d : Drivers σ) (bound : List (Binding σ))
    (rs : List Resource) (s : σ) :
    (∃ bs s', rs = bs.map (·.resource) ∧ Activated d bs s s'
        ∧ d.bindFrom bound rs s
          = ((ons bs, .ok (bound.reverse ++ bs)), s'))
      ∨ ∃ bs r rest mid tried e mid' results s',
        rs = bs.map (·.resource) ++ r :: rest ∧ Activated d bs s mid
          ∧ Unusable d r mid tried e mid'
          ∧ Deactivated (bs.reverse ++ bound) results mid' s'
          ∧ d.bindFrom bound rs s
            = ((ons bs ++ tried ++ offs (bs.reverse ++ bound) results,
              .error (e.during s!"Failed to activate {r.id.text}")),
              s') := by
  induction rs generalizing bound s with
  | nil =>
    refine Or.inl ⟨[], s, rfl, .nil s, ?_⟩
    rw [List.append_nil]
    rfl
  | cons r rest ih =>
    unfold bindFrom
    cases hdriver : d.get? r.id.cls with
    | none =>
      obtain ⟨results, s', hoff, heq⟩ := deactivateAll_eq bound s
      refine Or.inr ⟨[], r, rest, s, [], _, s, results, s', rfl, .nil s,
        .undriven hdriver, hoff, ?_⟩
      simp only [heq]
      rfl
    | some driver =>
      obtain ⟨result, mid, hon⟩ :
          ∃ result mid, driver.activate r s = (result, mid) := ⟨_, _, rfl⟩
      simp only [hon]
      cases result with
      | error e =>
        obtain ⟨results, s', hoff, heq⟩ := deactivateAll_eq bound mid
        refine Or.inr ⟨[], r, rest, s, _, e, mid, results, s', rfl, .nil s,
          .failed hdriver hon, hoff, ?_⟩
        simp only [heq]
        rfl
      | ok u =>
        rcases ih (⟨r, driver⟩ :: bound) mid with
          ⟨bs, s', rfl, hbs, heq⟩
          | ⟨bs, r', rest', here, tried, e, there, results, s', rfl, hbs, hr,
            hoff, heq⟩
        · refine Or.inl ⟨⟨r, driver⟩ :: bs, s', rfl,
            .cons hdriver hon hbs, ?_⟩
          simp only [heq, List.reverse_cons, List.append_assoc]
          rfl
        · rw [List.append_cons, ← List.reverse_cons] at hoff
          refine Or.inr ⟨⟨r, driver⟩ :: bs, r', rest', here, tried, e, there,
            results, s', rfl, .cons hdriver hon hbs, hr, hoff, ?_⟩
          simp only [heq, List.reverse_cons, List.append_assoc]
          rfl

-- ========================================================= all or nothing

/-- Binding is all or nothing. Either each resource was activated, in
order, and nothing else was called; or those in front of one that cannot
be activated were, and then each of them was deactivated, last first and
whatever came of it, with nothing done about the resources behind that one,
whose failure is what is returned. Unbinding deactivates each resource
once, last first, and returns the first failure. -/
theorem binding_all_or_none :
    (∀ (d : Drivers σ) (rs : List Resource) (s : σ),
        (∃ bs s', rs = bs.map (·.resource) ∧ Activated d bs s s'
          ∧ d.bind rs s = ((ons bs, .ok bs), s'))
        ∨ ∃ bs r rest mid tried e mid' results s',
          rs = bs.map (·.resource) ++ r :: rest ∧ Activated d bs s mid
            ∧ Unusable d r mid tried e mid'
            ∧ Deactivated bs.reverse results mid' s'
            ∧ d.bind rs s
              = ((ons bs ++ tried ++ offs bs.reverse results,
                .error (e.during s!"Failed to activate {r.id.text}")), s'))
      ∧ ∀ (bs : List (Binding σ)) (s : σ),
        ∃ results s', Deactivated bs.reverse results s s'
          ∧ unbind bs s
            = ((offs bs.reverse results, results.findSome? failure?),
              s') := by
  constructor
  · intro d rs s
    have h := d.bindFrom_cases [] rs s
    simp only [List.append_nil, List.reverse_nil, List.nil_append] at h
    exact h
  · intro bs s
    exact deactivateAll_eq bs.reverse s

end Drivers

end LabLease
