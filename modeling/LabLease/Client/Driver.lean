/-
Drivers, which make acquired resources usable. Binding a list of
resources activates them in order, and a failure on the way deactivates
what was activated, last first, so that either all are bound or none is.
Whether a call succeeds may depend on all calls before it: drivers share
a state `σ`.
-/
import LabLease.Refusal
import LabLease.Resource.Basic

namespace LabLease

/-- What handles the resources of one class. -/
structure Driver (σ : Type) where
  cls : String
  activate : Resource → σ → Except Failure Unit × σ
  deactivate : Resource → σ → Except Failure Unit × σ

/-- A resource that is in use, and what handles it. -/
structure Binding (σ : Type) where
  resource : Resource
  driver : Driver σ

/-- A call of a driver, and whether it succeeded. -/
inductive DriverCall where
  | on (resource : Resource) (succeeded : Bool)
  | off (resource : Resource) (succeeded : Bool)
deriving DecidableEq

/-- The drivers by class. -/
structure Drivers (σ : Type) where
  byClass : Table String (Driver σ)

namespace Drivers

variable {σ : Type}

def empty : Drivers σ := ⟨.empty⟩

/-- Adds a driver. A class has one driver. -/
def register (d : Drivers σ) (driver : Driver σ) :
    Except Failure (Drivers σ) :=
  if d.byClass.contains driver.cls then
    .error (.of s!"Driver for class '{driver.cls}' already registered")
  else .ok ⟨d.byClass.insert driver.cls driver⟩

def get? (d : Drivers σ) (cls : String) : Option (Driver σ) :=
  d.byClass.get? cls

/-- The classes that have a driver, in order. -/
def classes (d : Drivers σ) : List String := d.byClass.keys

/-- Deactivates resources in the order given, all of them whatever
happens, and keeps the first failure. -/
def deactivateAll : List (Binding σ) → σ →
    (List DriverCall × Option Failure) × σ
  | [], s => (([], none), s)
  | b :: rest, s =>
    match b.driver.deactivate b.resource s with
    | (.ok (), s) =>
      let ((calls, failure), s) := deactivateAll rest s
      ((.off b.resource true :: calls, failure), s)
    | (.error e, s) =>
      let ((calls, _), s) := deactivateAll rest s
      ((.off b.resource false :: calls, some e), s)

/-- Activates resources in order. `bound` are those that are active
already, the last one first; a failure deactivates them. -/
def bindFrom (d : Drivers σ) (bound : List (Binding σ)) :
    List Resource → σ →
      (List DriverCall × Except Failure (List (Binding σ))) × σ
  | [], s => (([], .ok bound.reverse), s)
  | r :: rest, s =>
    let text := s!"Failed to activate {r.id.text}"
    match d.get? r.id.cls with
    | none =>
      let ((calls, _), s) := deactivateAll bound s
      let e := Failure.of s!"No driver for resource class '{r.id.cls}'"
      ((calls, .error (e.during text)), s)
    | some driver =>
      match driver.activate r s with
      | (.ok (), s) =>
        let ((calls, result), s) :=
          bindFrom d (⟨r, driver⟩ :: bound) rest s
        ((.on r true :: calls, result), s)
      | (.error e, s) =>
        let ((calls, _), s) := deactivateAll bound s
        ((.on r false :: calls, .error (e.during text)), s)

/-- Binds all resources or none. -/
def bind (d : Drivers σ) (resources : List Resource) (s : σ) :
    (List DriverCall × Except Failure (List (Binding σ))) × σ :=
  d.bindFrom [] resources s

/-- Deactivates what is bound, the last one first. -/
def unbind (bindings : List (Binding σ)) (s : σ) :
    (List DriverCall × Option Failure) × σ :=
  deactivateAll bindings.reverse s

end Drivers

end LabLease
