/-
A peer among others: it asks for one thing after the other, and before
each request the others have the coordinator do whatever they want.

What a peer is told and what it has asked for are all that it sees of the
coordinator. So a task of a peer that is written against some way of
making requests is run here with the way that leads to a coordinator,
whose state goes through the calls of everybody (`Seat.request_run`).
-/
import LabLease.Proofs.Coordinator.Run

namespace LabLease.Coordinator

/-- What others do: their calls before each request of a peer, by the
number of requests before it, and when the request comes in. -/
structure Surroundings where
  calls : Nat → List Input
  clock : Nat → Moment

/-- A peer and the coordinator: its session, once it has one, and what it
has asked for. -/
structure Seat where
  state : State
  session : Option SessionId := none
  requests : List Operation := []

namespace Seat

variable (around : Surroundings) (op : Operation) (x : Seat)

/-- The state that the next request meets. -/
def met : State := x.state.run (around.calls x.requests.length)

/-- A request. The first thing that is asked for is a session. -/
def request : Except Refusal Reply × Seat :=
  let s := x.met around
  let now := around.clock x.requests.length
  let requests := x.requests ++ [op]
  match x.session, op with
  | some id, op =>
    let (result, s) := (Action.execute id op now).apply s
    (result, ⟨s, some id, requests⟩)
  | none, .register name role =>
    match (Action.register name role now).apply s with
    | (.ok id, s) =>
      (.ok (.registered id s.eventNumber), ⟨s, some id, requests⟩)
    | (.error e, s) => (.error e, ⟨s, none, requests⟩)
  | none, _ =>
    (.error (.staleSession "register first"), ⟨s, none, requests⟩)

variable {around op x} {id : SessionId}

/-- Within a session a request is an operation of it. -/
theorem request_of_session (h : x.session = some id) :
    x.request around op
      = let told := (Action.execute id op
          (around.clock x.requests.length)).apply (x.met around)
        (told.1, ⟨told.2, some id, x.requests ++ [op]⟩) := by
  unfold request
  rw [h]

/-- Without one, registering is a registration. -/
theorem request_register (h : x.session = none) (around : Surroundings)
    (name : String) (role : Role) :
    let told := (Action.register name role
      (around.clock x.requests.length)).apply (x.met around)
    let requests := x.requests ++ [.register name role]
    (∃ e, told.1 = .error e
        ∧ x.request around (.register name role)
          = (.error e, ⟨told.2, none, requests⟩))
      ∨ ∃ id reply, told.1 = .ok id
        ∧ x.request around (.register name role)
          = (.ok reply, ⟨told.2, some id, requests⟩) := by
  intro told requests
  have heq : x.request around (.register name role)
      = match told with
        | (.ok id, s) => (.ok (.registered id s.eventNumber),
          ⟨s, some id, requests⟩)
        | (.error e, s) => (.error e, ⟨s, none, requests⟩) := by
    unfold request
    rw [h]
  rw [heq]
  rcases told with ⟨e | id, s⟩
  · exact Or.inl ⟨e, rfl, rfl⟩
  · exact Or.inr ⟨id, _, rfl, rfl⟩

@[simp] theorem request_requests :
    (x.request around op).2.requests = x.requests ++ [op] := by
  unfold request
  split
  · rfl
  · dsimp only
    split <;> rfl
  · rfl

theorem request_session (h : x.session = some id) :
    (x.request around op).2.session = some id := by
  rw [request_of_session h]

/-- A request is one of the calls that the coordinator goes through. -/
theorem request_run (around : Surroundings) (op : Operation) (x : Seat) :
    ∃ inputs, (x.request around op).2.state = x.state.run inputs := by
  have hmet : ∀ input, (x.met around).step input
      = x.state.run (around.calls x.requests.length ++ [input]) := by
    intro input
    rw [State.run_append]
    rfl
  cases hsession : x.session with
  | some id =>
    rw [request_of_session hsession]
    exact ⟨_, hmet (.execute id op _)⟩
  | none =>
    cases op with
    | register name role =>
      have hstep := hmet (.register name role
        (around.clock x.requests.length))
      rcases request_register hsession around name role with
        ⟨e, -, heq⟩ | ⟨id, reply, -, heq⟩
      · exact ⟨_, (congrArg (fun out => out.2.state) heq).trans hstep⟩
      · exact ⟨_, (congrArg (fun out => out.2.state) heq).trans hstep⟩
    | _ =>
      unfold request
      rw [hsession]
      exact ⟨_, rfl⟩

end Seat

end LabLease.Coordinator
