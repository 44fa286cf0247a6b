/-
What a peer does on its connection, and what comes of it. Requests have
numbers of their own (`run_ids`), and an answer goes to the request of its
number and to no other (`answer_asked`), whatever the lines are that come
and whoever has stopped waiting.
-/
import LabLease.Client.Link
import LabLease.Proofs.Table

namespace LabLease.Client.Link

/-- What a peer does on its connection. -/
inductive Act where
  | ask (op : Operation)
  /-- It waits for an answer no more. -/
  | giveUp (id : Nat)
  | take (line : ReadLine)

/-- The line that is taken. -/
def Act.line? : Act → Option ReadLine
  | .take line => some line
  | .ask _ | .giveUp _ => none

/-- One thing after the other: the requests that are sent, and what the
lines come to that are taken. -/
def run (l : Link) : List Act → List RequestFrame × List Arrival × Link
  | [] => ([], [], l)
  | .ask op :: rest =>
    let (frame, l) := l.send op
    let (frames, arrivals, l) := run l rest
    (frame :: frames, arrivals, l)
  | .giveUp id :: rest => run (l.giveUp id) rest
  | .take line :: rest =>
    let (arrival, l) := l.receive line
    let (frames, arrivals, l) := run l rest
    (frames, arrival :: arrivals, l)

variable {l : Link} {acts : List Act} {id : Nat} {op : Operation}
  {r : Except Refusal Reply} {line : ReadLine}

/-- A line that answers a request is the line of an answer to it, and the
request has waited. -/
theorem receive_answer (h : (l.receive line).1 = .answer id op r) :
    l.waiting.get? id = some op ∧ ∃ s g, line = .line s
      ∧ parseFrame ServerFrame.ofJson? s = .ok g
      ∧ Inbound.ofFrame g = .reply id r := by
  unfold receive at h
  split at h
  · next s =>
    split at h
    · next g hparse =>
      unfold receiveFrame at h
      split at h
      · next id' result hreply =>
        split at h
        · next op' hwaits =>
          cases h
          exact ⟨hwaits, s, g, rfl, hparse, hreply⟩
        · cases h
      · cases h
    · cases h
  · cases h

/-- A line leaves everything as it is, but that somebody may wait no
more. -/
theorem receive_link (l : Link) (line : ReadLine) :
    (l.receive line).2 = l ∨ ∃ id, (l.receive line).2 = l.giveUp id := by
  unfold receive
  split
  · split
    · unfold receiveFrame
      split
      · split
        · exact Or.inr ⟨_, rfl⟩
        · exact Or.inl rfl
      · exact Or.inl rfl
    · exact Or.inl rfl
  · exact Or.inl rfl

theorem waiting_giveUp {id' : Nat}
    (h : (l.giveUp id').waiting.get? id = some op) :
    l.waiting.get? id = some op := by
  unfold giveUp at h
  rw [Table.get?_erase] at h
  split at h
  · cases h
  · exact h

theorem waiting_receive
    (h : (l.receive line).2.waiting.get? id = some op) :
    l.waiting.get? id = some op := by
  rcases l.receive_link line with hsame | ⟨id', hless⟩
  · exact hsame ▸ h
  · exact waiting_giveUp (hless ▸ h)

theorem lastId_receive (l : Link) (line : ReadLine) :
    (l.receive line).2.lastId = l.lastId := by
  rcases l.receive_link line with hsame | ⟨id', hless⟩
  · rw [hsame]
  · rw [hless]
    rfl

/-- Requests are numbered one after the other. -/
theorem run_ids (l : Link) (acts : List Act) :
    (l.run acts).1.map RequestFrame.id
      = List.range' (l.lastId + 1) (l.run acts).1.length := by
  induction acts generalizing l with
  | nil => rfl
  | cons act acts ih =>
    cases act with
    | ask op =>
      show (l.lastId + 1) :: ((l.send op).2.run acts).1.map RequestFrame.id
        = List.range' (l.lastId + 1)
          (((l.send op).2.run acts).1.length + 1)
      rw [ih, List.range'_succ]
      rfl
    | giveUp id => exact ih (l.giveUp id)
    | take line =>
      show ((l.receive line).2.run acts).1.map RequestFrame.id
        = List.range' _ ((l.receive line).2.run acts).1.length
      rw [ih, lastId_receive]

/-- An answer goes to whoever has asked under its number, and it is the
answer that a line is read as. -/
theorem answer_asked (h : Arrival.answer id op r ∈ (l.run acts).2.1) :
    (l.waiting.get? id = some op ∨ ⟨id, op⟩ ∈ (l.run acts).1)
      ∧ ∃ s g, .line s ∈ acts.filterMap Act.line?
        ∧ parseFrame ServerFrame.ofJson? s = .ok g
        ∧ Inbound.ofFrame g = .reply id r := by
  induction acts generalizing l with
  | nil => cases h
  | cons act acts ih =>
    cases act with
    | ask op' =>
      obtain ⟨hasked, hline⟩ := ih h
      refine ⟨?_, hline⟩
      show _ ∨ _ ∈ (l.send op').1 :: ((l.send op').2.run acts).1
      rcases hasked with hwaits | hmem
      · rw [Table.get?_insert] at hwaits
        split at hwaits
        · next heq =>
          cases hwaits
          subst heq
          exact Or.inr List.mem_cons_self
        · exact Or.inl hwaits
      · exact Or.inr (List.mem_cons_of_mem _ hmem)
    | giveUp id' =>
      obtain ⟨hasked, hline⟩ := ih h
      exact ⟨hasked.imp_left waiting_giveUp, hline⟩
    | take line =>
      rcases List.mem_cons.1 h with hthis | hlater
      · obtain ⟨hwaits, s, g, rfl, hread⟩ := receive_answer hthis.symm
        exact ⟨Or.inl hwaits, s, g, List.mem_cons_self, hread⟩
      · obtain ⟨hasked, s, g, hmem, hread⟩ := ih hlater
        exact ⟨hasked.imp_left waiting_receive, s, g,
          List.mem_cons_of_mem _ hmem, hread⟩

end LabLease.Client.Link
