/-
The window of events that a journal keeps, and what a subscription gets
of it.

# What a number has to be

A number can be asked from just if the journal has come as far and every
event behind it is kept (`Journal.Keeps`). Two numbers are on the edge:
the last one, behind which there is nothing, so that it can always be
asked from, and the one that was dropped last, behind which everything is
kept. `keeps_extend_iff` puts the condition into numbers, and from there
on it is arithmetic.

# Words

Numbers are 64 bits wide where the program runs. The sum that is taken
before the comparison is taken only of a number that the journal has
reached, so that it does not overflow as long as there is a number left
to give; `sinceWord` is the question asked in words.
-/
import LabLease.Proofs.Coordinator.Journal
import LabLease.Proofs.Coordinator.Log

namespace LabLease.Coordinator

namespace Journal

/-- A number has been reached, and all events behind it are kept. -/
def Keeps (j : Journal) (n : Nat) : Prop :=
  n ≤ j.last ∧ ∀ i, n < i → i ≤ j.last → i ∈ j.events.map (·.seq)

/-- The events after a number, asked for in words of 64 bits: what the
sum does not hold is cut off. -/
def sinceWord (j : Journal) (n : UInt64) : Except Refusal (List Event) :=
  if UInt64.ofNat j.last < n ∨ n + 1 < UInt64.ofNat j.firstRetained then
    .error (.resyncRequired n.toNat)
  else .ok (j.events.filter fun e => n < UInt64.ofNat e.seq)

-- ============================================================= the window

variable (retention : Nat) (cs : List Change)

/-- Of the changes so far the last ones are kept, under the numbers they
were given. -/
theorem window_extend :
    ((new retention).extend cs).events
      = numbered (cs.length - min cs.length (max retention 1))
          (cs.drop (cs.length - min cs.length (max retention 1))) := by
  have hsame : cs.length - min cs.length (max retention 1)
      = cs.length - max retention 1 := by omega
  rw [events_extend, drop_numbered, Nat.zero_add, hsame]

theorem length_window :
    ((new retention).extend cs).events.length
      = min cs.length (max retention 1) := by
  rw [window_extend, length_numbered, List.length_drop]
  omega

/-- The numbers kept are the last ones in a row. -/
theorem seqs_window :
    ((new retention).extend cs).events.map (·.seq)
      = List.range' (cs.length - min cs.length (max retention 1) + 1)
          (min cs.length (max retention 1)) := by
  rw [window_extend, map_seq_numbered, List.length_drop]
  congr 1
  omega

theorem keeps_extend_iff (n : Nat) :
    ((new retention).extend cs).Keeps n
      ↔ n ≤ cs.length ∧ cs.length ≤ n + max retention 1 := by
  unfold Keeps
  rw [last_extend, seqs_window]
  refine and_congr_right fun hn => ⟨fun h => ?_, fun h i hi hlast => ?_⟩
  · -- the first event behind the number is the one that may be missing
    by_cases hlt : n < cs.length
    · have hfirst := List.mem_range'_1.1 (h (n + 1) (by omega) hlt)
      omega
    · omega
  · refine List.mem_range'_1.2 ⟨?_, ?_⟩ <;> omega

-- ======================================================== asking the window

/-- From a number behind which everything is kept all of it is handed
out. -/
theorem since_of_keeps {n : Nat}
    (h : ((new retention).extend cs).Keeps n) :
    ((new retention).extend cs).since n
      = .ok (numbered n (cs.drop n)) := by
  rw [keeps_extend_iff] at h
  rw [since_extend, if_neg (by omega)]

theorem since_of_not_keeps {n : Nat}
    (h : ¬ ((new retention).extend cs).Keeps n) :
    ((new retention).extend cs).since n
      = .error (.resyncRequired n) := by
  rw [keeps_extend_iff] at h
  rw [since_extend, if_pos (by omega)]

/-- What is handed out, and when. -/
theorem since_exact (n : Nat) :
    match ((new retention).extend cs).since n with
    | .ok events => ((new retention).extend cs).Keeps n
      ∧ events.map (·.seq) = List.range' (n + 1) (cs.length - n)
      ∧ events.map (·.change) = cs.drop n
    | .error e => ¬ ((new retention).extend cs).Keeps n
      ∧ e = .resyncRequired n := by
  by_cases hkeeps : ((new retention).extend cs).Keeps n
  · rw [since_of_keeps retention cs hkeeps]
    dsimp only
    rw [map_seq_numbered, map_change_numbered, List.length_drop]
    exact ⟨hkeeps, rfl, rfl⟩
  · rw [since_of_not_keeps retention cs hkeeps]
    exact ⟨hkeeps, rfl⟩

/-- While there is a number left to give, words do as numbers do. -/
theorem sinceWord_eq (hroom : cs.length + 1 < UInt64.size) (n : UInt64) :
    ((new retention).extend cs).sinceWord n
      = ((new retention).extend cs).since n.toNat := by
  have hfirst := firstRetained_extend retention cs
  have hevents : ((new retention).extend cs).events.filter
        (fun e => decide (n < UInt64.ofNat e.seq))
      = ((new retention).extend cs).events.filter
        (fun e => decide (n.toNat < e.seq)) := by
    refine List.filter_congr fun e he => ?_
    have hseq := List.mem_map_of_mem (f := (·.seq)) he
    rw [seqs_window, List.mem_range'_1] at hseq
    have hword : e.seq < UInt64.size := by omega
    exact decide_eq_decide.2 (UInt64.lt_ofNat_iff hword)
  have hlast : cs.length < UInt64.size := by omega
  have hfloor : cs.length - max retention 1 + 1 < UInt64.size := by omega
  unfold sinceWord since
  rw [hevents, last_extend, hfirst]
  refine if_congr ?_ rfl rfl
  rw [UInt64.ofNat_lt_iff hlast]
  by_cases hahead : cs.length < n.toNat
  · exact iff_of_true (.inl hahead) (.inl hahead)
  · -- only here is the sum looked at
    rw [UInt64.lt_ofNat_iff hfloor, toNat_next (by omega)]

end Journal

/-- The journal of a run is the one that its log makes. -/
theorem journal_run (settings : Settings) (inputs : List Input) :
    ((State.new settings).run inputs).journal
      = (Journal.new settings.eventRetention).extend
          ((State.new settings).log inputs) :=
  (Sound.new settings).run_log inputs

/-- What a journal keeps and hands out. Of all changes so far it keeps the
last ones, as many as it may, numbered in a row up to the last number, and
each with its change. Asked for the events behind a number it hands out
all of them, each with the change that was appended under that number, if
it has come as far and keeps them all, and refuses with the number
otherwise. In words of 64 bits it is the same, and the sum in the
comparison does not overflow, as long as there is a number left to give.

The journal of a coordinator is such a journal, so that a subscription
with a number gets just these events or else everything, as of the last
event. -/
theorem retention_exact (retention : Nat) (cs : List Change) :
    (let j := (Journal.new retention).extend cs
    let kept := min cs.length (max retention 1)
    j.last = cs.length
      ∧ j.events.length = kept
      ∧ j.events.map (·.seq) = List.range' (j.last - kept + 1) kept
      ∧ j.events.map (·.change) = cs.drop (j.last - kept)
      ∧ (∀ n, match j.since n with
        | .ok events => j.Keeps n
          ∧ events.map (·.seq) = List.range' (n + 1) (j.last - n)
          ∧ events.map (·.change) = cs.drop n
        | .error e => ¬ j.Keeps n ∧ e = .resyncRequired n)
      ∧ (cs.length + 1 < UInt64.size → ∀ n : UInt64,
        j.sinceWord n = j.since n.toNat
          ∧ (n.toNat ≤ j.last → (n + 1).toNat = n.toNat + 1)))
    ∧ ∀ (settings : Settings) (inputs : List Input) (n : Nat),
      let s := (State.new settings).run inputs
      let log := (State.new settings).log inputs
      s.journal = (Journal.new settings.eventRetention).extend log
        ∧ match s.subscribe (some n) with
          | .replay events => s.journal.Keeps n
            ∧ events.map (·.seq) = List.range' (n + 1) (s.eventNumber - n)
            ∧ events.map (·.change) = log.drop n
          | .resync snapshot => ¬ s.journal.Keeps n
            ∧ snapshot = s.snapshot
            ∧ snapshot.eventNumber = s.eventNumber := by
  refine ⟨?_, fun settings inputs n => ?_⟩
  · intro j kept
    have hlast : j.last = cs.length := Journal.last_extend retention cs
    rw [hlast]
    refine ⟨rfl, Journal.length_window retention cs,
      Journal.seqs_window retention cs, ?_,
      Journal.since_exact retention cs, fun hroom n => ?_⟩
    · have hwindow : j.events = _ := Journal.window_extend retention cs
      rw [hwindow, map_change_numbered]
    · exact ⟨Journal.sinceWord_eq retention cs hroom n,
        fun hn => toNat_next (by omega)⟩
  · intro s log
    have hj : s.journal
        = (Journal.new settings.eventRetention).extend log :=
      journal_run settings inputs
    have hnumber : s.eventNumber = log.length :=
      (congrArg Journal.last hj).trans (Journal.last_extend _ log)
    have hexact := Journal.since_exact settings.eventRetention log n
    refine ⟨hj, ?_⟩
    rw [hnumber]
    unfold State.subscribe
    dsimp only
    rw [hj]
    cases hsince : ((Journal.new settings.eventRetention).extend log).since
        n with
    | ok events =>
      rw [hsince] at hexact
      exact hexact
    | error e =>
      rw [hsince] at hexact
      exact ⟨hexact.1, rfl, hnumber⟩

/-- A journal that keeps two events, after the third. What follows on the
first event is all there, though that event itself is gone; what follows
on none is not. Nor is there anything behind the largest word, whose
successor would be zero. -/
theorem retention_exact_two :
    let gone : List Change :=
      [.placeDeleted "east", .placeDeleted "north", .placeDeleted "west"]
    let j := (Journal.new 2).extend gone
    gone.length + 1 < UInt64.size
      ∧ j.sinceWord 0 = .error (.resyncRequired 0)
      ∧ j.sinceWord 1
        = .ok [⟨2, .placeDeleted "north"⟩, ⟨3, .placeDeleted "west"⟩]
      ∧ j.sinceWord 3 = .ok []
      ∧ j.sinceWord 18446744073709551615
        = .error (.resyncRequired 18446744073709551615) := by
  intro gone j
  have hroom : gone.length + 1 < UInt64.size := by decide
  obtain ⟨⟨-, -, -, -, -, hwords⟩, -⟩ := retention_exact 2 gone
  have hsince : ∀ n : UInt64, j.sinceWord n = j.since n.toNat :=
    fun n => (hwords hroom n).1
  simp only [hsince]
  refine ⟨hroom, ?_⟩
  decide +kernel

end LabLease.Coordinator
