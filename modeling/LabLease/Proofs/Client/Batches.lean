/-
A replica to which batches of events are delivered in whatever way: twice,
out of order, overlapping, cut short or with some left out.

# What carries the induction

As long as each event carries the change that belongs to its number, there
is one thing only that a replica can have become: what its snapshot is
after the changes up to some number (`Replica.upTo`). An event is known,
next or too far on, and in each case the replica stays of this form, so
that a batch takes it from one number to another (`Course`). Two courses
end a batch: all of it has been gone through, or it is cut at a gap.

# Words

Numbers are 64 bits wide where the program runs. The number after the last
one is looked at only when a larger number has come, so that there is one
(`verdictWord_eq`).
-/
import LabLease.Proofs.Client.Replica

namespace LabLease.Replica

/-- A verdict in words of 64 bits: what the sum does not hold is cut
off. -/
def verdictWord (last seq : UInt64) : Verdict :=
  if seq ≤ last then .known else if seq = last + 1 then .next else .gap

/-- What a snapshot is after the changes up to a number, where `line` has
the change of each number. -/
def upTo (snapshot : Snapshot) (line : Nat → Change) (m : Nat) : Replica :=
  { (ofSnapshot snapshot).applyAll
      ((List.range' (snapshot.eventNumber + 1)
        (m - snapshot.eventNumber)).map line) with
    lastEvent := some m }

/-- Applies batches in turn, whatever comes of each. -/
def applyBatches (r : Replica) (batches : List (List Event)) : Replica :=
  batches.foldl (fun r batch => (r.applyEvents batch).2) r

-- ================================================================ verdicts

theorem verdict_known {m seq : Nat} (h : seq ≤ m) :
    verdict (some m) seq = .known :=
  if_pos h

theorem verdict_next (m : Nat) : verdict (some m) (m + 1) = .next := by
  unfold verdict
  dsimp only
  rw [if_neg (by omega), if_pos rfl]

theorem verdict_gap {m seq : Nat} (h : m + 1 < seq) :
    verdict (some m) seq = .gap := by
  unfold verdict
  dsimp only
  rw [if_neg (by omega), if_neg (by omega)]

/-- Below a word that has come there is room for the next one. -/
theorem toNat_succ_of_lt {last seq : UInt64} (h : last < seq) :
    (last + 1).toNat = last.toNat + 1 := by
  have hlt : last.toNat < seq.toNat := UInt64.lt_iff_toNat_lt.1 h
  have hseq : seq.toNat < UInt64.size := seq.toNat_lt_size
  exact Coordinator.toNat_next (by omega)

/-- Words do as numbers do. -/
theorem verdictWord_eq (last seq : UInt64) :
    verdictWord last seq = verdict (some last.toNat) seq.toNat := by
  unfold verdictWord verdict
  dsimp only
  by_cases hknown : seq ≤ last
  · rw [if_pos hknown, if_pos (UInt64.le_iff_toNat_le.1 hknown)]
  · have hbehind : last < seq := UInt64.not_le.1 hknown
    have hnext : seq = last + 1 ↔ seq.toNat = last.toNat + 1 := by
      rw [← UInt64.toNat_inj, toNat_succ_of_lt hbehind]
    rw [if_neg hknown, if_neg (mt UInt64.le_iff_toNat_le.2 hknown)]
    exact if_congr hnext rfl rfl

-- ================================================================= batches

variable {snapshot : Snapshot} {line : Nat → Change} {m : Nat}

theorem upTo_snapshot (snapshot : Snapshot) (line : Nat → Change) :
    upTo snapshot line snapshot.eventNumber = ofSnapshot snapshot := by
  unfold upTo
  rw [Nat.sub_self]
  rfl

/-- The change of the next number leads from one number to the next. -/
theorem upTo_succ (hm : snapshot.eventNumber ≤ m) :
    { (upTo snapshot line m).applyChange (line (m + 1)) with
        lastEvent := some (m + 1) }
      = upTo snapshot line (m + 1) := by
  have hstep : m + 1 - snapshot.eventNumber
      = m - snapshot.eventNumber + 1 := by omega
  have hlast : snapshot.eventNumber + 1 + 1 * (m - snapshot.eventNumber)
      = m + 1 := by omega
  unfold upTo
  rw [hstep, List.range'_concat, List.map_append, applyAll_append, hlast]
  show { ({ (applyAll _ _) with lastEvent := some m }).applyAll
    [line (m + 1)] with lastEvent := some (m + 1) } = _
  rw [applyAll_with_lastEvent]
  rfl

theorem applyFrom_known {r : Replica} {e : Event}
    (h : verdict r.lastEvent e.seq = .known) (count : Nat)
    (rest : List Event) :
    r.applyFrom count (e :: rest) = r.applyFrom count rest := by
  rw [applyFrom, h]

theorem applyFrom_next {r : Replica} {e : Event}
    (h : verdict r.lastEvent e.seq = .next) (count : Nat)
    (rest : List Event) :
    r.applyFrom count (e :: rest)
      = { r.applyChange e.change with lastEvent := some e.seq }.applyFrom
          (count + 1) rest := by
  rw [applyFrom, h]

theorem applyFrom_gap {r : Replica} {e : Event}
    (h : verdict r.lastEvent e.seq = .gap) (count : Nat)
    (rest : List Event) :
    r.applyFrom count (e :: rest)
      = (.error (.resyncRequired (r.lastEvent.getD 0)), r) := by
  rw [applyFrom, h]

/-- What comes behind a gap is not looked at. -/
theorem applyFrom_append (count : Nat) (r : Replica)
    (front rest : List Event) :
    r.applyFrom count (front ++ rest)
      = match r.applyFrom count front with
        | (.ok c, r') => r'.applyFrom c rest
        | (.error e, r') => (.error e, r') := by
  induction front generalizing count r with
  | nil => rfl
  | cons e front ih =>
    rw [List.cons_append]
    cases h : verdict r.lastEvent e.seq with
    | known =>
      rw [applyFrom_known h, applyFrom_known h]
      exact ih count r
    | next =>
      rw [applyFrom_next h, applyFrom_next h]
      exact ih (count + 1) _
    | gap => rw [applyFrom_gap h, applyFrom_gap h]

/-- How a batch takes a replica from one number to another: it is gone
through to its end, with a count of what was new, or it is cut before an
event that is too far on. -/
inductive Course (snapshot : Snapshot) (line : Nat → Change)
    (m count m' : Nat) (batch : List Event) : Prop where
  | whole
    (result : (upTo snapshot line m).applyFrom count batch
      = (.ok (count + (m' - m)), upTo snapshot line m'))
    (reached : ∀ e ∈ batch, e.seq ≤ m')
  | cut (front : List Event) (e : Event) (rest : List Event)
    (batch_eq : batch = front ++ e :: rest)
    (result : (upTo snapshot line m).applyFrom count batch
      = (.error (.resyncRequired m'), upTo snapshot line m'))
    (before : (upTo snapshot line m).applyFrom count front
      = (.ok (count + (m' - m)), upTo snapshot line m'))
    (reached : ∀ e ∈ front, e.seq ≤ m')
    (gap : m' + 1 < e.seq)

namespace Course

variable {count m' : Nat} {e : Event} {rest : List Event}

/-- An event that has been applied before changes nothing. -/
theorem known (hle : e.seq ≤ m) (hm' : m ≤ m')
    (h : Course snapshot line m count m' rest) :
    Course snapshot line m count m' (e :: rest) := by
  have hskip : ∀ events, (upTo snapshot line m).applyFrom count (e :: events)
      = (upTo snapshot line m).applyFrom count events :=
    applyFrom_known (verdict_known hle) count
  have hreached : ∀ {events : List Event}, (∀ x ∈ events, x.seq ≤ m') →
      ∀ x ∈ e :: events, x.seq ≤ m' := by
    intro events hall
    exact List.forall_mem_cons.2 ⟨Nat.le_trans hle hm', hall⟩
  cases h with
  | whole result reached =>
    exact .whole ((hskip rest).trans result) (hreached reached)
  | cut front x after batch_eq result before reached gap =>
    exact .cut (e :: front) x after (congrArg (e :: ·) batch_eq)
      ((hskip rest).trans result) ((hskip front).trans before)
      (hreached reached) gap

/-- The next event is applied and counted. -/
theorem next (hm : snapshot.eventNumber ≤ m) (hseq : e.seq = m + 1)
    (hchange : e.change = line e.seq) (hm' : m + 1 ≤ m')
    (h : Course snapshot line (m + 1) (count + 1) m' rest) :
    Course snapshot line m count m' (e :: rest) := by
  have hnext : verdict (upTo snapshot line m).lastEvent e.seq = .next :=
    hseq ▸ verdict_next m
  have happly : ∀ events, (upTo snapshot line m).applyFrom count (e :: events)
      = (upTo snapshot line (m + 1)).applyFrom (count + 1) events := by
    intro events
    rw [applyFrom_next hnext, hchange, hseq, upTo_succ hm]
  have hcount : count + 1 + (m' - (m + 1)) = count + (m' - m) := by omega
  have hreached : ∀ {events : List Event}, (∀ x ∈ events, x.seq ≤ m') →
      ∀ x ∈ e :: events, x.seq ≤ m' := by
    intro events hall
    exact List.forall_mem_cons.2 ⟨hseq ▸ hm', hall⟩
  cases h with
  | whole result reached =>
    rw [hcount] at result
    exact .whole ((happly rest).trans result) (hreached reached)
  | cut front x after batch_eq result before reached gap =>
    rw [hcount] at before
    exact .cut (e :: front) x after (congrArg (e :: ·) batch_eq)
      ((happly rest).trans result) ((happly front).trans before)
      (hreached reached) gap

/-- An event that is too far on ends the course where it is. -/
theorem gapped (hgap : m + 1 < e.seq) :
    Course snapshot line m count m (e :: rest) := by
  refine .cut [] e rest rfl ?_ ?_ (List.forall_mem_nil _) hgap
  · exact applyFrom_gap (verdict_gap hgap) count rest
  · rw [Nat.sub_self]
    rfl

end Course

/-- Every batch takes a replica from one number to one that is no
smaller. -/
theorem course_applyFrom {batch : List Event}
    (h : ∀ e ∈ batch, snapshot.eventNumber < e.seq → e.change = line e.seq)
    (hm : snapshot.eventNumber ≤ m) (count : Nat) :
    ∃ m', m ≤ m' ∧ Course snapshot line m count m' batch := by
  induction batch generalizing m count with
  | nil =>
    refine ⟨m, Nat.le_refl m, .whole ?_ (List.forall_mem_nil _)⟩
    rw [Nat.sub_self]
    rfl
  | cons e rest ih =>
    obtain ⟨hchange, hrest⟩ := List.forall_mem_cons.1 h
    rcases Nat.lt_trichotomy e.seq (m + 1) with hlt | hseq | hgap
    · obtain ⟨m', hle, hcourse⟩ := ih hrest hm count
      exact ⟨m', hle, hcourse.known (Nat.le_of_lt_succ hlt) hle⟩
    · obtain ⟨m', hle, hcourse⟩ := ih hrest (by omega : _ ≤ m + 1) (count + 1)
      exact ⟨m', by omega,
        hcourse.next hm hseq (hchange (by omega)) hle⟩
    · exact ⟨m, Nat.le_refl m, .gapped hgap⟩

/-- Whatever has been delivered, a replica is its snapshot after the
changes up to some number. -/
theorem applyBatches_upTo {batches : List (List Event)}
    (h : ∀ b ∈ batches, ∀ e ∈ b,
      snapshot.eventNumber < e.seq → e.change = line e.seq)
    (hm : snapshot.eventNumber ≤ m) :
    ∃ m', m ≤ m' ∧ (upTo snapshot line m).applyBatches batches
      = upTo snapshot line m' := by
  induction batches generalizing m with
  | nil => exact ⟨m, Nat.le_refl m, rfl⟩
  | cons b batches ih =>
    obtain ⟨hb, hbatches⟩ := List.forall_mem_cons.1 h
    obtain ⟨m₁, hle, hcourse⟩ := course_applyFrom hb hm 0
    have hafter : ((upTo snapshot line m).applyEvents b).2
        = upTo snapshot line m₁ := by
      cases hcourse with
      | whole result => exact congrArg Prod.snd result
      | cut _ _ _ _ result => exact congrArg Prod.snd result
    obtain ⟨m', hle', hall⟩ := ih hbatches (Nat.le_trans hm hle)
    refine ⟨m', Nat.le_trans hle hle', ?_⟩
    show ((upTo snapshot line m).applyEvents b).2.applyBatches batches = _
    rw [hafter, hall]

/-- A batch is refused just where it has an event that is too far on, with
everything before that event applied. -/
theorem refused_iff {batch : List Event}
    (h : ∀ e ∈ batch, snapshot.eventNumber < e.seq → e.change = line e.seq)
    (hm : snapshot.eventNumber ≤ m) (stop : Nat) :
    ((upTo snapshot line m).applyEvents batch).1
        = .error (.resyncRequired stop)
      ↔ ∃ front e rest c, batch = front ++ e :: rest
        ∧ (upTo snapshot line m).applyEvents front
          = (.ok c, upTo snapshot line stop)
        ∧ (∀ x ∈ front, x.seq ≤ stop)
        ∧ stop + 1 < e.seq := by
  unfold applyEvents
  constructor
  · intro herror
    obtain ⟨m', -, hcourse⟩ := course_applyFrom h hm 0
    cases hcourse with
    | whole result =>
      rw [result] at herror
      cases herror
    | cut front e rest batch_eq result before reached gap =>
      rw [result] at herror
      cases herror
      exact ⟨front, e, rest, _, batch_eq, before, reached, gap⟩
  · rintro ⟨front, e, rest, c, rfl, hfront, -, hgap⟩
    rw [applyFrom_append, hfront]
    exact congrArg Prod.fst (applyFrom_gap (verdict_gap hgap) c rest)

-- ============================================================== deliveries

/-- A replica of a snapshot to which batches have been delivered in
whatever way, each event behind the snapshot with the change that belongs
to its number, and one more batch. Before and after that batch the replica
is the snapshot after the changes up to the number it applied last, which
does not go back. If the batch is taken, the count is by how much that
number grew, and no event of the batch is beyond it. Otherwise the client
is told to start anew behind that number, which happens just if the batch
has an event beyond the next number, with everything before it applied.
Words of 64 bits make no difference to any verdict. -/
theorem deliveries_tolerated (snapshot : Snapshot) (line : Nat → Change)
    (before : List (List Event)) (batch : List Event)
    (h : ∀ b ∈ before ++ [batch], ∀ e ∈ b,
      snapshot.eventNumber < e.seq → e.change = line e.seq) :
    let r := (ofSnapshot snapshot).applyBatches before
    let outcome := r.applyEvents batch
    (∃ m m', snapshot.eventNumber ≤ m ∧ m ≤ m'
      ∧ r.lastEvent = some m
      ∧ outcome.2.lastEvent = some m'
      ∧ r = upTo snapshot line m
      ∧ outcome.2 = upTo snapshot line m'
      ∧ match outcome.1 with
        | .ok c => m' = m + c ∧ ∀ e ∈ batch, e.seq ≤ m'
        | .error e => e = .resyncRequired m')
    ∧ (∀ stop, outcome.1 = .error (.resyncRequired stop)
      ↔ ∃ front e rest c, batch = front ++ e :: rest
        ∧ r.applyEvents front = (.ok c, upTo snapshot line stop)
        ∧ (∀ x ∈ front, x.seq ≤ stop)
        ∧ stop + 1 < e.seq)
    ∧ ∀ last seq : UInt64,
      verdictWord last seq = verdict (some last.toNat) seq.toNat
        ∧ (last < seq → (last + 1).toNat = last.toNat + 1) := by
  intro r outcome
  obtain ⟨hbefore, hlast⟩ := List.forall_mem_append.1 h
  have hbatch := hlast batch (List.mem_singleton_self batch)
  have hstart : snapshot.eventNumber ≤ snapshot.eventNumber :=
    Nat.le_refl _
  obtain ⟨m, hm, hr⟩ := applyBatches_upTo hbefore hstart
  rw [upTo_snapshot] at hr
  have hr' : r = upTo snapshot line m := hr
  refine ⟨?_, fun stop => ?_, fun last seq =>
    ⟨verdictWord_eq last seq, toNat_succ_of_lt⟩⟩
  · obtain ⟨m', hle, hcourse⟩ := course_applyFrom hbatch hm 0
    refine ⟨m, m', hm, hle, hr' ▸ rfl, ?_⟩
    have houtcome : outcome = (upTo snapshot line m).applyFrom 0 batch :=
      congrArg (·.applyEvents batch) hr'
    cases hcourse with
    | whole result reached =>
      rw [houtcome, result]
      refine ⟨rfl, hr', rfl, ?_, reached⟩
      omega
    | cut _ _ _ _ result =>
      rw [houtcome, result]
      exact ⟨rfl, hr', rfl, rfl⟩
  · have hrefused := refused_iff hbatch hm stop
    rw [← hr'] at hrefused
    exact hrefused

/-- A snapshot three numbers before the largest word. A batch with a gap
comes first, then one that repeats an event and has a gap, and then one
with the last two events that there can be, among others that are known
by then. Two of its events are new, and nothing is missing after it. -/
theorem deliveries_tolerated_shuffled :
    let k := 18446744073709551612
    let line (n : Nat) : Change := .resource
      ⟨⟨"rack", "io", "SysfsGPIO", "led"⟩, .sysfsGpio 7, n % 2 = 0, n⟩
    let snapshot : Snapshot := ⟨k, [], [], []⟩
    let event (n : Nat) : Event := ⟨n, line n⟩
    let before := [[event (k + 2)],
      [event (k + 1), event (k + 1), event (k + 3)]]
    let batch := [⟨1, .placeDeleted "board"⟩, event (k + 2),
      event (k + 1), event (k + 3), event (k + 2)]
    let outcome :=
      ((ofSnapshot snapshot).applyBatches before).applyEvents batch
    (∀ b ∈ before ++ [batch], ∀ e ∈ b,
        snapshot.eventNumber < e.seq → e.change = line e.seq)
      ∧ outcome.1 = .ok 2
      ∧ outcome.2 = upTo snapshot line 18446744073709551615 := by
  intro k line snapshot event before batch outcome
  have hline : ∀ b ∈ before ++ [batch], ∀ e ∈ b,
      snapshot.eventNumber < e.seq → e.change = line e.seq := by
    decide +kernel
  obtain ⟨⟨m, m', -, -, -, hlast, -, hcopy, -⟩, -, -⟩ :=
    deliveries_tolerated snapshot line before batch hline
  have hend : outcome.2.lastEvent = some 18446744073709551615 := by
    decide +kernel
  have hm' : m' = 18446744073709551615 :=
    Option.some.inj (hlast.symm.trans hend)
  exact ⟨hline, by decide +kernel, hm' ▸ hcopy⟩

end LabLease.Replica
