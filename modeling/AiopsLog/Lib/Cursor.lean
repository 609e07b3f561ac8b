import Mathlib.Data.List.Count
import Mathlib.Data.List.Infix
import Mathlib.Data.List.Range

/-!
# Reading a log from a committed offset

A reader goes through a log entry by entry, and from time to time commits the offset it has come
to. Where it is restarted it goes on from the offset last committed, which may be behind: it
reads some entries again, and passes none over.

So each entry before the reader's position has been read, and none more often than the reader
has been restarted and once more (`Cursor.Sound`); without a restart the offsets are read in
their order, each once.
-/

/-- The offset read next, the offset committed, how often the reader has been restarted, and the
offsets read so far. -/
structure Cursor where
  position : ℕ
  committed : ℕ
  restarts : ℕ
  read : List ℕ

namespace Cursor

/-- Before the first entry. -/
def start : Cursor := ⟨0, 0, 0, []⟩

/-- The next entry is read. -/
def advance (c : Cursor) : Cursor :=
  { c with position := c.position + 1, read := c.read ++ [c.position] }

/-- An offset is committed. -/
def commit (offset : ℕ) (c : Cursor) : Cursor := { c with committed := offset }

/-- The reader is restarted. -/
def restart (c : Cursor) : Cursor :=
  { c with position := c.committed, restarts := c.restarts + 1 }

/-- What has been read. -/
structure Sound (c : Cursor) : Prop where
  committed_le : c.committed ≤ c.position
  covers : ∀ o < c.position, o ∈ c.read
  count_le : ∀ o, c.read.count o ≤ c.restarts + if o < c.position then 1 else 0
  in_order : c.restarts = 0 → c.read = List.range c.position

theorem sound_start : start.Sound where
  committed_le := Nat.le_refl _
  covers o ho := absurd ho (Nat.not_lt_zero o)
  count_le _ := Nat.zero_le _
  in_order _ := rfl

namespace Sound

variable {c : Cursor} (h : c.Sound)

include h

/-- **An entry is read**: the one at the position, which has not been read since the last
restart. -/
theorem advance : c.advance.Sound where
  committed_le := Nat.le_succ_of_le h.committed_le
  covers o ho := by
    rcases Nat.lt_succ_iff_lt_or_eq.mp ho with hlt | rfl
    · exact List.mem_append_left _ (h.covers o hlt)
    · exact List.mem_append_right _ (List.mem_singleton_self _)
  count_le o := by
    have hcount := h.count_le o
    show (c.read ++ [c.position]).count o ≤ c.restarts + if o < c.position + 1 then 1 else 0
    simp only [List.count_append, List.count_singleton, beq_iff_eq]
    split_ifs at hcount ⊢ <;> omega
  in_order hnone := by
    show c.read ++ [c.position] = List.range (c.position + 1)
    rw [h.in_order hnone, List.range_succ]

/-- **An offset is committed** that the reader has come to. -/
theorem commit {offset : ℕ} (hoffset : offset ≤ c.position) : (c.commit offset).Sound where
  committed_le := hoffset
  covers := h.covers
  count_le := h.count_le
  in_order := h.in_order

/-- **The reader is restarted**: from now on each entry may be read once more. -/
theorem restart : c.restart.Sound where
  committed_le := Nat.le_refl _
  covers o ho := h.covers o (Nat.lt_of_lt_of_le ho h.committed_le)
  count_le o := by
    have hcount := h.count_le o
    show c.read.count o ≤ c.restarts + 1 + if o < c.committed then 1 else 0
    split_ifs at hcount ⊢ <;> omega
  in_order hnone := absurd hnone (Nat.succ_ne_zero _)

/-- No entry is read more often than the reader is started. -/
theorem count_le_starts (o : ℕ) : c.read.count o ≤ c.restarts + 1 := by
  have hcount := h.count_le o
  split_ifs at hcount <;> omega

/-- Without a restart, what is read in one stretch are consecutive entries. -/
theorem eq_range'_of_infix {part : List ℕ} (hpart : part <:+: c.read) (hnone : c.restarts = 0) :
    ∃ k, part = List.range' k part.length := by
  obtain ⟨before, after, hsplit⟩ := hpart
  rw [h.in_order hnone, List.range_eq_range'] at hsplit
  obtain ⟨k, -, hfirst, -⟩ := List.range'_eq_append_iff.mp hsplit.symm
  obtain ⟨l, -, -, hlast⟩ := List.range'_eq_append_iff.mp hfirst.symm
  rw [Nat.mul_one] at hlast
  exact ⟨0 + l, by rw [hlast, List.length_range']⟩

end Sound

end Cursor
