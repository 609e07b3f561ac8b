import Mathlib.Data.List.Basic
import Mathlib.Data.List.Count
import Mathlib.Data.List.Perm.Basic
import Mathlib.Data.Nat.Basic
import Mathlib.Order.Basic

/-!
# A buffer that sends until it is acknowledged

What is put into the buffer is collected on a stage. From there it is queued in chunks, and a
queued chunk is sent, whichever it is, until the sending goes through. A sending that fails may
have got out any part of the chunk, which stays in the queue.

So everything that was put in has been sent or is still there, and nothing is there or has been
sent more often than it was put in, once and once more for each sending that failed
(`Outbox.Sound`).
-/

/-- The stage, the queue, what has been sent, and how many sendings have failed. -/
structure Outbox (α : Type) where
  stage : List α
  queue : List (List α)
  sent : List α
  failures : ℕ

namespace Outbox

variable {α : Type}

def empty : Outbox α := ⟨[], [], [], 0⟩

/-- What is still to be sent. -/
def pending (b : Outbox α) : List α := b.stage ++ b.queue.flatten

def put (entries : List α) (b : Outbox α) : Outbox α := { b with stage := b.stage ++ entries }

/-- The first entries of the stage become a chunk. -/
def enqueue (n : ℕ) (b : Outbox α) : Outbox α :=
  { b with stage := b.stage.drop n, queue := b.queue ++ [b.stage.take n] }

/-- A sending goes through. -/
def flush (i : ℕ) (b : Outbox α) : Option (Outbox α) :=
  b.queue[i]?.map fun chunk => { b with queue := b.queue.eraseIdx i, sent := b.sent ++ chunk }

/-- The part of a chunk that gets out. -/
def part (out : ℕ → Bool) (chunk : List α) : List α :=
  (chunk.zipIdx.filter fun entry => out entry.2).map Prod.fst

/-- A sending fails. -/
def fail (i : ℕ) (out : ℕ → Bool) (b : Outbox α) : Option (Outbox α) :=
  b.queue[i]?.map fun chunk =>
    { b with sent := b.sent ++ part out chunk, failures := b.failures + 1 }

theorem part_sublist (out : ℕ → Bool) (chunk : List α) : (part out chunk).Sublist chunk := by
  have h : (part out chunk).Sublist (chunk.zipIdx.map Prod.fst) := List.filter_sublist.map _
  rwa [List.zipIdx_map_fst] at h

/-- A chunk and the others. -/
theorem countP_flatten_eraseIdx (f : α → Bool) {queue : List (List α)} {i : ℕ} {chunk : List α}
    (h : queue[i]? = some chunk) :
    queue.flatten.countP f = chunk.countP f + (queue.eraseIdx i).flatten.countP f := by
  obtain ⟨hi, rfl⟩ := List.getElem?_eq_some_iff.mp h
  rw [← (List.getElem_cons_eraseIdx_perm hi).flatten.countP_eq, List.flatten_cons,
    List.countP_append]

/-- What was put in has been sent or is pending, and not too often. -/
structure Sound (b : Outbox α) (entries : List α) : Prop where
  pending_le : ∀ f : α → Bool, b.pending.countP f ≤ entries.countP f
  countP_le : ∀ f : α → Bool, entries.countP f ≤ b.sent.countP f + b.pending.countP f
  le_countP : ∀ f : α → Bool,
    b.sent.countP f + b.pending.countP f ≤ (b.failures + 1) * entries.countP f

theorem sound_empty : (empty : Outbox α).Sound [] where
  pending_le _ := Nat.le_refl _
  countP_le _ := Nat.le_refl _
  le_countP _ := Nat.zero_le _

namespace Sound

variable {b b' : Outbox α} {entries : List α} (h : b.Sound entries)

include h

theorem put (more : List α) : (b.put more).Sound (entries ++ more) := by
  have hpending : ∀ f : α → Bool,
      (b.put more).pending.countP f = b.pending.countP f + more.countP f := by
    intro f
    simp only [pending, Outbox.put, List.countP_append]
    omega
  refine ⟨fun f => ?_, fun f => ?_, fun f => ?_⟩
  · rw [hpending, List.countP_append]
    exact Nat.add_le_add_right (h.pending_le f) _
  · rw [hpending, List.countP_append, ← Nat.add_assoc]
    exact Nat.add_le_add_right (h.countP_le f) _
  · have hmore : more.countP f ≤ (b.failures + 1) * more.countP f :=
      Nat.le_mul_of_pos_left _ (Nat.succ_pos _)
    rw [hpending, List.countP_append, Nat.mul_add, ← Nat.add_assoc]
    exact Nat.add_le_add (h.le_countP f) hmore

theorem enqueue (n : ℕ) : (b.enqueue n).Sound entries := by
  have hpending : ∀ f : α → Bool, (b.enqueue n).pending.countP f = b.pending.countP f := by
    intro f
    have hstage : (b.stage.take n).countP f + (b.stage.drop n).countP f = b.stage.countP f := by
      rw [← List.countP_append, List.take_append_drop]
    simp only [pending, Outbox.enqueue, List.flatten_append, List.flatten_singleton,
      List.countP_append]
    omega
  refine ⟨fun f => ?_, fun f => ?_, fun f => ?_⟩
  · rw [hpending]
    exact h.pending_le f
  · rw [hpending]
    exact h.countP_le f
  · rw [hpending]
    exact h.le_countP f

/-- **A chunk is sent**: it is pending no more. -/
theorem flush {i : ℕ} (hflush : b.flush i = some b') : b'.Sound entries := by
  obtain ⟨chunk, hchunk, rfl⟩ := Option.map_eq_some_iff.mp hflush
  refine ⟨fun f => ?_, fun f => ?_, fun f => ?_⟩ <;>
    have hsplit := countP_flatten_eraseIdx f hchunk
  · have hle := h.pending_le f
    simp only [pending, List.countP_append] at hle ⊢
    omega
  · have hle := h.countP_le f
    simp only [pending, List.countP_append] at hle ⊢
    omega
  · have hle := h.le_countP f
    simp only [pending, List.countP_append] at hle ⊢
    omega

/-- **A sending fails**: a part of the chunk has been sent once more. -/
theorem fail {i : ℕ} {out : ℕ → Bool} (hfail : b.fail i out = some b') : b'.Sound entries := by
  obtain ⟨chunk, hchunk, rfl⟩ := Option.map_eq_some_iff.mp hfail
  refine ⟨h.pending_le, fun f => ?_, fun f => ?_⟩
  · have hle := h.countP_le f
    simp only [pending, List.countP_append] at hle ⊢
    omega
  · have hsplit := countP_flatten_eraseIdx f hchunk
    have hpart : (part out chunk).countP f ≤ chunk.countP f := (part_sublist out chunk).countP_le
    have hall : chunk.countP f ≤ entries.countP f := by
      have hle := h.pending_le f
      simp only [pending, List.countP_append] at hle
      omega
    have hle := h.le_countP f
    show (b.sent ++ part out chunk).countP f + b.pending.countP f
      ≤ (b.failures + 1 + 1) * entries.countP f
    rw [Nat.add_mul _ 1, Nat.one_mul, List.countP_append]
    omega

/-- What has been sent or is pending was put in. -/
theorem mem_entries {a : α} (ha : a ∈ b.sent ++ b.pending) : a ∈ entries := by
  classical
  have hle := h.le_countP fun x => decide (x = a)
  have hpos : 0 < (b.sent ++ b.pending).countP fun x => decide (x = a) :=
    List.countP_pos_iff.mpr ⟨a, ha, decide_eq_true rfl⟩
  rw [List.countP_append] at hpos
  obtain ⟨x, hx, heq⟩ := List.countP_pos_iff.mp
    (Nat.pos_of_mul_pos_left (Nat.lt_of_lt_of_le hpos hle))
  exact of_decide_eq_true heq ▸ hx

end Sound

end Outbox
