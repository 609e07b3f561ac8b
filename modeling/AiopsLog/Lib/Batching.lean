import Mathlib.Algebra.BigOperators.Group.List.Basic
import Mathlib.Tactic.Ring

/-!
# Batches of a list, and the repetition of one

A buffer that is emptied whenever it reaches a size cuts what passes through it into batches
of that size and a shorter rest (`Batching.Cut`); one more element either fills a batch or
makes the rest longer. However the cut came about, it is determined by the lengths, and any
number of the first batches is a beginning of the list (`Batching.Cut.flatten_take`).

`Batching.endless xs k` is the beginning of length `k` of the endless repetition of `xs`. A
process that goes round a list forever passes through nothing but such beginnings.
-/

namespace Batching

variable {α : Type} {size : ℕ} {xs rest : List α} {full : List (List α)}

/-! ### Cuts -/

/-- The list cut into batches of one size and a shorter rest. -/
structure Cut (size : ℕ) (xs : List α) (full : List (List α)) (rest : List α) : Prop where
  length_eq : ∀ b ∈ full, b.length = size
  flatten_append : full.flatten ++ rest = xs
  rest_lt : rest.length < size

namespace Cut

theorem nil (h : 0 < size) : Cut size ([] : List α) [] [] :=
  ⟨fun _ hb => absurd hb List.not_mem_nil, rfl, h⟩

/-- An element that does not fill the batch. -/
theorem snoc_rest (h : Cut size xs full rest) {x : α} (hlt : (rest ++ [x]).length < size) :
    Cut size (xs ++ [x]) full (rest ++ [x]) :=
  ⟨h.length_eq, by rw [← List.append_assoc, h.flatten_append], hlt⟩

/-- An element that fills it. -/
theorem snoc_full (h : Cut size xs full rest) {x : α} (hge : size ≤ (rest ++ [x]).length) :
    Cut size (xs ++ [x]) (full ++ [rest ++ [x]]) [] := by
  have hlen : (rest ++ [x]).length = rest.length + 1 := List.length_append
  have hlt : rest.length < size := h.rest_lt
  refine ⟨fun b hb => ?_, ?_, Nat.lt_of_le_of_lt (Nat.zero_le _) hlt⟩
  · rcases List.mem_append.mp hb with hb | hb
    · exact h.length_eq b hb
    · rw [List.mem_singleton.mp hb]
      omega
  · rw [← h.flatten_append]
    simp

theorem length_flatten (h : Cut size xs full rest) :
    full.flatten.length = full.length * size := by
  rw [List.length_flatten, List.eq_replicate_of_mem (a := size) (l := full.map List.length)]
  · simp
  · intro n hn
    obtain ⟨b, hb, rfl⟩ := List.mem_map.mp hn
    exact h.length_eq b hb

theorem length_eq_add (h : Cut size xs full rest) :
    xs.length = full.length * size + rest.length := by
  rw [← h.flatten_append, List.length_append, h.length_flatten]

/-- The number of full batches is the quotient of the lengths. -/
theorem length_full (h : Cut size xs full rest) : full.length = xs.length / size := by
  have hlt : rest.length < size := h.rest_lt
  rw [h.length_eq_add, Nat.mul_comm, Nat.mul_add_div (by omega), Nat.div_eq_of_lt hlt]
  rfl

/-- The batches with the rest, unless it is empty. -/
def all (full : List (List α)) (rest : List α) : List (List α) :=
  if rest.isEmpty then full else full ++ [rest]

theorem flatten_all (h : Cut size xs full rest) : (all full rest).flatten = xs := by
  rw [all]
  split
  · next hrest => rw [← h.flatten_append, List.isEmpty_iff.mp hrest, List.append_nil]
  · rw [List.flatten_append, List.flatten_singleton, h.flatten_append]

/-- The first batches are a beginning of the list. -/
theorem flatten_take_full (h : Cut size xs full rest) {w : ℕ} (hw : w ≤ full.length) :
    (full.take w).flatten = xs.take (w * size) := by
  have htake : ((full.take w).flatten).length = w * size := by
    have hcut : Cut size (full.take w).flatten (full.take w) [] :=
      ⟨fun b hb => h.length_eq b (List.mem_of_mem_take hb), List.append_nil _,
        Nat.lt_of_le_of_lt (Nat.zero_le _) h.rest_lt⟩
    rw [hcut.length_flatten, List.length_take, min_eq_left hw]
  have hsplit : (full.take w).flatten ++ ((full.drop w).flatten ++ rest) = xs := by
    rw [← List.append_assoc, ← List.flatten_append, List.take_append_drop, h.flatten_append]
  rw [← hsplit, ← htake, List.take_left]

/-- **Any number of the first batches is a beginning of the list**, of the length the size
tells as far as the list goes. -/
theorem flatten_take (h : Cut size xs full rest) (w : ℕ) :
    ((all full rest).take w).flatten = xs.take (w * size) := by
  rcases Nat.lt_or_ge full.length w with hw | hw
  · -- past the full batches everything is taken, and the list is at its end too
    have hall : (all full rest).length ≤ w := by
      rw [all]
      split
      · omega
      · rw [List.length_append, List.length_singleton]
        omega
    have hlen : xs.length ≤ w * size := by
      have hsucc : (full.length + 1) * size ≤ w * size := Nat.mul_le_mul_right size hw
      have hlt : rest.length < size := h.rest_lt
      rw [h.length_eq_add]
      rw [Nat.succ_mul] at hsucc
      omega
    rw [List.take_of_length_le hall, List.take_of_length_le hlen, h.flatten_all]
  · rw [← h.flatten_take_full hw, all]
    split
    · rfl
    · rw [List.take_append_of_le_length hw]

end Cut

/-! ### Endless repetition -/

/-- The first `k` elements of the endless repetition. -/
def endless (xs : List α) (k : ℕ) : List α := (List.replicate k xs).flatten.take k

theorem length_flatten_replicate (n : ℕ) (xs : List α) :
    (List.replicate n xs).flatten.length = n * xs.length := by
  simp

/-- Some rounds and a beginning of the next. -/
theorem endless_eq {j : ℕ} (n : ℕ) (hj : j ≤ xs.length) :
    endless xs (n * xs.length + j) = (List.replicate n xs).flatten ++ xs.take j := by
  rcases eq_or_ne xs [] with rfl | hne
  · simp [endless]
  · have hpos : 0 < xs.length := List.length_pos_iff.mpr hne
    have hle : n ≤ n * xs.length := Nat.le_mul_of_pos_right n hpos
    obtain ⟨m, hm⟩ : ∃ m, n * xs.length + j = n + m := ⟨n * xs.length + j - n, by omega⟩
    rw [endless, hm, List.replicate_add, List.flatten_append, ← hm,
      ← length_flatten_replicate, List.take_length_add_append]
    rcases Nat.eq_zero_or_pos j with rfl | hjpos
    · rfl
    · -- at least one more round is there to begin
      obtain ⟨m', rfl⟩ : ∃ m', m = m' + 1 := ⟨m - 1, by omega⟩
      rw [List.replicate_succ, List.flatten_cons, List.take_append_of_le_length hj]

theorem mem_of_mem_endless {x : α} {k : ℕ} (h : x ∈ endless xs k) : x ∈ xs := by
  obtain ⟨ys, hys, hx⟩ := List.mem_flatten.mp (List.mem_of_mem_take h)
  rwa [List.eq_of_mem_replicate hys] at hx

/-- A list that is not empty goes on forever. -/
theorem length_endless (h : xs ≠ []) (k : ℕ) : (endless xs k).length = k := by
  have hpos : 0 < xs.length := List.length_pos_iff.mpr h
  rw [endless, List.length_take, length_flatten_replicate]
  exact min_eq_left (Nat.le_mul_of_pos_right k hpos)

/-- Whatever number of rounds is long enough begins as the repetition does. -/
theorem take_flatten_replicate {n k : ℕ} (h : k ≤ n * xs.length) :
    (List.replicate n xs).flatten.take k = endless xs k := by
  rcases eq_or_ne xs [] with rfl | hne
  · simp [endless]
  · have hpos : 0 < xs.length := List.length_pos_iff.mpr hne
    have hk : k ≤ k * xs.length := Nat.le_mul_of_pos_right k hpos
    rw [endless]
    rcases Nat.le_total n k with hle | hle
    · obtain ⟨m, rfl⟩ := Nat.exists_eq_add_of_le hle
      rw [List.replicate_add n m, List.flatten_append,
        List.take_append_of_le_length (by rwa [length_flatten_replicate])]
    · obtain ⟨m, rfl⟩ := Nat.exists_eq_add_of_le hle
      rw [List.replicate_add k m, List.flatten_append,
        List.take_append_of_le_length (by rwa [length_flatten_replicate])]

end Batching
