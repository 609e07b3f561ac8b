import Mathlib.Data.List.Sort

/-!
# `ORDER BY`

Sorting leaves ties in no particular order, and two engines – or two runs of one –
may break them differently. So an `ORDER BY` is here *any* function that permutes its
input into sorted order (`OrderBy`), and what is proved of a sorted answer holds
whichever way the ties fall. `OrderBy.ofTotal` is one such function, for computing.

Queries that keep only the first row of the answer choose a least row. Conversely each
least row is the one chosen by some order (`OrderBy.preferring`), so that a statement
about all the rows that may be chosen is a statement about all the least rows
(`OrderBy.forall_head?_iff`).
-/

variable {α : Type}

/-- A way of sorting by the relation `le`, ties in any order. -/
structure OrderBy (le : α → α → Prop) where
  sort : List α → List α
  perm : ∀ rows, (sort rows).Perm rows
  sorted : ∀ rows, (sort rows).Pairwise le

namespace OrderBy

variable {le : α → α → Prop} (order : OrderBy le) {rows : List α}

theorem mem_sort {r : α} : r ∈ order.sort rows ↔ r ∈ rows := (order.perm rows).mem_iff

theorem sort_eq_nil : order.sort rows = [] ↔ rows = [] := by
  constructor
  · intro h
    exact (h ▸ order.perm rows).symm.eq_nil
  · rintro rfl
    exact (order.perm []).eq_nil

/-- The first of the sorted rows is a least one. -/
theorem le_of_head?_sort (hrefl : ∀ a, le a a) {r : α} (h : (order.sort rows).head? = some r) :
    ∀ x ∈ rows, le r x := by
  intro x hx
  obtain ⟨rest, hsort⟩ := List.head?_eq_some_iff.mp h
  have hmem : x ∈ r :: rest := hsort ▸ order.mem_sort.mpr hx
  rcases List.mem_cons.mp hmem with rfl | hrest
  · exact hrefl _
  · exact List.rel_of_pairwise_cons (hsort ▸ order.sorted rows) hrest

/-! ### The first rows of an answer -/

theorem perm_take_drop (k : ℕ) :
    ((order.sort rows).take k ++ (order.sort rows).drop k).Perm rows := by
  rw [List.take_append_drop]
  exact order.perm rows

/-- A `LIMIT` keeps the rows sorted, -/
theorem pairwise_take (k : ℕ) : ((order.sort rows).take k).Pairwise le :=
  (order.sorted rows).sublist (List.take_sublist k _)

/-- and none that it leaves out sorts before one that it keeps. -/
theorem le_of_mem_take_of_mem_drop {k : ℕ} {a b : α} (ha : a ∈ (order.sort rows).take k)
    (hb : b ∈ (order.sort rows).drop k) : le a b := by
  have hsorted := order.sorted rows
  rw [← List.take_append_drop k (order.sort rows)] at hsorted
  exact (List.pairwise_append.mp hsorted).2.2 a ha b hb

/-- Where rows of a kind sort before all others, and there are enough of them, a `LIMIT` keeps
no others. -/
theorem forall_mem_take {P : α → Prop} [DecidablePred P]
    (hbefore : ∀ a b, P a → ¬P b → ¬le b a) {k : ℕ} (hk : k ≤ rows.countP fun r => P r) :
    ∀ r ∈ (order.sort rows).take k, P r := by
  intro r hr
  by_contra hnot
  -- a row of the kind would sort after `r` if it were left out
  have hnone : ((order.sort rows).drop k).countP (fun x => P x) = 0 := by
    refine List.countP_eq_zero.mpr fun x hx hP => ?_
    exact hbefore x r (of_decide_eq_true hP) hnot (order.le_of_mem_take_of_mem_drop hr hx)
  have hperm : ((order.sort rows).take k ++ (order.sort rows).drop k).Perm rows :=
    order.perm_take_drop k
  have hcount := hperm.countP_eq fun x => P x
  rw [List.countP_append, hnone, Nat.add_zero] at hcount
  have hlength : ((order.sort rows).take k).length ≤ k := List.length_take_le _ _
  have hall : ((order.sort rows).take k).countP (fun x => P x)
      = ((order.sort rows).take k).length := by
    refine Nat.le_antisymm List.countP_le_length ?_
    omega
  exact hnot (of_decide_eq_true (List.countP_eq_length.mp hall r hr))

/-! ### Some ways to sort -/

/-- Sorting by a decidable total preorder. -/
def ofTotal (le : α → α → Prop) [DecidableRel le] (htrans : ∀ a b c, le a b → le b c → le a c)
    (htotal : ∀ a b, le a b ∨ le b a) : OrderBy le where
  sort rows := rows.insertionSort le
  perm rows := List.perm_insertionSort le rows
  sorted rows :=
    haveI : Std.Total le := ⟨htotal⟩
    haveI : IsTrans α le := ⟨htrans⟩
    List.pairwise_insertionSort le rows

/-! ### Which rows may come first -/

section Preferring

variable [DecidableEq α] [DecidableRel le]

/-- Sorting by a decidable total preorder, the ties broken in favour of `x`. -/
def preferring (x : α) (htrans : ∀ a b c, le a b → le b c → le a c)
    (htotal : ∀ a b, le a b ∨ le b a) : OrderBy le where
  sort rows := (if x ∈ rows then x :: rows.erase x else rows).insertionSort le
  perm rows := by
    refine (List.perm_insertionSort le _).trans ?_
    split
    · next hx => exact (List.perm_cons_erase hx).symm
    · exact List.Perm.refl rows
  sorted rows :=
    haveI : Std.Total le := ⟨htotal⟩
    haveI : IsTrans α le := ⟨htrans⟩
    List.pairwise_insertionSort le _

variable {htrans : ∀ a b c, le a b → le b c → le a c} {htotal : ∀ a b, le a b ∨ le b a} {x : α}

/-- A least row comes first where the ties are broken in its favour. -/
theorem head?_sort_preferring (hx : x ∈ rows) (hle : ∀ y ∈ rows, le x y) :
    ((preferring x htrans htotal).sort rows).head? = some x := by
  have hsort : (preferring x htrans htotal).sort rows
      = ((rows.erase x).insertionSort le).orderedInsert le x := by
    simp only [preferring, if_pos hx, List.insertionSort_cons]
  rw [hsort]
  rcases hrest : (rows.erase x).insertionSort le with _ | ⟨y, rest⟩
  · rfl
  · have hy : y ∈ (rows.erase x).insertionSort le := hrest ▸ List.mem_cons_self
    have hmem : y ∈ rows := List.mem_of_mem_erase ((List.mem_insertionSort le).mp hy)
    rw [List.orderedInsert_cons, if_pos (hle y hmem), List.head?_cons]

/-- **Whichever way the ties fall**: what holds of the first row of every sorted answer
is what holds of every least row. -/
theorem forall_head?_iff (htrans : ∀ a b c, le a b → le b c → le a c)
    (htotal : ∀ a b, le a b ∨ le b a) {P : α → Prop} :
    (∀ order : OrderBy le, ∀ r, (order.sort rows).head? = some r → P r)
      ↔ ∀ r ∈ rows, (∀ x ∈ rows, le r x) → P r := by
  constructor
  · intro h r hr hle
    exact h (preferring r htrans htotal) r (head?_sort_preferring hr hle)
  · intro h order r hr
    have hmem : r ∈ rows := order.mem_sort.mp (List.mem_of_head? hr)
    exact h r hmem (order.le_of_head?_sort (fun a => or_self_iff.mp (htotal a a)) hr)

end Preferring

end OrderBy
