import Mathlib.Order.Defs.LinearOrder
import Mathlib.Order.Lattice
import Mathlib.Order.MinMax
import Mathlib.Data.List.Perm.Basic

/-!
# The greatest of nullable values

SQL's `GREATEST` and Spark's `max` both ignore nulls, and both are null only where
there is nothing but nulls. On two values that is the `max` of `Option`, which reads
`none` as a least element; on a column it is `Nullable.maximum`, the `max` of its
values one after the other.
-/

namespace Nullable

variable {α : Type} [LinearOrder α]

theorem greatest_assoc (a b c : Option α) : max (max a b) c = max a (max b c) := by
  cases a <;> cases b <;> cases c <;> simp [max_assoc]

theorem greatest_comm (a b : Option α) : max a b = max b a := by
  cases a <;> cases b <;> simp [max_comm]

/-- `max` of a column, ignoring nulls. -/
def maximum (values : List (Option α)) : Option α := (values.filterMap fun v => v).max?

variable {l l' : List (Option α)}

@[simp] theorem maximum_cons (a : Option α) : maximum (a :: l) = max a (maximum l) := by
  rcases a with _ | a
  · simp [maximum]
  · simp only [maximum, List.filterMap_cons, List.max?_cons]
    cases (l.filterMap fun v => v).max? <;> rfl

/-- **The maximum is the greatest non-null value**: one of the values, and at least
each of the others. -/
theorem maximum_eq_some_iff {m : α} :
    maximum l = some m ↔ some m ∈ l ∧ ∀ a, some a ∈ l → a ≤ m := by
  rw [maximum, List.max?_eq_some_iff]
  simp

/-- The maximum is null exactly where every value is. -/
theorem maximum_eq_none_iff : maximum l = none ↔ ∀ a ∈ l, a = none := by
  rw [maximum, List.max?_eq_none_iff, List.filterMap_eq_nil_iff]

end Nullable
