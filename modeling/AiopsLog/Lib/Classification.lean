import Mathlib.Tactic.FieldSimp
import Mathlib.Tactic.Linarith
import Mathlib.Tactic.Positivity
import Mathlib.Tactic.Ring

/-!
# The metrics of a binary classification

A classifier is judged by four counts (`Confusion`): how many positives and negatives it
found, and how many it took for the other. Precision and recall are guarded against an
empty denominator by the value 0, and so is their harmonic mean, F1.

The guards make the metrics total; what has to be said is that they are never felt where
it matters. F1 is the closed form `2 tp / (2 tp + fp + fn)` as soon as there is a true
positive and 0 exactly where there is none, and it lies between precision and recall.
-/

/-- The four counts of a binary classification. -/
structure Confusion where
  tp : ℕ
  fp : ℕ
  tn : ℕ
  fn : ℕ
  deriving DecidableEq

namespace Confusion

variable (c : Confusion)

/-- How many cases were classified. -/
def total : ℕ := c.tp + c.fp + c.tn + c.fn

/-- The share of the cases classified correctly. -/
def accuracy : ℚ := (c.tp + c.tn : ℕ) / c.total

/-- Of the predicted positives, the share that are positive. -/
def precision : ℚ := if c.tp + c.fp > 0 then c.tp / (c.tp + c.fp : ℕ) else 0

/-- Of the positives, the share that were predicted. -/
def recallScore : ℚ := if c.tp + c.fn > 0 then c.tp / (c.tp + c.fn : ℕ) else 0

/-- The harmonic mean of precision and recall. -/
def f1 : ℚ :=
  if c.precision + c.recallScore > 0 then
    2 * c.precision * c.recallScore / (c.precision + c.recallScore)
  else 0

/-! ### Shares -/

/-- A share lies between 0 and 1. -/
theorem share_mem {part whole : ℕ} (h : part ≤ whole) :
    0 ≤ (part / whole : ℚ) ∧ (part / whole : ℚ) ≤ 1 := by
  refine ⟨by positivity, div_le_one_of_le₀ ?_ (Nat.cast_nonneg whole)⟩
  exact_mod_cast h

/-- The share of a sum one of its summands has, guarded, is the quotient: dividing by
zero gives zero as well. -/
theorem guarded_share (part rest : ℕ) :
    (if part + rest > 0 then (part / (part + rest : ℕ) : ℚ) else 0) = part / (part + rest : ℕ) := by
  split
  · rfl
  · next h =>
    obtain rfl : part = 0 := by omega
    simp

theorem precision_eq : c.precision = c.tp / (c.tp + c.fp : ℕ) := guarded_share c.tp c.fp

theorem recallScore_eq : c.recallScore = c.tp / (c.tp + c.fn : ℕ) := guarded_share c.tp c.fn

theorem accuracy_mem : 0 ≤ c.accuracy ∧ c.accuracy ≤ 1 := by
  refine share_mem ?_
  rw [total]
  omega

theorem precision_mem : 0 ≤ c.precision ∧ c.precision ≤ 1 := by
  rw [precision_eq]
  exact share_mem (Nat.le_add_right c.tp c.fp)

theorem recallScore_mem : 0 ≤ c.recallScore ∧ c.recallScore ≤ 1 := by
  rw [recallScore_eq]
  exact share_mem (Nat.le_add_right c.tp c.fn)

/-- **The accuracy is 1 exactly where nothing is misclassified.** -/
theorem accuracy_eq_one_iff (h : 0 < c.total) : c.accuracy = 1 ↔ c.fp = 0 ∧ c.fn = 0 := by
  have hne : (c.total : ℚ) ≠ 0 := by exact_mod_cast h.ne'
  rw [accuracy, div_eq_one_iff_eq hne, Nat.cast_inj, total]
  omega

/-! ### F1 -/

section Positive

variable {c} (h : 0 < c.tp)
include h

theorem precision_pos : 0 < c.precision := by
  rw [precision_eq]
  have htp : (0 : ℚ) < c.tp := by exact_mod_cast h
  positivity

theorem recallScore_pos : 0 < c.recallScore := by
  rw [recallScore_eq]
  have htp : (0 : ℚ) < c.tp := by exact_mod_cast h
  positivity

/-- With a true positive the guard of F1 is passed. -/
theorem f1_of_pos : c.f1 = 2 * c.precision * c.recallScore / (c.precision + c.recallScore) :=
  if_pos (add_pos (precision_pos h) (recallScore_pos h))

/-- **The closed form of F1.** -/
theorem f1_eq : c.f1 = (2 * c.tp : ℕ) / (2 * c.tp + c.fp + c.fn : ℕ) := by
  have htp : (0 : ℚ) < c.tp := by exact_mod_cast h
  have hprecision : (0 : ℚ) < c.tp + c.fp := by positivity
  have hrecall : (0 : ℚ) < c.tp + c.fn := by positivity
  have hsum : (0 : ℚ) < 2 * c.tp + c.fp + c.fn := by positivity
  rw [f1_of_pos h, precision_eq, recallScore_eq]
  push_cast
  have hdenominator : (c.tp / (c.tp + c.fp) + c.tp / (c.tp + c.fn) : ℚ)
      = c.tp * (2 * c.tp + c.fp + c.fn) / ((c.tp + c.fp) * (c.tp + c.fn)) := by
    field_simp
    ring
  rw [hdenominator]
  field_simp

end Positive

theorem f1_of_tp_eq_zero (h : c.tp = 0) : c.f1 = 0 := by
  have hprecision : c.precision = 0 := by rw [precision_eq, h, Nat.cast_zero, zero_div]
  have hrecall : c.recallScore = 0 := by rw [recallScore_eq, h, Nat.cast_zero, zero_div]
  rw [f1, hprecision, hrecall]
  exact if_neg (by simp)

/-- **F1 is 0 exactly where there is no true positive.** -/
theorem f1_eq_zero_iff : c.f1 = 0 ↔ c.tp = 0 := by
  refine ⟨fun hzero => ?_, c.f1_of_tp_eq_zero⟩
  by_contra htp
  have hpos : 0 < c.tp := by omega
  have hprecision := precision_pos hpos
  have hrecall := recallScore_pos hpos
  have hf1 : 0 < c.f1 := by
    rw [f1_of_pos hpos]
    positivity
  exact hf1.ne' hzero

/-- A harmonic mean lies between its arguments. -/
theorem harmonic_mem {p r : ℚ} (hp : 0 < p) (hr : 0 < r) (hle : p ≤ r) :
    p ≤ 2 * p * r / (p + r) ∧ 2 * p * r / (p + r) ≤ r := by
  have hsum : 0 < p + r := add_pos hp hr
  rw [le_div_iff₀ hsum, div_le_iff₀ hsum]
  constructor
  · have hmul : p * p ≤ p * r := mul_le_mul_of_nonneg_left hle hp.le
    linarith
  · have hmul : p * r ≤ r * r := mul_le_mul_of_nonneg_right hle hr.le
    linarith

/-- **F1 lies between precision and recall.** -/
theorem f1_mem_between :
    min c.precision c.recallScore ≤ c.f1 ∧ c.f1 ≤ max c.precision c.recallScore := by
  rcases Nat.eq_zero_or_pos c.tp with htp | htp
  · rw [c.f1_of_tp_eq_zero htp]
    exact ⟨by simp [precision_eq, htp], le_max_of_le_left c.precision_mem.1⟩
  · have hp := precision_pos htp
    have hr := recallScore_pos htp
    rw [f1_of_pos htp]
    rcases le_total c.precision c.recallScore with hle | hle
    · rw [min_eq_left hle, max_eq_right hle]
      exact harmonic_mem hp hr hle
    · rw [min_eq_right hle, max_eq_left hle, mul_right_comm, add_comm]
      exact harmonic_mem hr hp hle

theorem f1_mem : 0 ≤ c.f1 ∧ c.f1 ≤ 1 := by
  obtain ⟨hmin, hmax⟩ := c.f1_mem_between
  constructor
  · exact le_trans (le_min c.precision_mem.1 c.recallScore_mem.1) hmin
  · exact le_trans hmax (max_le c.precision_mem.2 c.recallScore_mem.2)

end Confusion
