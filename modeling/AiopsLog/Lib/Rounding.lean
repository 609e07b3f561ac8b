import Mathlib.Algebra.Order.Floor.Ring
import Mathlib.Data.Rat.Floor
import Mathlib.Tactic.Linarith
import Mathlib.Tactic.Positivity

/-!
# Rounding to decimals

Two programs that round to two decimals need not round alike: Python's `round` sends
a tie to the even neighbour, SQL's `ROUND` on a `numeric` sends it away from zero.
Both round a rational to the nearest integer after scaling, so what is proved about
them is proved once, of any rounding `r` that keeps the integer bounds of its argument
(`Rounding.Rounds`): a rounded value stays between the integers its argument lies
between.
-/

namespace Rounding

/-- Nearest integer, ties to the even one: Python's `round`. -/
def halfEven (x : ℚ) : ℤ :=
  if x - ⌊x⌋ < 1 / 2 then ⌊x⌋
  else if 1 / 2 < x - ⌊x⌋ then ⌊x⌋ + 1
  else if ⌊x⌋ % 2 = 0 then ⌊x⌋ else ⌊x⌋ + 1

/-- Nearest integer, ties away from zero: SQL's `ROUND` on `numeric`. -/
def halfAway (x : ℚ) : ℤ := if 0 ≤ x then ⌊x + 1 / 2⌋ else -⌊-x + 1 / 2⌋

/-- Round to `digits` decimals by the rule `r`. -/
def toDigits (r : ℚ → ℤ) (digits : ℕ) (q : ℚ) : ℚ := r (q * 10 ^ digits) / 10 ^ digits

/-- A rounding rule that keeps integer bounds. -/
structure Rounds (r : ℚ → ℤ) : Prop where
  le_of_le : ∀ (n : ℤ) (x : ℚ), (n : ℚ) ≤ x → n ≤ r x
  ge_of_ge : ∀ (n : ℤ) (x : ℚ), x ≤ n → r x ≤ n

theorem rounds_halfEven : Rounds halfEven where
  le_of_le n x h := by
    have hfloor : n ≤ ⌊x⌋ := Int.le_floor.mpr h
    unfold halfEven
    split_ifs <;> omega
  ge_of_ge n x h := by
    have hfloor : ⌊x⌋ ≤ n := Int.floor_le_iff.mpr (lt_of_le_of_lt h (by simp))
    have hup : 1 / 2 ≤ x - ⌊x⌋ → ⌊x⌋ + 1 ≤ n := by
      intro hx
      by_contra hlt
      have heq : ⌊x⌋ = n := by omega
      rw [heq] at hx
      linarith
    unfold halfEven
    split_ifs with h1 h2 h3
    · exact hfloor
    · exact hup h2.le
    · exact hfloor
    · exact hup (not_lt.mp h1)

theorem rounds_halfAway : Rounds halfAway where
  le_of_le n x h := by
    unfold halfAway
    split_ifs with h0
    · exact Int.le_floor.mpr (by linarith)
    · have hlt : ⌊-x + 1 / 2⌋ < -n + 1 :=
        Int.floor_lt.mpr (by push_cast; linarith)
      omega
  ge_of_ge n x h := by
    unfold halfAway
    split_ifs with h0
    · have hlt : ⌊x + 1 / 2⌋ < n + 1 := Int.floor_lt.mpr (by push_cast; linarith)
      omega
    · have hle : -n ≤ ⌊-x + 1 / 2⌋ := Int.le_floor.mpr (by push_cast; linarith)
      omega

variable {r : ℚ → ℤ} {digits : ℕ} {q : ℚ}

/-- A value at least the integer `n` rounds to at least `n`. -/
theorem le_toDigits (hr : Rounds r) {n : ℤ} (h : (n : ℚ) ≤ q) : (n : ℚ) ≤ toDigits r digits q := by
  have hscale : ((n * 10 ^ digits : ℤ) : ℚ) ≤ q * 10 ^ digits := by
    push_cast
    exact mul_le_mul_of_nonneg_right h (by positivity)
  rw [toDigits, le_div_iff₀ (by positivity)]
  exact_mod_cast hr.le_of_le _ _ hscale

/-- A value at most the integer `n` rounds to at most `n`. -/
theorem toDigits_le (hr : Rounds r) {n : ℤ} (h : q ≤ n) : toDigits r digits q ≤ n := by
  have hscale : q * 10 ^ digits ≤ ((n * 10 ^ digits : ℤ) : ℚ) := by
    push_cast
    exact mul_le_mul_of_nonneg_right h (by positivity)
  rw [toDigits, div_le_iff₀ (by positivity)]
  exact_mod_cast hr.ge_of_ge _ _ hscale

/-- **A percentage is still one when it is rounded.** -/
theorem percentage_mem (hr : Rounds r) {part whole : ℕ} (hpos : 0 < whole) (h : part ≤ whole) :
    0 ≤ toDigits r digits (100 * part / whole) ∧
      toDigits r digits (100 * part / whole) ≤ 100 := by
  have hwhole : (0 : ℚ) < whole := by exact_mod_cast hpos
  have hpart : (part : ℚ) ≤ whole := by exact_mod_cast h
  constructor
  · have hzero : ((0 : ℤ) : ℚ) ≤ 100 * part / whole := by
      rw [Int.cast_zero]
      positivity
    exact_mod_cast le_toDigits hr hzero
  · have hhundred : (100 * part / whole : ℚ) ≤ ((100 : ℤ) : ℚ) := by
      rw [div_le_iff₀ hwhole]
      push_cast
      linarith
    exact_mod_cast toDigits_le hr hhundred

end Rounding
