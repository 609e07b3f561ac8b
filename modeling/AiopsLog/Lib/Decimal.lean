import AiopsLog.Lib.Lines
import Mathlib.Data.String.Basic
import Mathlib.Data.Nat.Digits.Defs
import Mathlib.Tactic.Linarith

/-!
# Numbers written in a fixed number of digits

Texts sort by their first difference, numbers by size. For numbers written with
leading zeros in the same number of digits the two orders agree
(`Decimal.padded_lt_padded`), and they still agree for tuples of such numbers written
one after the other (`Decimal.append_lt_append`). That is what lets a query sort dates
by their text.

The digits of a fraction may even be written without the zeros at their end, as long as
what follows them sorts before any digit (`Decimal.fraction_append_lt`).
-/

namespace Decimal

/-! ### Lists by their first difference -/

section Lex

variable {α : Type} [LinearOrder α] {a b c d : List α}

/-- Behind prefixes of the same length, what follows matters only where the prefixes
are equal. -/
theorem append_lt_append (h : a.length = b.length) :
    a ++ c < b ++ d ↔ a < b ∨ a = b ∧ c < d := by
  induction a generalizing b with
  | nil =>
    obtain rfl : b = [] := List.length_eq_zero_iff.mp h.symm
    simp
  | cons x a ih =>
    cases b with
    | nil => exact absurd h (Nat.succ_ne_zero _)
    | cons y b =>
      have hrest := ih (Nat.succ_injective h)
      simp only [List.cons_append, List.cons_lt_cons_iff, hrest, List.cons.injEq]
      tauto

end Lex

/-! ### Digits -/

theorem digitChar_lt_digitChar {m n : ℕ} (hm : m < 10) (hn : n < 10) :
    m.digitChar < n.digitChar ↔ m < n := by
  have hall : ∀ m : Fin 10, ∀ n : Fin 10,
      (m : ℕ).digitChar < (n : ℕ).digitChar ↔ (m : ℕ) < n := by decide
  exact hall ⟨m, hm⟩ ⟨n, hn⟩

/-- A number in `w` digits, with leading zeros. -/
def padded : ℕ → ℕ → List Char
  | 0, _ => []
  | w + 1, n => (n / 10 ^ w).digitChar :: padded w (n % 10 ^ w)

@[simp] theorem length_padded (w n : ℕ) : (padded w n).length = w := by
  induction w generalizing n with
  | zero => rfl
  | succ w ih => rw [padded, List.length_cons, ih]

theorem isDigit_of_mem_padded {w n : ℕ} {c : Char} (hn : n < 10 ^ w) (h : c ∈ padded w n) :
    c.isDigit = true := by
  induction w generalizing n with
  | zero => exact absurd h List.not_mem_nil
  | succ w ih =>
    have hp : 0 < 10 ^ w := Nat.pow_pos (by omega)
    rcases List.mem_cons.mp h with rfl | h
    · rw [Nat.isDigit_digitChar, decide_eq_true_eq]
      rw [pow_succ] at hn
      exact Nat.div_lt_of_lt_mul hn
    · exact ih (Nat.mod_lt n hp) h

/-- Numbers compare by their leading digit first. -/
theorem lt_iff_div_mod (p m n : ℕ) (hp : 0 < p) :
    m < n ↔ m / p < n / p ∨ m / p = n / p ∧ m % p < n % p := by
  have hm := Nat.div_add_mod m p
  have hn := Nat.div_add_mod n p
  have hmp := Nat.mod_lt m hp
  have hnp := Nat.mod_lt n hp
  constructor
  · intro h
    rcases Nat.lt_trichotomy (m / p) (n / p) with hlt | heq | hgt
    · exact Or.inl hlt
    · rw [heq] at hm
      exact Or.inr ⟨heq, by omega⟩
    · exact absurd (Nat.div_le_div_right h.le) (not_le.mpr hgt)
  · rintro (hlt | ⟨heq, hlt⟩)
    · exact Nat.lt_of_div_lt_div hlt
    · rw [heq] at hm
      omega

/-- A number is determined by its quotient and remainder. -/
theorem eq_iff_div_mod (p m n : ℕ) : m = n ↔ m / p = n / p ∧ m % p = n % p := by
  constructor
  · rintro rfl
    exact ⟨rfl, rfl⟩
  · rintro ⟨hdiv, hmod⟩
    rw [← Nat.div_add_mod m p, hdiv, hmod, Nat.div_add_mod]

/-- **In the same number of digits, texts sort as numbers do.** -/
theorem padded_lt_padded {w m n : ℕ} (hm : m < 10 ^ w) (hn : n < 10 ^ w) :
    padded w m < padded w n ↔ m < n := by
  induction w generalizing m n with
  | zero =>
    have hm0 : m = 0 := by simpa using hm
    have hn0 : n = 0 := by simpa using hn
    simp [padded, hm0, hn0]
  | succ w ih =>
    have hpos : 0 < 10 ^ w := by positivity
    -- the leading digits are digits, so that their characters compare as they do
    have hlead : ∀ k, k < 10 ^ (w + 1) → k / 10 ^ w < 10 := fun k hk =>
      Nat.div_lt_of_lt_mul (by rwa [pow_succ] at hk)
    have heq : ∀ {i j : ℕ}, i < 10 → j < 10 → (i.digitChar = j.digitChar ↔ i = j) := by
      intro i j hi hj
      have hij := digitChar_lt_digitChar hi hj
      have hji := digitChar_lt_digitChar hj hi
      constructor
      · intro h
        rw [h] at hij hji
        have := hij.not.mp (lt_irrefl _)
        have := hji.not.mp (lt_irrefl _)
        omega
      · rintro rfl
        rfl
    rw [padded, padded, List.cons_lt_cons_iff, digitChar_lt_digitChar (hlead m hm) (hlead n hn),
      heq (hlead m hm) (hlead n hn), ih (Nat.mod_lt m hpos) (Nat.mod_lt n hpos)]
    exact (lt_iff_div_mod _ m n hpos).symm

/-- Texts of the same number of digits are equal only where the numbers are. -/
theorem padded_inj {w m n : ℕ} (hm : m < 10 ^ w) (hn : n < 10 ^ w) :
    padded w m = padded w n ↔ m = n := by
  constructor
  · intro h
    have hmn := padded_lt_padded hm hn
    have hnm := padded_lt_padded hn hm
    rw [h] at hmn hnm
    have hle := hmn.not.mp (lt_irrefl _)
    have hge := hnm.not.mp (lt_irrefl _)
    omega
  · rintro rfl
    rfl

/-! ### Fractions -/

section Chomp

variable {α : Type} [LinearOrder α] {zero mark : α} {a b c : List α}

/-- A mark that sorts before all digits sorts before any number that begins with one. -/
theorem cons_lt_append_of_ne_nil (hmark : mark < zero) (hne : a ≠ [])
    (ha : ∀ x ∈ a, zero ≤ x) : mark :: c < a ++ b := by
  obtain ⟨x, a, rfl⟩ := List.exists_cons_of_ne_nil hne
  exact List.cons_lt_cons_iff.mpr (Or.inl (hmark.trans_le (ha x List.mem_cons_self)))

/-- **Without the zeros at their end, numbers of the same length still sort by their digits**,
where a mark that sorts before the zero follows them. -/
theorem chomp_append_lt (hmark : mark < zero) (h : a.length = b.length)
    (ha : ∀ x ∈ a, zero ≤ x) (hb : ∀ x ∈ b, zero ≤ x) :
    Lines.chomp zero a ++ mark :: c < Lines.chomp zero b ++ mark :: c ↔ a < b := by
  induction a generalizing b with
  | nil =>
    obtain rfl : b = [] := List.length_eq_zero_iff.mp h.symm
    exact iff_of_false (lt_irrefl _) (lt_irrefl _)
  | cons x a ih =>
    obtain ⟨y, b, rfl⟩ := List.exists_cons_of_length_eq_add_one h.symm
    have ha' : ∀ x ∈ a, zero ≤ x := fun x hx => ha x (List.mem_cons_of_mem _ hx)
    have hb' : ∀ x ∈ b, zero ≤ x := fun x hx => hb x (List.mem_cons_of_mem _ hx)
    have hrest := ih (Nat.succ_injective h) ha' hb'
    have hmark' : ∀ {l : List α}, (∀ x ∈ l, zero ≤ x) → Lines.chomp zero l ≠ [] →
        mark :: c < Lines.chomp zero l ++ mark :: c := fun hl hne =>
      cons_lt_append_of_ne_nil hmark hne fun x hx => hl x (Lines.chomp_subset zero _ hx)
    have hmarkx : mark < x := hmark.trans_le (ha x List.mem_cons_self)
    have hmarky : mark < y := hmark.trans_le (hb y List.mem_cons_self)
    rw [Lines.chomp_cons_eq, Lines.chomp_cons_eq, List.cons_lt_cons_iff, ← hrest]
    by_cases hx : x = zero ∧ Lines.chomp zero a = []
    · by_cases hy : y = zero ∧ Lines.chomp zero b = []
      · -- both are nothing but zeros
        rw [if_pos hx, if_pos hy, hx.1, hx.2, hy.1, hy.2]
        simp
      · rw [if_pos hx, if_neg hy, hx.1, hx.2]
        refine iff_of_true (List.cons_lt_cons_iff.mpr (Or.inl hmarky)) ?_
        rcases (hb y List.mem_cons_self).lt_or_eq with hlt | heq
        · exact Or.inl hlt
        · exact Or.inr ⟨heq, hmark' hb' fun hnil => hy ⟨heq.symm, hnil⟩⟩
    · by_cases hy : y = zero ∧ Lines.chomp zero b = []
      · rw [if_neg hx, if_pos hy, hy.1, hy.2]
        refine iff_of_false (fun hlt => ?_) ?_
        · exact lt_asymm hlt (List.cons_lt_cons_iff.mpr (Or.inl hmarkx))
        · rintro (hlt | ⟨heq, hlt⟩)
          · exact (ha x List.mem_cons_self).not_gt hlt
          · exact lt_asymm hlt (hmark' ha' fun hnil => hx ⟨heq, hnil⟩)
      · rw [if_neg hx, if_neg hy, List.cons_append, List.cons_append, List.cons_lt_cons_iff]

end Chomp

/-- All characters of a number are digits. -/
theorem zero_le_of_mem_padded {w n : ℕ} (hn : n < 10 ^ w) : ∀ x ∈ padded w n, '0' ≤ x := by
  have hdigit : ∀ k : Fin 10, '0' ≤ (k : ℕ).digitChar := by decide
  induction w generalizing n with
  | zero => exact fun x hx => absurd hx List.not_mem_nil
  | succ w ih =>
    rw [padded]
    rintro x (_ | ⟨_, hx⟩)
    · exact hdigit ⟨n / 10 ^ w, Nat.div_lt_of_lt_mul (by rwa [pow_succ] at hn)⟩
    · exact ih (Nat.mod_lt n (by positivity)) x hx

/-- A fraction of `w` digits behind its point, without the zeros at their end; nothing where
there are only zeros. -/
def fraction (w n : ℕ) : List Char :=
  if n = 0 then [] else '.' :: Lines.chomp '0' (padded w n)

/-- **Fractions sort by their text**, where a sign follows. -/
theorem fraction_append_lt {w m n : ℕ} {c : List Char} (hm : m < 10 ^ w) (hn : n < 10 ^ w) :
    fraction w m ++ '+' :: c < fraction w n ++ '+' :: c ↔ m < n := by
  have hpoint : ∀ l, '+' :: c < '.' :: l := fun l =>
    List.cons_lt_cons_iff.mpr (Or.inl (by decide))
  rw [fraction, fraction]
  by_cases hm0 : m = 0
  · by_cases hn0 : n = 0
    · rw [if_pos hm0, if_pos hn0, hm0, hn0]
      exact iff_of_false (lt_irrefl _) (lt_irrefl _)
    · rw [if_pos hm0, if_neg hn0]
      exact iff_of_true (hpoint _) (by omega)
  · by_cases hn0 : n = 0
    · rw [if_neg hm0, if_pos hn0]
      exact iff_of_false (lt_asymm (hpoint _)) (by omega)
    · rw [if_neg hm0, if_neg hn0, List.cons_append, List.cons_append, List.cons_lt_cons_self,
        chomp_append_lt (by decide) (by simp) (zero_le_of_mem_padded hm) (zero_le_of_mem_padded hn),
        padded_lt_padded hm hn]

end Decimal
