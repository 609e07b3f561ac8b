import Mathlib.Data.Nat.Find
import Mathlib.Order.Monotone.Basic

/-!
# The Gregorian calendar

Days are numbered from the first of January of the year one, and years and months are looked
up among their first days. A number and the greatest first day up to it determine each other
in the lexicographic order (`Calendar.lt_iff_of_brackets`), whatever the lengths of the
periods; used for the years and then for the months, this makes the order of the days that of
their year, month and day (`Calendar.lt_iff`).
-/

namespace Calendar

/-! ### Looking up a period -/

section Lookup

variable {s : ℕ → ℕ}

/-- The greatest index whose period has begun, up to a bound. -/
def lookup (s : ℕ → ℕ) (bound n : ℕ) : ℕ := Nat.findGreatest (fun i => s i ≤ n) bound

theorem lookup_le (s : ℕ → ℕ) (bound n : ℕ) : lookup s bound n ≤ bound := Nat.findGreatest_le _

/-- The period has begun, -/
theorem le_of_lookup {bound n : ℕ} (h : s 0 = 0) : s (lookup s bound n) ≤ n :=
  Nat.findGreatest_spec (P := fun i => s i ≤ n) (Nat.zero_le bound) (h.trans_le (Nat.zero_le n))

/-- and the next one has not. -/
theorem lt_of_lookup {bound n : ℕ} (h : n < s (bound + 1)) : n < s (lookup s bound n + 1) := by
  rcases Nat.lt_or_ge (lookup s bound n) bound with hlt | hge
  · exact Nat.not_le.mp
      (Nat.findGreatest_is_greatest (P := fun i => s i ≤ n) (Nat.lt_succ_self _) hlt)
  · have heq : lookup s bound n = bound := Nat.le_antisymm (lookup_le s bound n) hge
    rwa [heq]

/-- **Numbers sort by their period, and in a period by how far they are in it.** -/
theorem lt_iff_of_brackets (hs : Monotone s) {i j m n : ℕ} (hm : s i ≤ m ∧ m < s (i + 1))
    (hn : s j ≤ n ∧ n < s (j + 1)) : m < n ↔ i < j ∨ i = j ∧ m - s i < n - s j := by
  have hbefore : ∀ {i j m n : ℕ}, m < s (i + 1) → s j ≤ n → i < j → m < n := by
    intro i j m n hlt hle hij
    exact Nat.lt_of_lt_of_le hlt ((hs hij).trans hle)
  constructor
  · intro hlt
    rcases Nat.lt_trichotomy i j with hij | rfl | hji
    · exact Or.inl hij
    · exact Or.inr ⟨rfl, by omega⟩
    · exact absurd (hbefore hn.2 hm.1 hji) (Nat.not_lt.mpr hlt.le)
  · rintro (hij | ⟨rfl, hlt⟩)
    · exact hbefore hm.2 hn.1 hij
    · omega

end Lookup

/-! ### Years -/

/-- The year is a leap year. -/
def IsLeap (year : ℕ) : Prop := year % 4 = 0 ∧ (year % 100 ≠ 0 ∨ year % 400 = 0)

instance (year : ℕ) : Decidable (IsLeap year) := inferInstanceAs (Decidable (_ ∧ _))

/-- The number of days before the year `y + 1`. -/
def yearStart (y : ℕ) : ℕ := 365 * y + y / 4 - y / 100 + y / 400

theorem yearStart_succ (y : ℕ) :
    yearStart (y + 1) = yearStart y + if IsLeap (y + 1) then 366 else 365 := by
  unfold yearStart
  by_cases hleap : IsLeap (y + 1)
  · rw [if_pos hleap]
    rcases hleap with ⟨hfour, hhundred | hfourHundred⟩
    · omega
    · omega
  · rw [if_neg hleap]
    rcases not_and_or.mp hleap with hfour | hhundred
    · -- none of the three counts of years moves
      have h4 : (y + 1) / 4 = y / 4 := by omega
      have h100 : (y + 1) / 100 = y / 100 := by omega
      have h400 : (y + 1) / 400 = y / 400 := by omega
      rw [h4, h100, h400]
      omega
    · obtain ⟨hhundred, hfourHundred⟩ := not_or.mp hhundred
      clear hleap
      omega

theorem yearStart_mono : Monotone yearStart :=
  monotone_nat_of_le_succ fun y => by
    rw [yearStart_succ]
    exact Nat.le_add_right _ _

/-- The calendar repeats after four hundred years. -/
theorem yearStart_cycle (cycles y : ℕ) :
    yearStart (400 * cycles + y) = 146097 * cycles + yearStart y := by
  unfold yearStart
  omega

/-- The year of a day, less one. -/
def yearIndex (n : ℕ) : ℕ := 400 * (n / 146097) + lookup yearStart 399 (n % 146097)

theorem yearIndex_bracket (n : ℕ) :
    yearStart (yearIndex n) ≤ n ∧ n < yearStart (yearIndex n + 1) := by
  have hdiv : 146097 * (n / 146097) + n % 146097 = n := Nat.div_add_mod n 146097
  have hmod : n % 146097 < yearStart (399 + 1) := Nat.mod_lt n (by decide)
  have hbegun : yearStart (lookup yearStart 399 (n % 146097)) ≤ n % 146097 := le_of_lookup rfl
  have hnext := lt_of_lookup hmod
  rw [yearIndex, Nat.add_assoc, yearStart_cycle, yearStart_cycle]
  omega

/-! ### Months and days -/

/-- The number of days of a month. -/
def monthLength (year month : ℕ) : ℕ :=
  if month = 2 then if IsLeap year then 29 else 28
  else if month = 4 ∨ month = 6 ∨ month = 9 ∨ month = 11 then 30
  else 31

/-- The number of days of a year before its month `m + 1`. -/
def monthStart (year : ℕ) : ℕ → ℕ
  | 0 => 0
  | m + 1 => monthStart year m + monthLength year (m + 1)

theorem monthLength_le (year month : ℕ) : monthLength year month ≤ 31 := by
  unfold monthLength
  split
  · split <;> omega
  · split <;> omega

theorem monthStart_mono (year : ℕ) : Monotone (monthStart year) :=
  monotone_nat_of_le_succ fun m => Nat.le_add_right _ (monthLength year (m + 1))

/-- The months make up the year. -/
theorem monthStart_twelve (year : ℕ) :
    monthStart year 12 = if IsLeap year then 366 else 365 := by
  by_cases h : IsLeap year <;> simp [monthStart, monthLength, h]

/-- The year of a day. -/
def year (n : ℕ) : ℕ := yearIndex n + 1

/-- How many days of its year are before it. -/
def dayOfYear (n : ℕ) : ℕ := n - yearStart (yearIndex n)

theorem dayOfYear_lt (n : ℕ) : dayOfYear n < monthStart (year n) 12 := by
  obtain ⟨hbegun, hnext⟩ := yearIndex_bracket n
  rw [monthStart_twelve, year, dayOfYear]
  rw [yearStart_succ] at hnext
  omega

/-- The month of a day, less one. -/
def monthIndex (n : ℕ) : ℕ := lookup (monthStart (year n)) 11 (dayOfYear n)

theorem monthIndex_bracket (n : ℕ) :
    monthStart (year n) (monthIndex n) ≤ dayOfYear n ∧
      dayOfYear n < monthStart (year n) (monthIndex n + 1) :=
  ⟨le_of_lookup rfl, lt_of_lookup (dayOfYear_lt n)⟩

/-- The month of a day. -/
def month (n : ℕ) : ℕ := monthIndex n + 1

/-- The day of the month. -/
def day (n : ℕ) : ℕ := dayOfYear n - monthStart (year n) (monthIndex n) + 1

theorem month_mem (n : ℕ) : 1 ≤ month n ∧ month n ≤ 12 :=
  ⟨Nat.succ_pos _, Nat.succ_le_succ (lookup_le _ _ _)⟩

/-- The day is one of its month. -/
theorem day_mem (n : ℕ) : 1 ≤ day n ∧ day n ≤ monthLength (year n) (month n) := by
  obtain ⟨hbegun, hnext⟩ := monthIndex_bracket n
  rw [monthStart] at hnext
  rw [day, month]
  omega

theorem year_le {n bound : ℕ} (h : n < yearStart bound) : year n ≤ bound := by
  by_contra hlt
  have hle : yearStart bound ≤ yearStart (yearIndex n) := yearStart_mono (by
    rw [year] at hlt
    omega)
  have hbegun := (yearIndex_bracket n).1
  omega

/-- In a year, days sort by their month and day. -/
theorem dayOfYear_lt_iff {m n : ℕ} (h : year m = year n) :
    dayOfYear m < dayOfYear n ↔ month m < month n ∨ month m = month n ∧ day m < day n := by
  have hm := monthIndex_bracket m
  rw [h] at hm
  rw [lt_iff_of_brackets (monthStart_mono (year n)) hm (monthIndex_bracket n), month, month, day,
    day, h]
  omega

/-- **Days sort by their year, month and day.** -/
theorem lt_iff (m n : ℕ) :
    m < n ↔ year m < year n ∨ year m = year n ∧
      (month m < month n ∨ month m = month n ∧ day m < day n) := by
  have hyear : yearIndex m = yearIndex n ↔ year m = year n := Nat.succ_inj.symm
  rw [lt_iff_of_brackets yearStart_mono (yearIndex_bracket m) (yearIndex_bracket n), hyear]
  exact or_congr Nat.succ_lt_succ_iff.symm (and_congr_right dayOfYear_lt_iff)

/-- The first day of the Unix epoch, a leap day, and the last day of the year 9999. -/
example : (year 719162, month 719162, day 719162) = (1970, 1, 1) ∧
    (year 730178, month 730178, day 730178) = (2000, 2, 29) ∧
    (year 3652058, month 3652058, day 3652058) = (9999, 12, 31) := by
  decide +kernel

end Calendar
