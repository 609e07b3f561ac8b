import AiopsLog.Text
import Mathlib.Algebra.Group.Nat.Defs
import Mathlib.Data.List.DropRight

/-!
# Python's numerals

`int(text)` reads more than it is mostly given: white space around the number, a sign,
single underscores between digits, and the decimal digits of every script. What it does not
read is a number of more digits than the interpreter converts. `re.search(r"\d+", text)`
finds the same digits.

What `str` writes of a number is read back by both (`AiopsLog.int_decimal`,
`AiopsLog.searchDigits_append`).
-/

namespace AiopsLog

/-! ### Digits -/

/-- The zeros of the scripts; the digits of a script follow its zero. -/
def digitZeros : List ℕ :=
  [0x30, 0x660, 0x6f0, 0x7c0, 0x966, 0x9e6, 0xa66, 0xae6, 0xb66, 0xbe6, 0xc66, 0xce6, 0xd66, 0xde6,
    0xe50, 0xed0, 0xf20, 0x1040, 0x1090, 0x17e0, 0x1810, 0x1946, 0x19d0, 0x1a80, 0x1a90, 0x1b50,
    0x1bb0, 0x1c40, 0x1c50, 0xa620, 0xa8d0, 0xa900, 0xa9d0, 0xa9f0, 0xaa50, 0xabf0, 0xff10, 0x104a0,
    0x10d30, 0x11066, 0x110f0, 0x11136, 0x111d0, 0x112f0, 0x11450, 0x114d0, 0x11650, 0x116c0,
    0x11730, 0x118e0, 0x11950, 0x11c50, 0x11d50, 0x11da0, 0x11f50, 0x16a60, 0x16ac0, 0x16b50,
    0x1d7ce, 0x1d7d8, 0x1d7e2, 0x1d7ec, 0x1d7f6, 0x1e140, 0x1e2f0, 0x1e4f0, 0x1e950, 0x1fbf0]

/-- The value of a decimal digit. -/
def digitValue (c : Char) : Option ℕ :=
  (digitZeros.find? fun first => first ≤ c.toNat ∧ c.toNat < first + 10).map (c.toNat - ·)

/-- A character that `\d` matches. -/
def isDecimal (c : Char) : Bool := (digitValue c).isSome

theorem digitValue_of_isDigit {c : Char} (h : c.isDigit = true) :
    digitValue c = some (c.toNat - '0'.toNat) := by
  obtain ⟨hle, hge⟩ : 48 ≤ c.toNat ∧ c.toNat ≤ 57 := by
    simpa [Char.isDigit, UInt32.le_iff_toNat_le] using h
  have hzero : digitZeros.find? (fun first => first ≤ c.toNat ∧ c.toNat < first + 10) = some 48 :=
    List.find?_cons_of_pos (decide_eq_true ⟨hle, by omega⟩)
  rw [digitValue, hzero]
  rfl

theorem isDecimal_of_isDigit {c : Char} (h : c.isDigit = true) : isDecimal c = true := by
  rw [isDecimal, digitValue_of_isDigit h]
  rfl

/-- Besides the digits nothing of ASCII is one. -/
theorem not_isDecimal_of_ascii {c : Char} (hascii : c.toNat < 128) (h : c.isDigit = false) :
    isDecimal c = false := by
  have hrange : ¬(48 ≤ c.toNat ∧ c.toNat ≤ 57) := by
    simpa [Char.isDigit, UInt32.le_iff_toNat_le] using h
  have hothers : ∀ first ∈ digitZeros.tail, 128 ≤ first := by decide
  have hnone : digitZeros.find? (fun first => first ≤ c.toNat ∧ c.toNat < first + 10) = none := by
    rw [List.find?_eq_none]
    intro first hfirst
    rw [decide_eq_true_eq]
    rcases List.mem_cons.mp hfirst with rfl | hother
    · omega
    · have := hothers first hother
      omega
  rw [isDecimal, digitValue, hnone]
  rfl

/-! ### `int` -/

/-- The white space around a number. -/
def isNumeralSpace (c : Char) : Bool := isPythonSpace c && !(28 ≤ c.toNat ∧ c.toNat ≤ 31)

/-- The number of digits that are converted at most. -/
def maxStrDigits : ℕ := 4300

/-- The value of a number without a sign: groups of digits, separated by underscores. -/
def numeral (text : Text) : Option ℕ :=
  let groups := text.splitOn '_'
  let digits := groups.flatten
  if groups.all (fun group => !group.isEmpty && group.all isDecimal) ∧
      digits.length ≤ maxStrDigits then
    some (digits.foldl (fun value c => 10 * value + (digitValue c).getD 0) 0)
  else none

/-- `int(text)`; none where it raises. -/
def int (text : Text) : Option ℤ :=
  match (text.dropWhile isNumeralSpace).rdropWhile isNumeralSpace with
  | '+' :: digits => (numeral digits).map fun value => (value : ℤ)
  | '-' :: digits => (numeral digits).map fun value => -(value : ℤ)
  | digits => (numeral digits).map fun value => (value : ℤ)

/-- `str(n)`. -/
def decimal (n : ℕ) : Text := Nat.toDigits 10 n

theorem isDigit_of_mem_decimal {n : ℕ} {c : Char} (h : c ∈ decimal n) : c.isDigit = true :=
  Nat.isDigit_of_mem_toDigits (by decide) le_rfl h

theorem decimal_ne_nil (n : ℕ) : decimal n ≠ [] := Nat.toDigits_ne_nil

theorem not_mem_decimal {n : ℕ} {c : Char} (h : c.isDigit = false) : c ∉ decimal n :=
  fun hmem => Bool.false_ne_true (h.symm.trans (isDigit_of_mem_decimal hmem))

theorem isPythonSpace_of_isDigit {c : Char} (h : c.isDigit = true) : isPythonSpace c = false := by
  have hrange : 48 ≤ c.toNat ∧ c.toNat ≤ 57 := by
    simpa [Char.isDigit, UInt32.le_iff_toNat_le] using h
  rw [isPythonSpace, decide_eq_false_iff_not]
  simp only [List.mem_cons, List.not_mem_nil, or_false]
  omega

theorem numeral_decimal {n : ℕ} (h : n < 10 ^ maxStrDigits) : numeral (decimal n) = some n := by
  have hgroups : (decimal n).splitOn '_' = [decimal n] :=
    List.splitOn_eq_singleton Nat.underscore_not_in_toDigits
  have hdecimal : ∀ c ∈ decimal n, isDecimal c = true := fun c hc =>
    isDecimal_of_isDigit (isDigit_of_mem_decimal hc)
  have hlength : (decimal n).length ≤ maxStrDigits :=
    (Nat.length_toDigits_le_iff (by decide) (by decide)).mpr h
  have hvalue : ∀ (digits : Text) (value : ℕ), (∀ c ∈ digits, c.isDigit = true) →
      digits.foldl (fun value c => 10 * value + (digitValue c).getD 0) value
        = Nat.ofDigitChars 10 digits value := by
    intro digits
    induction digits with
    | nil => exact fun _ _ => rfl
    | cons c digits ih =>
      intro value hdigits
      rw [List.foldl_cons, Nat.ofDigitChars_cons,
        digitValue_of_isDigit (hdigits c List.mem_cons_self)]
      exact ih _ fun c' hc' => hdigits c' (List.mem_cons_of_mem _ hc')
  rw [numeral, hgroups]
  simp only [List.flatten_singleton]
  rw [if_pos ⟨by simpa [decimal_ne_nil] using hdecimal, hlength⟩,
    hvalue _ _ fun c hc => isDigit_of_mem_decimal hc]
  exact congrArg some Nat.ofDigitChars_ten_toDigits

/-- **What `str` writes is read back.** -/
theorem int_decimal {n : ℕ} (h : n < 10 ^ maxStrDigits) : int (decimal n) = some (n : ℤ) := by
  have hspace : ∀ c ∈ decimal n, isNumeralSpace c = false := fun c hc => by
    rw [isNumeralSpace, isPythonSpace_of_isDigit (isDigit_of_mem_decimal hc), Bool.false_and]
  have htrim : ((decimal n).dropWhile isNumeralSpace).rdropWhile isNumeralSpace = decimal n := by
    rw [List.dropWhile_eq_self_iff.mpr fun _ => by
        rw [hspace _ (List.getElem_mem _)]
        exact Bool.false_ne_true,
      List.rdropWhile_eq_self_iff.mpr fun hl => by
        rw [hspace _ (List.getLast_mem hl)]
        exact Bool.false_ne_true]
  rw [int, htrim]
  split
  · next hplus => exact absurd (hplus ▸ List.mem_cons_self) (not_mem_decimal (by decide))
  · next hminus => exact absurd (hminus ▸ List.mem_cons_self) (not_mem_decimal (by decide))
  · rw [numeral_decimal h]
    rfl

/-- So is a number of a machine word. -/
theorem int_decimal_of_lt {n k : ℕ} (h : n < 2 ^ k) (hk : k ≤ maxStrDigits) :
    int (decimal n) = some (n : ℤ) := by
  refine int_decimal ?_
  calc n < 2 ^ k := h
    _ ≤ 10 ^ k := Nat.pow_le_pow_left (by omega) k
    _ ≤ 10 ^ maxStrDigits := Nat.pow_le_pow_right (by omega) hk

/-! ### `re.search` -/

/-- `re.search(r"\d+", text)`: the first run of digits. -/
def searchDigits (text : Text) : Option Text :=
  match text.dropWhile (!isDecimal ·) with
  | [] => none
  | digits => some (digits.takeWhile isDecimal)

/-- **A number behind a text without digits is what is found.** -/
theorem searchDigits_append {text : Text} (h : ∀ c ∈ text, isDecimal c = false) (n : ℕ) :
    searchDigits (text ++ decimal n) = some (decimal n) := by
  have hdecimal : ∀ c ∈ decimal n, isDecimal c = true := fun c hc =>
    isDecimal_of_isDigit (isDigit_of_mem_decimal hc)
  have hdrop : (text ++ decimal n).dropWhile (!isDecimal ·) = decimal n := by
    rw [List.dropWhile_append_of_pos fun c hc => by rw [h c hc]; rfl,
      List.dropWhile_eq_self_iff.mpr fun _ => by
        rw [hdecimal _ (List.getElem_mem _)]
        exact Bool.false_ne_true]
  rw [searchDigits, hdrop]
  split
  · next hnil => exact absurd hnil (decimal_ne_nil n)
  · exact congrArg some (List.takeWhile_eq_self_iff.mpr hdecimal)

end AiopsLog
