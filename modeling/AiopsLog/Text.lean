import AiopsLog.Lib.Lines
import Mathlib.Data.Int.Notation

/-!
# Python's texts

What the scripts ask of Python to take a text apart: the whitespace `str.strip` removes, the
lines a text file is iterated by, and the lines of `str.splitlines`. A file opened in text
mode knows three ends of a line and turns them all into one before anything is cut; the
lines it is iterated by keep that end. `str.splitlines` knows more ends, and drops them.
-/

namespace AiopsLog

/-- Texts, by their characters. -/
abbrev Text := List Char

/-- The whitespace `str.strip` removes. -/
def isPythonSpace (c : Char) : Bool :=
  (9 ≤ c.toNat ∧ c.toNat ≤ 13) ∨ (28 ≤ c.toNat ∧ c.toNat ≤ 32) ∨
    (8192 ≤ c.toNat ∧ c.toNat ≤ 8202) ∨
    c.toNat ∈ [133, 160, 5760, 8232, 8233, 8239, 8287, 12288]

/-- `line.strip()`. -/
def strip (line : String) : String :=
  String.ofList
    (((line.toList.dropWhile isPythonSpace).reverse.dropWhile isPythonSpace).reverse)

theorem toList_strip_ofList (text : Text) :
    (strip (String.ofList text)).toList
      = (text.dropWhile isPythonSpace).rdropWhile isPythonSpace := by
  rw [strip, String.toList_ofList, String.toList_ofList]
  rfl

theorem strip_of_forall {text : Text} (h : ∀ c ∈ text, isPythonSpace c = false) :
    (strip (String.ofList text)).toList = text := by
  rw [toList_strip_ofList,
    List.dropWhile_eq_self_iff.mpr fun _ =>
      (h _ (List.getElem_mem _)).trans_ne Bool.false_ne_true,
    List.rdropWhile_eq_self_iff.mpr fun hl =>
      (h _ (List.getLast_mem hl)).trans_ne Bool.false_ne_true]

/-- `not line.strip()`. -/
def isBlank (line : Text) : Bool := strip (String.ofList line) = ""

theorem isBlank_iff {line : Text} : isBlank line = true ↔ ∀ c ∈ line, isPythonSpace c := by
  rw [isBlank, decide_eq_true_eq, strip, String.toList_ofList, ← String.toList_inj,
    String.toList_ofList]
  show List.rdropWhile isPythonSpace (line.dropWhile isPythonSpace) = [] ↔ _
  rw [List.rdropWhile_eq_nil_iff]
  constructor
  · intro h c hc
    rw [← List.takeWhile_append_dropWhile (p := isPythonSpace) (l := line)] at hc
    exact (List.mem_append.mp hc).elim (fun hc => List.mem_takeWhile_imp hc) (h c)
  · exact fun h c hc => h c ((List.dropWhile_sublist _).subset hc)

/-- The end of a line is white, and so does not count for whether the line is blank. -/
theorem isBlank_chomp (line : Text) : isBlank (Lines.chomp '\n' line) = isBlank line := by
  refine Bool.eq_iff_iff.mpr ⟨fun h => ?_, fun h => ?_⟩
  · refine isBlank_iff.mpr fun c hc => ?_
    rcases Lines.mem_chomp_or '\n' hc with hc | rfl
    · exact isBlank_iff.mp h c hc
    · rfl
  · exact isBlank_iff.mpr fun c hc => isBlank_iff.mp h c (Lines.chomp_subset '\n' line hc)

/-- What reading in text mode makes of the ends of lines. -/
def universalNewlines : Text → Text
  | '\r' :: '\n' :: text => '\n' :: universalNewlines text
  | '\r' :: text => '\n' :: universalNewlines text
  | c :: text => c :: universalNewlines text
  | [] => []

/-- `for line in f`, of a file of this content opened in text mode. -/
def fileLines (content : Text) : List Text :=
  Lines.keepEnds '\n' (universalNewlines content)

/-- The boundaries of `str.splitlines`. -/
def isLineBoundary (c : Char) : Bool :=
  ['\n', '\r', '\x0b', '\x0c', '\x1c', '\x1d', '\x1e', '\u0085', '\u2028', '\u2029'].contains c

/-- `text.splitlines()`. -/
def splitlines : Text → List Text
  | '\r' :: '\n' :: text => [] :: splitlines text
  | c :: text =>
    if isLineBoundary c then [] :: splitlines text
    else match splitlines text with
      | [] => [[c]]
      | line :: lines => (c :: line) :: lines
  | [] => []

theorem isPythonSpace_of_isLineBoundary {c : Char} (h : isLineBoundary c = true) :
    isPythonSpace c = true := by
  simp only [isLineBoundary, List.contains_iff_mem, List.mem_cons, List.not_mem_nil, or_false] at h
  rcases h with rfl | rfl | rfl | rfl | rfl | rfl | rfl | rfl | rfl | rfl <;> decide

theorem splitlines_cons {c : Char} (h : isLineBoundary c = false) (text : Text) :
    splitlines (c :: text) = match splitlines text with
      | [] => [[c]]
      | line :: lines => (c :: line) :: lines := by
  have hne : c ≠ '\r' := by
    rintro rfl
    exact absurd h (by decide)
  rw [splitlines, if_neg (h.trans_ne Bool.false_ne_true)]
  exact fun _ hc => absurd hc hne

/-- A line that is not ended is the last one. -/
theorem splitlines_of_forall {line : Text} (hne : line ≠ [])
    (h : ∀ c ∈ line, isLineBoundary c = false) : splitlines line = [line] := by
  induction line with
  | nil => exact absurd rfl hne
  | cons c line ih =>
    rw [splitlines_cons (h c List.mem_cons_self)]
    rcases eq_or_ne line [] with rfl | hline
    · rfl
    · rw [ih hline fun c' hc' => h c' (List.mem_cons_of_mem _ hc')]

/-- **Written lines are read back**, and what is behind them is read on its own. -/
theorem splitlines_unlines_append {lines : List Text}
    (h : ∀ line ∈ lines, ∀ c ∈ line, isLineBoundary c = false) (text : Text) :
    splitlines (Lines.unlines '\n' lines ++ text) = lines ++ splitlines text := by
  have hline : ∀ (line rest : Text), (∀ c ∈ line, isLineBoundary c = false) →
      splitlines (line ++ '\n' :: rest) = line :: splitlines rest := by
    intro line rest
    induction line with
    | nil =>
      intro _
      rw [List.nil_append, splitlines, if_pos (by decide)]
      exact fun _ hc => absurd hc (by decide)
    | cons c line ih =>
      intro hline
      rw [List.cons_append, splitlines_cons (hline c List.mem_cons_self),
        ih fun c' hc' => hline c' (List.mem_cons_of_mem _ hc')]
  induction lines with
  | nil => rfl
  | cons line lines ih =>
    rw [Lines.unlines_cons, List.append_assoc, List.cons_append,
      hline _ _ (h line List.mem_cons_self),
      ih fun line' hline' => h line' (List.mem_cons_of_mem _ hline')]
    rfl

/-- **Lines of words without white space come back from the stripped text.** -/
theorem splitlines_strip_unlines {lines : List Text}
    (h : ∀ line ∈ lines, line ≠ [] ∧ ∀ c ∈ line, isPythonSpace c = false) :
    splitlines (strip (String.ofList (Lines.unlines '\n' lines))).toList = lines := by
  have hboundary : ∀ line ∈ lines, ∀ c ∈ line, isLineBoundary c = false := by
    intro line hline c hc
    by_contra hboundary
    rw [Bool.not_eq_false] at hboundary
    exact Bool.false_ne_true
      (((h line hline).2 c hc).symm.trans (isPythonSpace_of_isLineBoundary hboundary))
  have hleft : (Lines.unlines '\n' lines).dropWhile isPythonSpace = Lines.unlines '\n' lines := by
    rcases lines with _ | ⟨_ | ⟨c, line⟩, lines⟩
    · rfl
    · exact absurd rfl (h [] List.mem_cons_self).1
    · have hc : isPythonSpace c = false := (h _ List.mem_cons_self).2 c List.mem_cons_self
      rw [Lines.unlines_cons]
      exact List.dropWhile_cons_of_neg (hc.trans_ne Bool.false_ne_true)
  rw [toList_strip_ofList, hleft]
  rcases List.eq_nil_or_concat' lines with rfl | ⟨init, last, rfl⟩
  · rfl
  · obtain ⟨hne, hlast⟩ := h last (List.mem_append_right _ List.mem_cons_self)
    rcases List.eq_nil_or_concat' last with rfl | ⟨word, c, rfl⟩
    · exact absurd rfl hne
    · -- the end of the last line is stripped, and the character before it is not
      have hc : isPythonSpace c = false := hlast c (List.mem_append_right _ List.mem_cons_self)
      have hend : Lines.unlines '\n' (init ++ [word ++ [c]])
          = Lines.unlines '\n' init ++ word ++ [c] ++ ['\n'] := by simp
      rw [hend, List.rdropWhile_concat_pos _ _ _ rfl,
        List.rdropWhile_concat_neg _ _ _ (hc.trans_ne Bool.false_ne_true), List.append_assoc,
        splitlines_unlines_append fun line hline => hboundary line (List.mem_append_left _ hline),
        splitlines_of_forall hne (hboundary _ (List.mem_append_right _ List.mem_cons_self))]

/-- What `subprocess.run` returns, as far as it is read. -/
structure CompletedProcess where
  returncode : ℤ
  stdout : Text

/-- `result.returncode == 0`. -/
def CompletedProcess.ok (result : CompletedProcess) : Bool := result.returncode = 0

end AiopsLog
