import Mathlib.Data.List.DropRight

/-!
# Lines and their ends

A file of lines is a word in which every line is followed by a separator. Writing lines is
`Lines.unlines`, a homomorphism, so that it does not matter in how many pieces the lines are
written; `List.splitOn` at the separator reads them back, and an empty piece behind the last
end (`Lines.splitOn_unlines`).

Reading keeps the ends: `Lines.keepEnds` cuts behind every separator, and the last line may
lack one. Once the ends are taken off, what is left differs from the pieces of `List.splitOn`
by an empty piece at the end at most, which no selection of nonempty lines sees
(`Lines.filter_chomp_keepEnds`).
-/

namespace Lines

variable {α : Type} (sep : α)

/-! ### Writing -/

/-- The lines, each followed by the separator. -/
def unlines (ls : List (List α)) : List α := ls.flatMap (· ++ [sep])

@[simp] theorem unlines_nil : unlines sep [] = [] := rfl

@[simp] theorem unlines_cons (l : List α) (ls : List (List α)) :
    unlines sep (l :: ls) = l ++ sep :: unlines sep ls := by
  simp [unlines]

@[simp] theorem unlines_append (ls ls' : List (List α)) :
    unlines sep (ls ++ ls') = unlines sep ls ++ unlines sep ls' := by
  simp [unlines]

/-- Lines written in several pieces are the lines written at once. -/
theorem flatten_map_unlines (lss : List (List (List α))) :
    (lss.map (unlines sep)).flatten = unlines sep lss.flatten := by
  induction lss with
  | nil => rfl
  | cons ls lss ih => rw [List.map_cons, List.flatten_cons, List.flatten_cons, unlines_append, ih]

/-- Joining lines by the separator and adding one at the end gives every line its own. -/
theorem intercalate_append_sep {ls : List (List α)} (h : ls ≠ []) :
    [sep].intercalate ls ++ [sep] = unlines sep ls := by
  induction ls with
  | nil => exact absurd rfl h
  | cons l ls ih =>
    rcases ls with _ | ⟨l', ls⟩
    · simp
    · rw [List.intercalate_cons_cons, unlines_cons, List.append_assoc, List.append_assoc,
        ih (List.cons_ne_nil _ _)]
      rfl

/-- What is written besides the ends is what is in the lines. -/
theorem mem_unlines_iff {x : α} (h : x ≠ sep) {ls : List (List α)} :
    x ∈ unlines sep ls ↔ ∃ l ∈ ls, x ∈ l := by
  simp [unlines, h]

/-- The same for lines joined by the separator. -/
theorem mem_intercalate_iff {x : α} (h : x ≠ sep) {ls : List (List α)} :
    x ∈ [sep].intercalate ls ↔ ∃ l ∈ ls, x ∈ l := by
  rcases eq_or_ne ls [] with rfl | hne
  · simp
  · rw [← mem_unlines_iff sep h, ← intercalate_append_sep sep hne, List.mem_append,
      List.mem_singleton, or_iff_left h]

/-! ### Searching -/

section Search

variable {sep} {word : List α} (hsep : sep ∉ word)

include hsep

/-- What is without the separator ends before it. -/
theorem prefix_of_prefix_append_cons {a b : List α} (h : word <+: a ++ sep :: b) : word <+: a := by
  rcases Nat.lt_or_ge a.length word.length with hlt | hge
  · have hend : a ++ [sep] <+: a ++ sep :: b := ⟨b, by simp⟩
    have hin : a ++ [sep] <+: word :=
      List.prefix_of_prefix_length_le hend h (by rw [List.length_append]; exact hlt)
    exact absurd (hin.subset (List.mem_append_right _ (List.mem_singleton_self _))) hsep
  · exact List.prefix_of_prefix_length_le h (List.prefix_append _ _) hge

theorem infix_append_cons_iff {a b : List α} :
    word <:+: a ++ sep :: b ↔ word <:+: a ∨ word <:+: b := by
  constructor
  · intro h
    induction a with
    | nil =>
      rcases List.infix_cons_iff.mp h with hprefix | hrest
      · exact Or.inl (prefix_of_prefix_append_cons hsep (a := []) hprefix).isInfix
      · exact Or.inr hrest
    | cons x a ih =>
      rcases List.infix_cons_iff.mp h with hprefix | hrest
      · exact Or.inl (prefix_of_prefix_append_cons hsep (a := x :: a) hprefix).isInfix
      · exact (ih hrest).imp_left fun ha => ha.trans (List.suffix_cons x a).isInfix
  · rintro (h | h)
    · exact h.trans (List.prefix_append _ _).isInfix
    · exact h.trans ((List.suffix_cons sep b).trans (List.suffix_append _ _)).isInfix

/-- **A word is in what is written where it is in a line.** -/
theorem infix_unlines_iff (hne : word ≠ []) {ls : List (List α)} :
    word <:+: unlines sep ls ↔ ∃ l ∈ ls, word <:+: l := by
  induction ls with
  | nil => simp [hne]
  | cons l ls ih =>
    rw [unlines_cons, infix_append_cons_iff hsep, ih]
    simp

end Search

/-! ### Reading -/

section Reading

variable [DecidableEq α]

/-- **Written lines split back**, with an empty piece behind the last end. -/
theorem splitOn_unlines {ls : List (List α)} (h : ∀ l ∈ ls, sep ∉ l) :
    (unlines sep ls).splitOn sep = ls ++ [[]] := by
  induction ls with
  | nil => exact List.splitOn_nil sep
  | cons l ls ih =>
    rw [unlines_cons, List.splitOn_append_cons_self_of_not_mem (h l List.mem_cons_self),
      ih fun l' hl' => h l' (List.mem_cons_of_mem _ hl')]
    rfl

/-- Behind written lines stands what has not ended. -/
theorem splitOn_unlines_append {ls : List (List α)} {rest : List α} (h : ∀ l ∈ ls, sep ∉ l)
    (hrest : sep ∉ rest) : (unlines sep ls ++ rest).splitOn sep = ls ++ [rest] := by
  induction ls with
  | nil => exact List.splitOn_eq_singleton hrest
  | cons l ls ih =>
    rw [unlines_cons, List.append_assoc, List.cons_append,
      List.splitOn_append_cons_self_of_not_mem (h l List.mem_cons_self),
      ih fun l' hl' => h l' (List.mem_cons_of_mem _ hl')]
    rfl

/-- No piece of a split contains the separator. -/
theorem not_mem_of_mem_splitOn {text l : List α} (h : l ∈ text.splitOn sep) : sep ∉ l := by
  induction text generalizing l with
  | nil =>
    rw [List.splitOn_nil, List.mem_singleton] at h
    rw [h]
    exact List.not_mem_nil
  | cons x text ih =>
    rw [List.splitOn_cons_eq_if_modifyHead] at h
    split at h
    · rcases List.mem_cons.mp h with rfl | h
      · exact List.not_mem_nil
      · exact ih h
    · next hx =>
      rcases hsplit : text.splitOn sep with _ | ⟨piece, pieces⟩
      · exact absurd hsplit (List.splitOn_ne_nil sep text)
      · rw [hsplit] at h ih
        have hne : sep ≠ x := fun e => hx (by rw [e]; exact beq_self_eq_true x)
        rcases List.mem_cons.mp h with rfl | h
        · exact fun hmem => (List.mem_cons.mp hmem).elim hne (ih List.mem_cons_self)
        · exact ih (List.mem_cons_of_mem _ h)

/-- The lines of a text that have ended. -/
def ended (text : List α) : List (List α) := (text.splitOn sep).dropLast

/-- What stands behind the last end. -/
def unended (text : List α) : List α :=
  (text.splitOn sep).getLast (List.splitOn_ne_nil sep text)

theorem splitOn_eq_ended (text : List α) :
    text.splitOn sep = ended sep text ++ [unended sep text] :=
  (List.dropLast_append_getLast _).symm

theorem not_mem_of_mem_ended {text l : List α} (h : l ∈ ended sep text) : sep ∉ l :=
  not_mem_of_mem_splitOn sep (List.dropLast_subset _ h)

theorem not_mem_unended (text : List α) : sep ∉ unended sep text :=
  not_mem_of_mem_splitOn sep (List.getLast_mem _)

/-- A text is its lines, and what has not ended. -/
theorem unlines_ended_append (text : List α) :
    unlines sep (ended sep text) ++ unended sep text = text := by
  have hall : unlines sep (text.splitOn sep) = text ++ [sep] := by
    rw [← intercalate_append_sep sep (List.splitOn_ne_nil sep text), List.intercalate_splitOn]
  rw [splitOn_eq_ended, unlines_append, unlines_cons, unlines_nil, ← List.append_assoc] at hall
  exact List.append_cancel_right hall

/-- **Lines are cut in one way.** -/
theorem ended_unlines_append {ls : List (List α)} {rest : List α} (h : ∀ l ∈ ls, sep ∉ l)
    (hrest : sep ∉ rest) :
    ended sep (unlines sep ls ++ rest) = ls ∧ unended sep (unlines sep ls ++ rest) = rest := by
  have hsplit := splitOn_unlines_append sep h hrest
  rw [splitOn_eq_ended] at hsplit
  exact List.append_singleton_inj.mp hsplit

/-- **Reading on**: what has not ended is kept, and what comes next goes behind it. -/
theorem ended_append (text chunk : List α) :
    ended sep (text ++ chunk)
        = ended sep text ++ ended sep (unended sep text ++ chunk) ∧
      unended sep (text ++ chunk) = unended sep (unended sep text ++ chunk) := by
  have hlines : ∀ l ∈ ended sep text ++ ended sep (unended sep text ++ chunk), sep ∉ l := by
    intro l hl
    rcases List.mem_append.mp hl with hl | hl
    · exact not_mem_of_mem_ended sep hl
    · exact not_mem_of_mem_ended sep hl
  have htext : text ++ chunk
      = unlines sep (ended sep text ++ ended sep (unended sep text ++ chunk))
        ++ unended sep (unended sep text ++ chunk) := by
    rw [unlines_append, List.append_assoc, unlines_ended_append, ← List.append_assoc,
      unlines_ended_append]
  have hcut := ended_unlines_append sep hlines (not_mem_unended sep (unended sep text ++ chunk))
  rwa [← htext] at hcut

/-- The lines of a text with their ends, which the last one may lack. -/
def keepEnds : List α → List (List α)
  | [] => []
  | x :: text =>
    if x = sep then [x] :: keepEnds text
    else match keepEnds text with
      | [] => [[x]]
      | l :: ls => (x :: l) :: ls

/-- A line without the separators at its end. -/
def chomp (l : List α) : List α := l.rdropWhile (· = sep)

@[simp] theorem chomp_nil : chomp sep [] = [] := rfl

@[simp] theorem chomp_singleton_self : chomp sep [sep] = [] := by
  rw [chomp, List.rdropWhile_singleton]
  exact if_pos (decide_eq_true rfl)

/-- An element stays where it is no separator, or something stays behind it. -/
theorem chomp_cons_eq (x : α) (l : List α) :
    chomp sep (x :: l) = if x = sep ∧ chomp sep l = [] then [] else x :: chomp sep l := by
  rw [chomp, chomp, List.rdropWhile, List.rdropWhile, List.reverse_cons, List.dropWhile_append]
  rcases hdrop : l.reverse.dropWhile (· = sep) with _ | ⟨y, ys⟩
  · by_cases hx : x = sep
    · simp [hx]
    · simp [hx]
  · simp

theorem chomp_cons {x : α} (h : x ≠ sep) (l : List α) : chomp sep (x :: l) = x :: chomp sep l := by
  rw [chomp_cons_eq, if_neg fun hx => h hx.1]

theorem mem_chomp_or {l : List α} {x : α} (h : x ∈ l) : x ∈ chomp sep l ∨ x = sep := by
  rw [← List.rdropWhile_append_rtakeWhile (p := fun y => decide (y = sep)) (l := l)] at h
  rcases List.mem_append.mp h with h | h
  · exact Or.inl h
  · exact Or.inr (by simpa using List.mem_rtakeWhile_imp h)

theorem chomp_subset (l : List α) : chomp sep l ⊆ l :=
  (List.rdropWhile_prefix (fun y => decide (y = sep)) l).subset

theorem keepEnds_eq_nil {text : List α} (h : keepEnds sep text = []) : text = [] := by
  rcases text with _ | ⟨x, text⟩
  · rfl
  · rw [keepEnds] at h
    split at h
    · exact absurd h (List.cons_ne_nil _ _)
    · split at h <;> exact absurd h (List.cons_ne_nil _ _)

/-- The lines without their ends are the pieces of a split, or all but an empty last one. -/
theorem splitOn_eq_chomp_keepEnds (text : List α) :
    text.splitOn sep = (keepEnds sep text).map (chomp sep) ∨
      text.splitOn sep = (keepEnds sep text).map (chomp sep) ++ [[]] := by
  induction text with
  | nil => exact Or.inr (List.splitOn_nil sep)
  | cons x text ih =>
    rw [List.splitOn_cons_eq_if_modifyHead, keepEnds]
    by_cases hx : x = sep
    · rw [if_pos (beq_iff_eq.mpr hx), if_pos hx, List.map_cons, hx, chomp_singleton_self]
      exact ih.imp (fun h => by rw [h]) (fun h => by rw [h]; rfl)
    · rw [if_neg (fun h => hx (beq_iff_eq.mp h)), if_neg hx]
      rcases hkeep : keepEnds sep text with _ | ⟨l, ls⟩
      · -- behind the last end: the rest is empty, and its only piece is the line's end
        rw [keepEnds_eq_nil sep hkeep, List.splitOn_nil]
        exact Or.inl (by simp [chomp_cons sep hx])
      · rw [hkeep] at ih
        refine ih.imp (fun h => ?_) (fun h => ?_)
        · rw [h, List.map_cons, List.map_cons, chomp_cons sep hx]
          rfl
        · rw [h, List.map_cons, List.map_cons, chomp_cons sep hx]
          rfl

/-- **Reading with ends is splitting**, for whatever is made of lines that are not empty. -/
theorem filter_chomp_keepEnds (keep : List α → Bool) (hkeep : keep [] = false) (text : List α) :
    ((keepEnds sep text).map (chomp sep)).filter keep = (text.splitOn sep).filter keep := by
  rcases splitOn_eq_chomp_keepEnds sep text with h | h
  · rw [h]
  · rw [h, List.filter_append, List.filter_singleton, hkeep]
    exact (List.append_nil _).symm

end Reading

end Lines
