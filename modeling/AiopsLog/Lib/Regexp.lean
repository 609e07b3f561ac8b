import Mathlib.Data.List.Chain
import Mathlib.Data.List.Flatten
import Mathlib.Data.List.Forall2
import Mathlib.Data.List.Induction
import Mathlib.Data.List.TakeWhile
import Mathlib.Tactic.Common

/-!
# Backtracking over runs of characters

Many expressions that take a line apart are sequences of greedy repetitions `c+` of
character classes, captured under a name or not, between the anchors of the line. A
backtracking matcher takes the longest run first and then gives characters back, one by
one. `Regexp.ways` lists all the ways of matching in the order in which it comes to them:
the match it returns is the first of them, and what holds of every match holds of all.

The number of ways is exponential in general. But where the classes of two neighbouring
repetitions are apart there is nothing to give back, because the character given back is
none with which the next run can begin. So a chain of such repetitions splits a text in at
most one way, whatever comes after it (`Regexp.ways_chain`), and only a repetition whose
class meets that of its neighbour is left to greed (`Regexp.exists_greedy`).
-/

namespace Regexp

variable {α ν : Type}

/-! ### Expressions -/

/-- A repetition `c+`, captured under a name or not. -/
structure Plus (ν : Type) where
  name : Option ν
  cls : Char → Bool

/-- The atoms of an expression: `^`, `$`, and the repetitions. -/
inductive Atom (ν : Type) where
  | lineStart : Atom ν
  | lineEnd : Atom ν
  | plus : Plus ν → Atom ν

/-- A place in a text: what is before it, the nearest character first, and what is after. -/
structure Cursor where
  before : List Char
  after : List Char

/-- The place behind the next few characters. -/
def Cursor.advance (c : Cursor) (t : List Char) : Cursor :=
  ⟨t.reverse ++ c.before, c.after.drop t.length⟩

/-- At the beginning of the text, or behind a newline that does not end it. -/
def Cursor.atLineStart : Cursor → Bool
  | ⟨[], _⟩ => true
  | ⟨x :: _, after⟩ => x == '\n' && !after.isEmpty

/-- At the end of the text, or before a newline. -/
def Cursor.atLineEnd : Cursor → Bool
  | ⟨_, []⟩ => true
  | ⟨_, x :: _⟩ => x == '\n'

/-- What the groups have captured, in the order in which they appear. -/
abbrev Captures (ν : Type) := List (ν × List Char)

/-- What a repetition captures when it takes a text. -/
def Plus.capture (p : Plus ν) (t : List Char) : Captures ν := p.name.toList.map (·, t)

/-- A repetition can take a text: there is something of it, all in the class. -/
def Plus.Takes (p : Plus ν) (t : List Char) : Prop := t ≠ [] ∧ ∀ x ∈ t, p.cls x = true

/-- What remains of a run as its characters are given back, down to the last one. -/
def prefixes : List α → List (List α)
  | [] => []
  | x :: xs => (prefixes xs).map (x :: ·) ++ [[x]]

/-- The captures of the ways of matching an expression at a place, in the order in which a
backtracking matcher comes to them. -/
def ways : List (Atom ν) → Cursor → List (Captures ν)
  | [], _ => [[]]
  | .lineStart :: e, c => if c.atLineStart then ways e c else []
  | .lineEnd :: e, c => if c.atLineEnd then ways e c else []
  | .plus p :: e, c => (prefixes (c.after.takeWhile p.cls)).flatMap fun t =>
      (ways e (c.advance t)).map (p.capture t ++ ·)

/-- The ways of matching from this place on, the earlier places first. -/
def matchesFrom (e : List (Atom ν)) (before : List Char) : List Char → List (Captures ν)
  | [] => ways e ⟨before, []⟩
  | x :: after => ways e ⟨before, x :: after⟩ ++ matchesFrom e (x :: before) after

/-- All the ways of finding an expression in a text. -/
def allMatches (e : List (Atom ν)) (text : List Char) : List (Captures ν) :=
  matchesFrom e [] text

/-- The match that is returned. -/
def match? (e : List (Atom ν)) (text : List Char) : Option (Captures ν) :=
  (allMatches e text).head?

/-! ### Giving back -/

/-- **The first is the whole run**, and the others are those of the run without its last
character. -/
theorem prefixes_append_singleton (t : List α) (x : α) :
    prefixes (t ++ [x]) = (t ++ [x]) :: prefixes t := by
  induction t with
  | nil => rfl
  | cons y t ih => simp [prefixes, ih]

theorem mem_prefixes {s t : List α} : s ∈ prefixes t ↔ s ≠ [] ∧ s <+: t := by
  induction t using List.reverseRecOn with
  | nil => simp [prefixes]
  | append_singleton t x ih =>
    rw [prefixes_append_singleton, List.mem_cons, ih, List.prefix_concat_iff]
    constructor
    · rintro (rfl | ⟨hs, hle⟩)
      · exact ⟨by simp, .inl rfl⟩
      · exact ⟨hs, .inr hle⟩
    · rintro ⟨hs, rfl | hle⟩
      · exact .inl rfl
      · exact .inr ⟨hs, hle⟩

section Ways

variable {p q : Plus ν} {e : List (Atom ν)} {before text t rest : List Char}

/-- What a repetition takes has a last character. -/
theorem Plus.Takes.exists_concat (h : p.Takes t) : ∃ s x, t = s ++ [x] :=
  (List.eq_nil_or_concat' t).resolve_left h.1

theorem advance_append : Cursor.advance ⟨before, t ++ rest⟩ t = ⟨t.reverse ++ before, rest⟩ := by
  rw [Cursor.advance, List.drop_left]

/-- A run ends where its class does. -/
theorem takeWhile_run (ht : ∀ x ∈ t, p.cls x = true) (hrest : ∀ x ∈ rest.head?, p.cls x = false) :
    (t ++ rest).takeWhile p.cls = t := by
  have hstop : rest.takeWhile p.cls = [] := by
    cases rest with
    | nil => rfl
    | cons x rest => exact List.takeWhile_cons_of_neg (by simp [hrest x rfl])
  rw [List.takeWhile_append_of_pos ht, hstop, List.append_nil]

/-- **A repetition takes a run of its class**, and the rest of the expression goes on
behind it. -/
theorem mem_ways_plus {captures : Captures ν} :
    captures ∈ ways (.plus p :: e) ⟨before, text⟩ ↔
      ∃ t rest, p.Takes t ∧ text = t ++ rest ∧
        ∃ captures' ∈ ways e ⟨t.reverse ++ before, rest⟩, captures = p.capture t ++ captures' := by
  simp only [ways, List.mem_flatMap, List.mem_map, mem_prefixes]
  constructor
  · rintro ⟨t, ⟨ht, hle⟩, captures', hmem, rfl⟩
    obtain ⟨rest, rfl⟩ := hle.trans (List.takeWhile_prefix p.cls)
    rw [advance_append] at hmem
    exact ⟨t, rest, ⟨ht, fun x hx => List.mem_takeWhile_imp (hle.mem hx)⟩, rfl, captures', hmem,
      rfl⟩
  · rintro ⟨t, rest, ⟨ht, hall⟩, rfl, captures', hmem, rfl⟩
    refine ⟨t, ⟨ht, ?_⟩, captures', ?_, rfl⟩
    · rw [List.takeWhile_append_of_pos hall]
      exact List.prefix_append t _
    · rwa [advance_append]

/-- Where a text does not begin with the class, a repetition has no run to take. -/
theorem ways_plus_eq_nil (h : ∀ x ∈ text.head?, p.cls x = false) :
    ways (.plus p :: e) ⟨before, text⟩ = [] := by
  have hrun : text.takeWhile p.cls = [] := @takeWhile_run ν p [] text nofun h
  rw [ways, hrun]
  rfl

/-- The ways of matching where the whole run is taken come first; the others give its last
character back. -/
theorem ways_plus_run {x : Char} (ht : p.Takes (t ++ [x]))
    (hrest : ∀ y ∈ rest.head?, p.cls y = false) :
    ways (.plus p :: e) ⟨before, t ++ [x] ++ rest⟩
      = (ways e ⟨(t ++ [x]).reverse ++ before, rest⟩).map (p.capture (t ++ [x]) ++ ·) ++
        (prefixes t).flatMap fun s =>
          (ways e (Cursor.advance ⟨before, t ++ [x] ++ rest⟩ s)).map (p.capture s ++ ·) := by
  rw [ways, takeWhile_run ht.2 hrest, prefixes_append_singleton, List.flatMap_cons, advance_append]

/-- **A run is taken whole** where the rest of the expression matches nowhere inside it. -/
theorem ways_plus_whole (ht : p.Takes t) (hrest : ∀ x ∈ rest.head?, p.cls x = false)
    (h : ∀ u v, v ≠ [] → t = u ++ v → ways e ⟨u.reverse ++ before, v ++ rest⟩ = []) :
    ways (.plus p :: e) ⟨before, t ++ rest⟩
      = (ways e ⟨t.reverse ++ before, rest⟩).map (p.capture t ++ ·) := by
  obtain ⟨s, x, rfl⟩ := ht.exists_concat
  rw [ways_plus_run ht hrest, List.append_right_eq_self, List.flatMap_eq_nil_iff]
  intro u hu
  obtain ⟨-, v, rfl⟩ := mem_prefixes.mp hu
  have hsplit : u ++ v ++ [x] ++ rest = u ++ (v ++ [x] ++ rest) := by simp
  rw [hsplit, advance_append, List.map_eq_nil_iff]
  exact h u (v ++ [x]) (by simp) (List.append_assoc u v [x])

end Ways

/-! ### Chains of runs -/

section Chain

variable {p q : Plus ν} {ps : List (Plus ν)} {e : List (Atom ν)} {before text t rest : List Char}
  {ts : List (List Char)}

/-- The two classes have no character in common. -/
def Apart (p q : Plus ν) : Prop := ∀ x, p.cls x = true → q.cls x = false

/-- **Between classes that are apart nothing is given back**: the run is taken whole. -/
theorem ways_plus_of_apart (h : Apart p q) (ht : p.Takes t)
    (hrest : ∀ x ∈ rest.head?, q.cls x = true) :
    ways (.plus p :: .plus q :: e) ⟨before, t ++ rest⟩
      = (ways (.plus q :: e) ⟨t.reverse ++ before, rest⟩).map (p.capture t ++ ·) := by
  have hend : ∀ x ∈ rest.head?, p.cls x = false := by
    intro x hx
    by_contra hp
    rw [Bool.not_eq_false] at hp
    exact absurd (hrest x hx) (by simp [h x hp])
  refine ways_plus_whole ht hend fun u v hv hsplit => ways_plus_eq_nil fun x hx => h x (ht.2 x ?_)
  -- what is given back begins with a character of the first class
  rw [List.head?_append_of_ne_nil _ hv] at hx
  rw [hsplit]
  exact List.mem_append_right _ (List.mem_of_mem_head? hx)

/-- What the repetitions of a chain capture. -/
def captures (ps : List (Plus ν)) (ts : List (List Char)) : Captures ν :=
  (List.zipWith Plus.capture ps ts).flatten

theorem captures_cons : captures (p :: ps) (t :: ts) = p.capture t ++ captures ps ts := rfl

/-- **A chain takes one run after the other.** -/
theorem exists_of_mem_ways {cs : Captures ν}
    (h : cs ∈ ways (ps.map .plus ++ e) ⟨before, text⟩) :
    ∃ ts rest, List.Forall₂ Plus.Takes ps ts ∧ text = ts.flatten ++ rest ∧
      ∃ cs' ∈ ways e ⟨ts.flatten.reverse ++ before, rest⟩, cs = captures ps ts ++ cs' := by
  induction ps generalizing before text cs with
  | nil => exact ⟨[], text, .nil, rfl, cs, h, rfl⟩
  | cons p ps ih =>
    obtain ⟨t, rest, ht, rfl, cs', hcs', rfl⟩ := mem_ways_plus.mp h
    obtain ⟨ts, rest', hts, rfl, cs'', hcs'', rfl⟩ := ih hcs'
    refine ⟨t :: ts, rest', .cons ht hts, by simp, cs'', ?_, by rw [captures_cons]; simp⟩
    simpa using hcs''

/-- **A chain whose neighbours are apart needs no backtracking**: a text that it can take,
one run after the other, it takes in no other way, whatever the expression is that follows,
as long as this begins with a class of its own. -/
theorem ways_chain (hchain : (ps ++ [q]).IsChain Apart) (hts : List.Forall₂ Plus.Takes ps ts)
    (hrest : ∀ x ∈ rest.head?, q.cls x = true) :
    ways (ps.map .plus ++ .plus q :: e) ⟨before, ts.flatten ++ rest⟩
      = (ways (.plus q :: e) ⟨ts.flatten.reverse ++ before, rest⟩).map (captures ps ts ++ ·) := by
  induction hts generalizing before with
  | nil => simp [captures]
  | @cons p t ps ts ht hts ih =>
    have htail := @ih (t.reverse ++ before) hchain.tail
    have hmap : ∀ ways : List (Captures ν),
        (ways.map (captures ps ts ++ ·)).map (p.capture t ++ ·)
          = ways.map (captures (p :: ps) (t :: ts) ++ ·) := by
      intro ways
      rw [List.map_map]
      exact List.map_congr_left fun cs _ => by simp [captures_cons]
    have hreverse : ts.flatten.reverse ++ (t.reverse ++ before)
        = (t :: ts).flatten.reverse ++ before := by simp
    rw [List.flatten_cons, List.append_assoc, List.map_cons, List.cons_append, ← List.flatten_cons,
      ← hreverse, ← hmap, ← htail]
    cases hts with
    | nil => exact ways_plus_of_apart (List.isChain_cons_cons.mp hchain).1 ht hrest
    | @cons p' t' ps ts ht' hts =>
      refine ways_plus_of_apart (List.isChain_cons_cons.mp hchain).1 ht fun x hx => ht'.2 x ?_
      rw [List.flatten_cons, List.append_assoc, List.head?_append_of_ne_nil _ ht'.1] at hx
      exact List.mem_of_mem_head? hx

end Chain

/-! ### Lines -/

section Line

variable {p q : Plus ν} {e : List (Atom ν)} {before text t rest : List Char}

theorem matchesFrom_lineStart_eq_nil {x : Char} (hx : x ≠ '\n') (h : '\n' ∉ text) :
    matchesFrom (.lineStart :: e) (x :: before) text = [] := by
  have hnone : ∀ after, ways (.lineStart :: e) ⟨x :: before, after⟩ = [] := by
    intro after
    rw [ways, Cursor.atLineStart, if_neg (by simp [hx])]
  induction text generalizing x before with
  | nil => exact hnone []
  | cons y text ih =>
    rw [List.mem_cons, not_or] at h
    rw [matchesFrom, hnone, List.nil_append]
    refine ih (Ne.symm h.1) h.2 fun after => ?_
    rw [ways, Cursor.atLineStart, if_neg (by simp [Ne.symm h.1])]

/-- **In a single line, an anchored expression matches at its beginning** or not at all. -/
theorem allMatches_lineStart (h : '\n' ∉ text) :
    allMatches (.lineStart :: e) text = ways e ⟨[], text⟩ := by
  have hstart : ∀ after, ways (.lineStart :: e) ⟨[], after⟩ = ways e ⟨[], after⟩ := fun _ => rfl
  rw [allMatches]
  cases text with
  | nil => exact hstart []
  | cons x text =>
    rw [List.mem_cons, not_or] at h
    rw [matchesFrom, matchesFrom_lineStart_eq_nil (Ne.symm h.1) h.2, hstart, List.append_nil]

/-- A line has its end nowhere else. -/
theorem ways_lineEnd_eq_nil (hline : '\n' ∉ text) (h : text ≠ []) :
    ways (.lineEnd :: e) ⟨before, text⟩ = [] := by
  obtain ⟨x, rest, rfl⟩ := List.exists_cons_of_ne_nil h
  rw [ways, Cursor.atLineEnd, if_neg]
  rintro hx
  simp [beq_iff_eq.mp hx] at hline

/-- **A last repetition takes the whole rest of the line**, all of it being in its class. -/
theorem ways_plus_lineEnd (hline : '\n' ∉ text) (hp : p.Takes text) :
    ways [.plus p, .lineEnd] ⟨before, text⟩ = [p.capture text] := by
  have hwhole := @ways_plus_whole ν p [.lineEnd] before text [] hp nofun fun u v hv hsplit => by
    -- a character of the line is left before its end
    rw [hsplit, List.mem_append, not_or] at hline
    rw [List.append_nil]
    exact ways_lineEnd_eq_nil hline.2 hv
  rw [List.append_nil] at hwhole
  rw [hwhole, ways, Cursor.atLineEnd, if_pos rfl, ways, List.map_singleton, List.append_nil]

/-- **Two last repetitions share out the rest of the line.** -/
theorem exists_of_mem_ways_lineEnd (hline : '\n' ∉ text) {captures : Captures ν}
    (h : captures ∈ ways [.plus p, .plus q, .lineEnd] ⟨before, text⟩) :
    ∃ t rest, p.Takes t ∧ q.Takes rest ∧ text = t ++ rest ∧
      captures = p.capture t ++ q.capture rest := by
  obtain ⟨t, rest, ht, rfl, captures', h', rfl⟩ := mem_ways_plus.mp h
  obtain ⟨u, rest', hu, rfl, captures'', hend, rfl⟩ := mem_ways_plus.mp h'
  rw [List.mem_append, List.mem_append, not_or, not_or] at hline
  by_cases hrest : rest' = []
  · subst hrest
    obtain rfl : captures'' = [] := List.mem_singleton.mp hend
    exact ⟨t, u, ht, hu, by simp, by simp⟩
  · rw [ways_lineEnd_eq_nil hline.2.2 hrest] at hend
    nomatch hend

/-- Before the end of the line a repetition has nothing to take. -/
theorem ways_plus_nil : ways (.plus p :: e) ⟨before, []⟩ = [] := ways_plus_eq_nil nofun

/-- **A separator is taken whole** where something follows it. -/
theorem head?_ways_separator (hline : '\n' ∉ rest) (ht : p.Takes t)
    (hend : ∀ x ∈ rest.head?, p.cls x = false) (hq : q.Takes rest) :
    (ways [.plus p, .plus q, .lineEnd] ⟨before, t ++ rest⟩).head?
      = some (p.capture t ++ q.capture rest) := by
  obtain ⟨s, x, rfl⟩ := ht.exists_concat
  rw [ways_plus_run ht hend, ways_plus_lineEnd hline hq]
  rfl

/-- **What greed makes of a separator** that what follows it could take as well: it is taken
whole if anything else follows, and otherwise all but its last character. -/
theorem exists_greedy (hline : '\n' ∉ text) (hq : ∀ x ∈ text, q.cls x = true)
    (h : ways [.plus p, .plus q, .lineEnd] ⟨before, text⟩ ≠ []) :
    ∃ t rest, p.Takes t ∧ q.Takes rest ∧ text = t ++ rest ∧
      (ways [.plus p, .plus q, .lineEnd] ⟨before, text⟩).head?
        = some (p.capture t ++ q.capture rest) ∧
      ((∀ x ∈ rest.head?, p.cls x = false) ∨ ∃ x, rest = [x]) := by
  have htext : text = text.takeWhile p.cls ++ text.dropWhile p.cls :=
    List.takeWhile_append_dropWhile.symm
  have hall : ∀ x ∈ text.takeWhile p.cls, p.cls x = true := fun x hx => List.mem_takeWhile_imp hx
  have hend : ∀ x ∈ (text.dropWhile p.cls).head?, p.cls x = false := by
    intro x hx
    have hnot := List.head?_dropWhile_not p.cls text
    rwa [Option.mem_def.mp hx] at hnot
  generalize text.takeWhile p.cls = t at htext hall
  generalize text.dropWhile p.cls = rest at htext hend
  subst htext
  have htake : t ≠ [] := by
    rintro rfl
    exact h (ways_plus_eq_nil hend)
  by_cases hrest : rest = []
  · -- nothing but the separator is left
    subst hrest
    rw [List.append_nil] at *
    have ht : p.Takes t := ⟨htake, hall⟩
    obtain ⟨s, x, rfl⟩ := ht.exists_concat
    have hrun := @ways_plus_run ν p [.plus q, .lineEnd] before s [] x ht nofun
    rw [List.append_nil, ways_plus_nil, List.map_nil, List.nil_append] at hrun
    rcases List.eq_nil_or_concat' s with rfl | ⟨s, y, rfl⟩
    · exact absurd hrun h
    have hx : q.Takes [x] := ⟨nofun, fun z hz => hq z (by simp_all)⟩
    refine ⟨s ++ [y], [x], ⟨by simp, fun z hz => hall z (List.mem_append_left _ hz)⟩, hx, rfl, ?_,
      .inr ⟨x, rfl⟩⟩
    rw [hrun, prefixes_append_singleton, List.flatMap_cons, advance_append,
      ways_plus_lineEnd (fun hmem => hline (List.mem_append_right _ hmem)) hx]
    rfl
  · have hq' : q.Takes rest := ⟨hrest, fun x hx => hq x (List.mem_append_right _ hx)⟩
    exact ⟨t, rest, ⟨htake, hall⟩, hq', rfl, head?_ways_separator
      (fun hx => hline (List.mem_append_right _ hx)) ⟨htake, hall⟩ hend hq', .inl hend⟩

end Line

end Regexp
