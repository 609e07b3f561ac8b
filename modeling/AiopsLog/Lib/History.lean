import Mathlib.Data.List.Basic
import Mathlib.Data.List.Induction
import Mathlib.Data.List.TakeWhile
import Mathlib.Tactic.Common

/-!
# Histories

A history is the list of what has happened, the oldest event first; it only grows, at
its end. Three things are said of one.

* That something holds *since* an event: an event that switches it on has happened, and
  none that switches it off has happened after it (`History.Since`).
* That every event was *legal* when it happened, given what had happened before it
  (`History.Legal`).
* What has happened *during* the span between an event that opens it and one that ends
  it (`History.during`).

All are read off the whole history and all are kept up one event at a time; the lemmas
below are the rules for one more event, and for a batch of events that are all alike.
-/

namespace History

variable {ε : Type} {log : List ε}

/-- Where an event occurs in a history that has just grown by one. -/
theorem append_singleton_eq_append_cons {before after : List ε} {e x : ε} :
    log ++ [e] = before ++ x :: after ↔
      (log = before ∧ e = x ∧ after = []) ∨
        ∃ rest, after = rest ++ [e] ∧ log = before ++ x :: rest := by
  constructor
  · intro h
    rcases List.eq_nil_or_concat' after with rfl | ⟨rest, last, rfl⟩
    · exact .inl ⟨List.append_inj_left' h rfl, List.singleton_inj.mp (List.append_inj_right' h rfl),
        rfl⟩
    · rw [← List.cons_append, ← List.append_assoc] at h
      obtain rfl : e = last := List.singleton_inj.mp (List.append_inj_right' h rfl)
      exact .inr ⟨rest, rfl, List.append_inj_left' h rfl⟩
  · rintro (⟨rfl, rfl, rfl⟩ | ⟨rest, rfl, rfl⟩)
    · rfl
    · simp

/-! ### Since -/

section Since

variable {on off : ε → Prop}

/-- An event that is `on` has happened, and none that is `off` since. -/
def Since (on off : ε → Prop) (log : List ε) : Prop :=
  ∃ before e after, log = before ++ e :: after ∧ on e ∧ ∀ x ∈ after, ¬off x

theorem not_since_nil : ¬Since on off [] := by
  rintro ⟨before, e, after, h, -⟩
  exact List.append_ne_nil_of_right_ne_nil before (List.cons_ne_nil e after) h.symm

theorem exists_mem_of_since (h : Since on off log) : ∃ e ∈ log, on e := by
  obtain ⟨before, e, after, rfl, he, -⟩ := h
  exact ⟨e, by simp, he⟩

/-- **One more event** switches it on, or leaves it on by not switching it off. -/
theorem since_append_singleton {e : ε} :
    Since on off (log ++ [e]) ↔ on e ∨ Since on off log ∧ ¬off e := by
  constructor
  · rintro ⟨before, x, after, hlog, hx, hafter⟩
    rcases append_singleton_eq_append_cons.mp hlog with ⟨-, rfl, -⟩ | ⟨rest, rfl, rfl⟩
    · exact .inl hx
    · exact .inr ⟨⟨before, x, rest, rfl, hx, fun y hy => hafter y (List.mem_append_left _ hy)⟩,
        hafter e (by simp)⟩
  · rintro (he | ⟨⟨before, x, after, rfl, hx, hafter⟩, he⟩)
    · exact ⟨log, e, [], rfl, he, nofun⟩
    · refine ⟨before, x, after ++ [e], by simp, hx, fun y hy => ?_⟩
      rcases List.mem_append.mp hy with hy | hy
      · exact hafter y hy
      · exact List.mem_singleton.mp hy ▸ he

/-- Events none of which switches it on leave it on where none of them switches it off. -/
theorem since_append {es : List ε} (h : ∀ e ∈ es, ¬on e) :
    Since on off (log ++ es) ↔ Since on off log ∧ ∀ e ∈ es, ¬off e := by
  induction es using List.reverseRecOn with
  | nil => simp
  | append_singleton es e ih =>
    rw [← List.append_assoc, since_append_singleton,
      ih fun x hx => h x (List.mem_append_left _ hx), or_iff_right (h e (by simp)), and_assoc]
    simp [or_imp, forall_and]

end Since

/-! ### Legality -/

section Legal

variable {P Q : List ε → ε → Prop}

/-- Every event of the history satisfied `P` when it happened. -/
def Legal (P : List ε → ε → Prop) (log : List ε) : Prop :=
  ∀ before e after, log = before ++ e :: after → P before e

theorem legal_nil : Legal P [] := by
  intro before e after h
  exact absurd h.symm (List.append_ne_nil_of_right_ne_nil before (List.cons_ne_nil e after))

/-- **One more event** has to be legal where it happens. -/
theorem legal_append_singleton {e : ε} : Legal P (log ++ [e]) ↔ Legal P log ∧ P log e := by
  constructor
  · intro h
    refine ⟨fun before x after hlog => ?_, h log e [] rfl⟩
    exact h before x (after ++ [e]) (by rw [hlog, List.append_assoc, List.cons_append])
  · rintro ⟨hlog, he⟩ before x after h
    rcases append_singleton_eq_append_cons.mp h with ⟨rfl, rfl, -⟩ | ⟨rest, -, rfl⟩
    · exact he
    · exact hlog before x rest rfl

/-- Events that are legal in every history that extends the present one. -/
theorem legal_append {es : List ε} (hlog : Legal P log)
    (hes : ∀ e ∈ es, ∀ more, P (log ++ more) e) : Legal P (log ++ es) := by
  induction es using List.reverseRecOn with
  | nil => rwa [List.append_nil]
  | append_singleton es e ih =>
    rw [← List.append_assoc, legal_append_singleton]
    exact ⟨ih fun x hx => hes x (List.mem_append_left _ hx), hes e (by simp) es⟩

/-- At most one event of the history is of the kind. -/
def Once (on : ε → Prop) : List ε → Prop := Legal fun before e => on e → ∀ x ∈ before, ¬on x

theorem Once.split {on : ε → Prop} {before after : List ε} {e : ε}
    (h : Once on (before ++ e :: after)) (he : on e) :
    (∀ x ∈ before, ¬on x) ∧ ∀ x ∈ after, ¬on x := by
  refine ⟨h before e after rfl he, fun x hx hon => ?_⟩
  obtain ⟨mid, rest, rfl⟩ := List.append_of_mem hx
  exact h (before ++ e :: mid) x rest (by simp) hon e (by simp) he

end Legal

/-! ### During -/

section During

variable {on off : ε → Prop} [DecidablePred on] [DecidablePred off]

/-- What happens after the first event that is `on`, up to the first that is `off`. -/
def during (on off : ε → Prop) [DecidablePred on] [DecidablePred off] : List ε → List ε
  | [] => []
  | e :: log => if on e then log.takeWhile fun x => !decide (off x) else during on off log

theorem during_of_forall_not (h : ∀ x ∈ log, ¬on x) : during on off log = [] := by
  induction log with
  | nil => rfl
  | cons e log ih =>
    rw [during, if_neg (h e List.mem_cons_self)]
    exact ih fun x hx => h x (List.mem_cons_of_mem _ hx)

theorem during_split {before after : List ε} {e : ε} (h : ∀ x ∈ before, ¬on x) (he : on e) :
    during on off (before ++ e :: after) = after.takeWhile fun x => !decide (off x) := by
  induction before with
  | nil => rw [List.nil_append, during, if_pos he]
  | cons x before ih =>
    rw [List.cons_append, during, if_neg (h x List.mem_cons_self)]
    exact ih fun y hy => h y (List.mem_cons_of_mem _ hy)

/-- A span is looked for from the first event on that may open it. -/
theorem during_append_of_forall_not {before after : List ε} (h : ∀ x ∈ before, ¬on x) :
    during on off (before ++ after) = during on off after := by
  induction before with
  | nil => rfl
  | cons x before ih =>
    rw [List.cons_append, during, if_neg (h x List.mem_cons_self)]
    exact ih fun y hy => h y (List.mem_cons_of_mem _ hy)

/-- A span has no gaps. -/
theorem during_infix : during on off log <:+: log := by
  induction log with
  | nil => exact List.infix_rfl
  | cons x log ih =>
    rw [during]
    split
    · exact (List.takeWhile_prefix _).isInfix.trans (List.suffix_cons x log).isInfix
    · exact ih.trans (List.suffix_cons x log).isInfix

/-- **One more event** falls in the span if it is open and the event does not end it. -/
theorem during_append_singleton {e : ε} [Decidable (Since on off log ∧ ¬off e)]
    (honce : Once on (log ++ [e])) :
    during on off (log ++ [e])
      = if Since on off log ∧ ¬off e then during on off log ++ [e] else during on off log := by
  by_cases hex : ∃ x ∈ log, on x
  · -- the span has been opened, and by one event only
    obtain ⟨x, hx, hon⟩ := hex
    obtain ⟨before, after, rfl⟩ := List.append_of_mem hx
    rw [List.append_assoc, List.cons_append] at honce ⊢
    obtain ⟨hbefore, hafter⟩ := honce.split hon
    have hsince : Since on off (before ++ x :: after) ↔ ∀ y ∈ after, ¬off y := by
      rw [← List.singleton_append, ← List.append_assoc,
        since_append fun y hy => hafter y (List.mem_append_left _ hy), since_append_singleton]
      exact and_iff_right (.inl hon)
    simp only [during_split hbefore hon, hsince]
    by_cases hall : ∀ y ∈ after, ¬off y
    · have hpos : ∀ y ∈ after, !decide (off y) := fun y hy => by simpa using hall y hy
      rw [List.takeWhile_append_of_pos hpos, List.takeWhile_eq_self_iff.mpr hpos]
      by_cases hoff : off e
      · simp [hoff]
      · rw [if_pos ⟨hall, hoff⟩]
        simp [hoff]
    · -- it has been ended already: what comes after it does not matter
      rw [if_neg fun h => hall h.1, List.takeWhile_append, if_neg]
      intro hlength
      have hspan := (List.takeWhile_prefix fun y => !decide (off y)).eq_of_length hlength
      refine hall fun y hy => ?_
      simpa using List.takeWhile_eq_self_iff.mp hspan y hy
  · -- the event may open the span, with nothing in it yet
    have hnone : ∀ x ∈ log, ¬on x := fun x hx hon => hex ⟨x, hx, hon⟩
    rw [if_neg fun h => hex (exists_mem_of_since h.1), during_of_forall_not hnone]
    by_cases hon : on e
    · rw [during_split hnone hon, List.takeWhile_nil]
    · refine during_of_forall_not fun x hx => ?_
      rcases List.mem_append.mp hx with hx | hx
      · exact hnone x hx
      · exact List.mem_singleton.mp hx ▸ hon

/-- The span is a matter of the events that bound it, and of those looked for in it. -/
theorem during_filter {c : ε → Prop} [DecidablePred c] (hon : ∀ x, on x → c x)
    (hoff : ∀ x, off x → c x) :
    during on off (log.filter fun x => c x) = (during on off log).filter fun x => c x := by
  have hpast : (fun x => !decide (c x) || !decide (off x)) = fun x => !decide (off x) := by
    funext x
    by_cases hx : off x
    · simp [hx, hoff x hx]
    · simp [hx]
  induction log with
  | nil => rfl
  | cons x log ih =>
    by_cases hx : on x
    · rw [List.filter_cons_of_pos (by simpa using hon x hx), during, during, if_pos hx, if_pos hx,
        List.takeWhile_filter, hpast]
    · rw [during, if_neg hx, ← ih]
      by_cases hc : c x
      · rw [List.filter_cons_of_pos (by simpa using hc), during, if_neg hx]
      · rw [List.filter_cons_of_neg (by simpa using hc)]

end During

end History
