import Mathlib.Data.List.Basic
import Mathlib.Data.Option.Basic

/-!
# Runs of a step function

A system is given by what its actions do: `step s a` is the state action `a` leads to
from `s`, `none` where the action is not enabled. An interleaving of several parties is
a list of their actions; `Lts.run` is the state it leads to, `none` where some action of
it is not enabled when its turn comes. A property of every state a system can reach is
a property of the end of every run, and is proved one step at a time
(`Lts.run_invariant`).
-/

namespace Lts

variable {σ α : Type} (step : σ → α → Option σ)

/-- The state a list of actions leads to. -/
def run : List α → σ → Option σ
  | [], s => some s
  | a :: as, s => (step s a).bind (run as)

variable {step} {s s' : σ} {as bs : List α}

@[simp] theorem run_nil : run step [] s = some s := rfl

theorem run_cons {a : α} (h : step s a = some s') : run step (a :: as) s = run step as s' := by
  rw [run, h]
  rfl

/-- A run of one more action takes that step. -/
theorem exists_of_run_cons {a : α} {t : σ} (h : run step (a :: as) s = some t) :
    ∃ s', step s a = some s' ∧ run step as s' = some t :=
  Option.bind_eq_some_iff.mp h

theorem run_append : run step (as ++ bs) s = (run step as s).bind (run step bs) := by
  induction as generalizing s with
  | nil => rfl
  | cons a as ih =>
    rw [List.cons_append, run, run, Option.bind_assoc]
    exact Option.bind_congr fun s' _ => ih

/-- **A system that takes the steps of another one runs as that one does.** -/
theorem run_map {τ β : Type} {step' : τ → β → Option τ} (f : σ → τ) (g : α → β)
    (h : ∀ a ∈ as, ∀ s, step' (f s) (g a) = (step s a).map f) (s : σ) :
    run step' (as.map g) (f s) = (run step as s).map f := by
  induction as generalizing s with
  | nil => rfl
  | cons a as ih =>
    rw [List.map_cons, run, run, h a List.mem_cons_self s, Option.bind_map, Option.map_bind]
    exact Option.bind_congr fun s' _ => ih (fun b hb => h b (List.mem_cons_of_mem a hb)) s'

/-- **What every step keeps, every run keeps**: an invariant that the steps by actions of
a kind preserve holds at the end of every run of such actions. -/
theorem run_invariant {I : σ → Prop} {P : α → Prop}
    (hstep : ∀ s a s', I s → P a → step s a = some s' → I s') (hs : I s) (hP : ∀ a ∈ as, P a)
    (h : run step as s = some s') : I s' := by
  induction as generalizing s with
  | nil => exact Option.some.inj h ▸ hs
  | cons a as ih =>
    obtain ⟨t, ht, hrest⟩ := exists_of_run_cons h
    exact ih (hstep s a t hs (hP a List.mem_cons_self) ht)
      (fun b hb => hP b (List.mem_cons_of_mem _ hb)) hrest

end Lts
