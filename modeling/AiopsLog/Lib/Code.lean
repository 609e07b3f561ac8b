import Mathlib.Algebra.Order.Ring.Rat
import Mathlib.Data.Nat.Cast.Order.Ring
import Mathlib.Data.Rat.Lemmas
import Mathlib.Logic.Basic
import Mathlib.Tactic.Common

/-!
# Code that can raise, and code whose run stops

A block of Python code over a state `σ` is a function from the state it starts in to
the way it ends and the state it leaves. There are three ways to end
(`Py.Ending`): it returns, it raises, or the run *halts* inside it – the interpreter
is killed, or the schedule under consideration ends while the code is suspended. A
halted run is not an exception: no `except` clause sees it and no `finally` clause
runs. It is what lets one statement speak of every prefix of a run.

Exceptions are of two kinds (`Py.Exn`), because one thing about them matters:
`except Exception` catches the instances of `Exception` and lets a
`CancelledError` – a `BaseException` – through.

The program logic is one predicate, `Py.Ensures P c Q`: from a state satisfying `P`
the code `c` ends as `Q` says, `Q` speaking of the ending and of the state left.
There is one rule for each construct, and one for each loop.
-/

namespace Py

variable {σ α β : Type}

/-! ### Endings -/

/-- The exceptions of a run, by the `except` clause that catches them. -/
inductive Exn where
  /-- An instance of `Exception`. -/
  | error : Exn
  /-- A `CancelledError`, which `except Exception` does not catch. -/
  | cancelled : Exn
  deriving DecidableEq, Repr

/-- How a block of code ends. -/
inductive Ending (α : Type) where
  /-- It returns a value. -/
  | done : α → Ending α
  /-- It raises. -/
  | raised : Exn → Ending α
  /-- The run stops inside it. -/
  | halted : Ending α
  deriving DecidableEq, Repr

theorem Ending.halted_ne_done {a : α} : (Ending.halted : Ending α) ≠ .done a := by
  intro h
  cases h

/-- A block of code over the state `σ` with a value in `α`. -/
def Code (σ α : Type) := σ → Ending α × σ

namespace Code

/-! ### The constructs -/

instance : Monad (Code σ) where
  pure a := fun s => (.done a, s)
  bind c f := fun s => match c s with
    | (.done a, s') => f a s'
    | (.raised e, s') => (.raised e, s')
    | (.halted, s') => (.halted, s')

/-- `raise`. -/
def raise (e : Exn) : Code σ α := fun s => (.raised e, s)

/-- The run stops here. -/
def halt : Code σ α := fun s => (.halted, s)

/-- Read the state. -/
def read (f : σ → α) : Code σ α := fun s => (.done (f s), s)

/-- Change the state. -/
def update (f : σ → σ) : Code σ Unit := fun s => (.done (), f s)

/-- `try: body` with `except` clauses: `handler e` is the clause that catches `e`, if
there is one. -/
def tryExcept (body : Code σ α) (handler : Exn → Option (Code σ α)) : Code σ α := fun s =>
  match body s with
  | (.raised e, s') => match handler e with
    | some clause => clause s'
    | none => (.raised e, s')
  | end_ => end_

/-- `try: body` / `except Exception: clause`. -/
def exceptException (body clause : Code σ α) : Code σ α :=
  tryExcept body fun
    | .error => some clause
    | .cancelled => none

/-- `try: body` / `finally: final`. An exception in `final` replaces the one in
flight. -/
def tryFinally (body : Code σ α) (final : Code σ Unit) : Code σ α := fun s =>
  match body s with
  | (.done a, s') => (do final; pure a) s'
  | (.raised e, s') => (do final; raise e) s'
  | (.halted, s') => (.halted, s')

/-- `for x in xs: body x`. -/
def forEach (body : β → Code σ Unit) : List β → Code σ Unit
  | [] => pure ()
  | x :: xs => do body x; forEach body xs

/-- Whether a loop body falls through to the next iteration or breaks. -/
inductive Flow where
  /-- On to the next iteration. -/
  | again : Flow
  /-- `break`. -/
  | stop : Flow
  deriving DecidableEq, Repr

/-- `while True: body`, watched for `n` iterations: the run halts when they are over. -/
def whileTrue (body : Code σ Flow) : ℕ → Code σ Unit
  | 0 => halt
  | n + 1 => do
    match ← body with
    | .again => whileTrue body n
    | .stop => pure ()

/-! ### What the constructs compute -/

section Apply

variable {s s' : σ} {c : Code σ α} {f : α → Code σ β} {e : Exn}

@[simp] theorem pure_apply (a : α) : (pure a : Code σ α) s = (.done a, s) := rfl

@[simp] theorem raise_apply : (raise e : Code σ α) s = (.raised e, s) := rfl

@[simp] theorem halt_apply : (halt : Code σ α) s = (.halted, s) := rfl

@[simp] theorem read_apply (g : σ → α) : read g s = (.done (g s), s) := rfl

@[simp] theorem update_apply (g : σ → σ) : update g s = (.done (), g s) := rfl

theorem bind_apply : (c >>= f) s = match c s with
    | (.done a, s') => f a s'
    | (.raised e, s') => (.raised e, s')
    | (.halted, s') => (.halted, s') := rfl

theorem bind_done {a : α} (h : c s = (.done a, s')) : (c >>= f) s = f a s' := by
  rw [bind_apply, h]

theorem bind_raised (h : c s = (.raised e, s')) : (c >>= f) s = (.raised e, s') := by
  rw [bind_apply, h]

theorem bind_halted (h : c s = (.halted, s')) : (c >>= f) s = (.halted, s') := by
  rw [bind_apply, h]

/-- A block whose value is dropped for the value it has anyway. -/
@[simp] theorem bind_pure_unit (c : Code σ Unit) : (c >>= fun _ => pure ()) = c := by
  funext s
  rw [bind_apply]
  rcases c s with ⟨_ | _ | _, s'⟩ <;> rfl

theorem tryExcept_done {handler : Exn → Option (Code σ α)} {a : α} (h : c s = (.done a, s')) :
    tryExcept c handler s = (.done a, s') := by
  rw [tryExcept, h]

theorem tryExcept_halted {handler : Exn → Option (Code σ α)} (h : c s = (.halted, s')) :
    tryExcept c handler s = (.halted, s') := by
  rw [tryExcept, h]

theorem exceptException_done {clause : Code σ α} {a : α} (h : c s = (.done a, s')) :
    exceptException c clause s = (.done a, s') :=
  tryExcept_done h

theorem exceptException_error {clause : Code σ α} (h : c s = (.raised .error, s')) :
    exceptException c clause s = clause s' := by
  rw [exceptException, tryExcept, h]

theorem exceptException_halted {clause : Code σ α} (h : c s = (.halted, s')) :
    exceptException c clause s = (.halted, s') :=
  tryExcept_halted h

/-- A block that does not return leaves the state to no one. -/
theorem bind_snd_of_ne_done (h : ∀ a, (c s).1 ≠ .done a) : ((c >>= f) s).2 = (c s).2 := by
  rw [bind_apply]
  rcases hc : c s with ⟨a | _ | _, s'⟩
  · rw [hc] at h
    exact absurd rfl (h a)
  · rfl
  · rfl

/-- Dropping an exception does not touch the state. -/
theorem exceptException_pure_snd (c : Code σ Unit) (s : σ) :
    (exceptException c (pure ()) s).2 = (c s).2 := by
  rw [exceptException, tryExcept]
  rcases c s with ⟨_ | (_ | _) | _, s'⟩ <;> rfl

/-- A loop whose iterations all return composes what they compute. -/
theorem forEach_done {body : β → Code σ Unit} {effect : β → σ → σ} {xs : List β}
    (h : ∀ x ∈ xs, ∀ s, body x s = (.done (), effect x s)) (s : σ) :
    forEach body xs s = (.done (), xs.foldl (fun s x => effect x s) s) := by
  induction xs generalizing s with
  | nil => rfl
  | cons x xs ih =>
    rw [forEach, bind_done (h x List.mem_cons_self s)]
    exact ih (fun y hy => h y (List.mem_cons_of_mem _ hy)) _

/-- A loop halts where its first iteration that does not return halts. -/
theorem forEach_halted {body : β → Code σ Unit} {effect : β → σ → σ} {xs ys : List β} {y : β}
    (h : ∀ x ∈ xs, ∀ s, body x s = (.done (), effect x s)) (hy : ∀ s, body y s = (.halted, s))
    (s : σ) :
    forEach body (xs ++ y :: ys) s = (.halted, xs.foldl (fun s x => effect x s) s) := by
  induction xs generalizing s with
  | nil => exact bind_halted (hy s)
  | cons x xs ih =>
    rw [List.cons_append, forEach, bind_done (h x List.mem_cons_self s)]
    exact ih (fun z hz => h z (List.mem_cons_of_mem _ hz)) _

end Apply

end Code

/-! ### The program logic -/

/-- **From a state satisfying `P` the code ends as `Q` says.** -/
def Ensures (P : σ → Prop) (c : Code σ α) (Q : Ending α → σ → Prop) : Prop :=
  ∀ s, P s → Q (c s).1 (c s).2

namespace Ensures

variable {P P' I : σ → Prop} {Q Q' : Ending α → σ → Prop} {R : Ending β → σ → Prop}
  {c : Code σ α}

theorem weaken (h : Ensures P c Q) (hP : ∀ s, P' s → P s) (hQ : ∀ e s, Q e s → Q' e s) :
    Ensures P' c Q' :=
  fun s hs => hQ _ _ (h s (hP s hs))

theorem pure {a : α} (h : ∀ s, P s → Q (.done a) s) : Ensures P (Pure.pure a) Q := h

theorem raise {e : Exn} (h : ∀ s, P s → Q (.raised e) s) : Ensures P (Code.raise e) Q := h

theorem halt (h : ∀ s, P s → Q .halted s) : Ensures P (Code.halt : Code σ α) Q := h

theorem read {f : σ → α} (h : ∀ s, P s → Q (.done (f s)) s) : Ensures P (Code.read f) Q := h

theorem update {f : σ → σ} {Q : Ending Unit → σ → Prop} (h : ∀ s, P s → Q (.done ()) (f s)) :
    Ensures P (Code.update f) Q := h

/-- **Sequencing**: what the first block ends with is either handed on or final. -/
theorem bind {f : α → Code σ β} (hc : Ensures P c Q)
    (hraised : ∀ e s, Q (.raised e) s → R (.raised e) s) (hhalted : ∀ s, Q .halted s → R .halted s)
    (hf : ∀ a, Ensures (fun s => Q (.done a) s) (f a) R) : Ensures P (c >>= f) R := by
  intro s hs
  have h := hc s hs
  rw [Code.bind_apply]
  rcases hcs : c s with ⟨a | e | _, s'⟩ <;> rw [hcs] at h
  · exact hf a s' h
  · exact hraised e s' h
  · exact hhalted s' h

/-- Blocks that return, one after the other. -/
theorem returns_bind {J K : σ → Prop} {c d : Code σ Unit}
    (hc : Ensures P c fun e s => e = .done () ∧ J s)
    (hd : Ensures J d fun e s => e = .done () ∧ K s) :
    Ensures P (do c; d) fun e s => e = .done () ∧ K s :=
  hc.bind (fun _ _ h => nomatch h.1) (fun _ h => nomatch h.1)
    fun _ => hd.weaken (fun _ h => h.2) fun _ _ h => h

/-- **`except`**: the clause that catches an exception takes over from it. -/
theorem tryExcept {handler : Exn → Option (Code σ α)} (hc : Ensures P c Q)
    (hdone : ∀ a s, Q (.done a) s → Q' (.done a) s) (hhalted : ∀ s, Q .halted s → Q' .halted s)
    (hraised : ∀ e, Ensures (fun s => Q (.raised e) s) ((handler e).getD (Code.raise e)) Q') :
    Ensures P (Code.tryExcept c handler) Q' := by
  intro s hs
  have h := hc s hs
  rw [Code.tryExcept]
  rcases hcs : c s with ⟨a | e | _, s'⟩ <;> rw [hcs] at h
  · exact hdone a s' h
  · have hclause := hraised e s' h
    cases hhandler : handler e with
    | none =>
      rw [hhandler] at hclause
      simp only [hhandler]
      exact hclause
    | some clause =>
      rw [hhandler] at hclause
      simp only [hhandler]
      exact hclause
  · exact hhalted s' h

/-- **`except Exception`**: the clause takes over from an error. -/
theorem exceptException {clause : Code σ α} (hc : Ensures P c Q)
    (hdone : ∀ a s, Q (.done a) s → Q' (.done a) s) (hhalted : ∀ s, Q .halted s → Q' .halted s)
    (hcancelled : ∀ s, Q (.raised .cancelled) s → Q' (.raised .cancelled) s)
    (hclause : Ensures (fun s => Q (.raised .error) s) clause Q') :
    Ensures P (Code.exceptException c clause) Q' := by
  refine tryExcept hc hdone hhalted fun e => ?_
  cases e with
  | error => exact hclause
  | cancelled => exact hcancelled

/-- **`finally`**: the final block runs whether the body returned or raised. -/
theorem tryFinally {final : Code σ Unit} {F : Ending α → σ → Prop} (hc : Ensures P c Q)
    (hhalted : ∀ s, Q .halted s → F .halted s)
    (hdone : ∀ a, Ensures (fun s => Q (.done a) s) (do final; Pure.pure a) F)
    (hraised : ∀ e, Ensures (fun s => Q (.raised e) s) (do final; Code.raise e) F) :
    Ensures P (Code.tryFinally c final) F := by
  intro s hs
  have h := hc s hs
  rw [Code.tryFinally]
  rcases hcs : c s with ⟨a | e | _, s'⟩ <;> rw [hcs] at h
  · exact hdone a s' h
  · exact hraised e s' h
  · exact hhalted s' h

/-- **`for`**: an invariant each iteration keeps, whatever ends the loop. -/
theorem forEach {body : β → Code σ Unit} {Q : Ending Unit → σ → Prop}
    (hbody : ∀ x, Ensures I (body x) fun e s => match e with
      | .done _ => I s
      | e => Q e s)
    (hdone : ∀ s, I s → Q (.done ()) s) : ∀ xs, Ensures I (Code.forEach body xs) Q
  | [] => pure hdone
  | x :: xs => by
    refine bind (hbody x) (fun _ _ h => h) (fun _ h => h) fun _ => ?_
    exact forEach hbody hdone xs

/-- **`while True`**: an invariant each iteration keeps. -/
theorem whileTrue {body : Code σ Code.Flow} {Q : Ending Unit → σ → Prop}
    (hbody : Ensures I body fun e s => match e with
      | .done .again => I s
      | .done .stop => Q (.done ()) s
      | .raised x => Q (.raised x) s
      | .halted => Q .halted s)
    (hwatched : ∀ s, I s → Q .halted s) : ∀ n, Ensures I (Code.whileTrue body n) Q
  | 0 => halt hwatched
  | n + 1 => by
    refine bind hbody (fun _ _ h => h) (fun _ h => h) fun a => ?_
    cases a with
    | again => exact whileTrue hbody hwatched n
    | stop => exact fun _ h => h

end Ensures

/-! ### Code that only raises errors

Under an environment that kills nothing and cancels nothing, a block either returns or
raises an `Exception`, and one `except Exception` around it makes it return. -/

/-- The ending of code that has returned or raised an error. -/
def Ending.Mild : Ending α → Prop
  | .done _ => True
  | .raised e => e = .error
  | .halted => False

/-- The code keeps an assertion, and returns or raises an error. -/
def Mild (I : σ → Prop) (c : Code σ α) : Prop := Ensures I c fun e s => e.Mild ∧ I s

namespace Mild

variable {I : σ → Prop} {c : Code σ α}

theorem pure {a : α} : Mild I (Pure.pure a) := Ensures.pure fun _ h => ⟨trivial, h⟩

theorem raise : Mild I (Code.raise .error : Code σ α) := Ensures.raise fun _ h => ⟨rfl, h⟩

theorem read {f : σ → α} : Mild I (Code.read f) := Ensures.read fun _ h => ⟨trivial, h⟩

theorem update {f : σ → σ} (h : ∀ s, I s → I (f s)) : Mild I (Code.update f) :=
  Ensures.update fun s hs => ⟨trivial, h s hs⟩

theorem bind {f : α → Code σ β} (hc : Mild I c) (hf : ∀ a, Mild I (f a)) : Mild I (c >>= f) :=
  Ensures.bind hc (fun _ _ h => h) (fun _ h => h.1.elim) fun a s h => hf a s h.2

/-- **A mild block in its own `try` returns.** -/
theorem exceptException_returns {c : Code σ Unit} (hc : Mild I c) :
    Ensures I (Code.exceptException c (Pure.pure ())) fun e s => e = .done () ∧ I s :=
  Ensures.exceptException hc (fun _ _ h => ⟨rfl, h.2⟩) (fun _ h => h.1.elim)
    (fun _ h => nomatch h.1) fun _ h => ⟨rfl, h.2⟩

/-- What is read is read of a state satisfying the assertion. -/
theorem read_bind {f : σ → α} {g : α → Code σ β} (h : ∀ s, I s → Mild I (g (f s))) :
    Mild I (Code.read f >>= g) :=
  fun s hs => h s hs s hs

theorem exceptException_clause {clause : Code σ α} (hc : Mild I c) (hclause : Mild I clause) :
    Mild I (Code.exceptException c clause) :=
  Ensures.exceptException hc (fun _ _ h => h) (fun _ h => h.1.elim) (fun _ h => nomatch h.1)
    (hclause.weaken (fun _ h => h.2) fun _ _ h => h)

theorem exceptException {c : Code σ Unit} (hc : Mild I c) :
    Mild I (Code.exceptException c (Pure.pure ())) :=
  (exceptException_returns hc).weaken (fun _ h => h) fun _ _ h => ⟨h.1 ▸ trivial, h.2⟩

end Mild

/-! ### Assertions that outlive every ending

Where the run can be killed anywhere, what is known of the state afterwards is what the code
keeps, however it ends. -/

/-- The code keeps an assertion, however it ends. -/
def Keeps (I : σ → Prop) (c : Code σ α) : Prop := Ensures I c fun _ s => I s

namespace Keeps

variable {I : σ → Prop} {c : Code σ α}

theorem pure {a : α} : Keeps I (Pure.pure a) := Ensures.pure fun _ h => h

theorem raise {e : Exn} : Keeps I (Code.raise e : Code σ α) := Ensures.raise fun _ h => h

theorem halt : Keeps I (Code.halt : Code σ α) := Ensures.halt fun _ h => h

theorem read {f : σ → α} : Keeps I (Code.read f) := Ensures.read fun _ h => h

theorem update {f : σ → σ} (h : ∀ s, I s → I (f s)) : Keeps I (Code.update f) := Ensures.update h

theorem bind {f : α → Code σ β} (hc : Keeps I c) (hf : ∀ a, Keeps I (f a)) : Keeps I (c >>= f) :=
  Ensures.bind hc (fun _ _ h => h) (fun _ h => h) hf

theorem exceptException {clause : Code σ α} (hc : Keeps I c) (hclause : Keeps I clause) :
    Keeps I (Code.exceptException c clause) :=
  Ensures.exceptException hc (fun _ _ h => h) (fun _ h => h) (fun _ h => h) hclause

theorem tryFinally {final : Code σ Unit} (hc : Keeps I c) (hfinal : Keeps I final) :
    Keeps I (Code.tryFinally c final) :=
  Ensures.tryFinally hc (fun _ h => h) (fun _ => hfinal.bind fun _ => pure) fun _ =>
    hfinal.bind fun _ => raise

theorem forEach {body : β → Code σ Unit} (h : ∀ x, Keeps I (body x)) (xs : List β) :
    Keeps I (Code.forEach body xs) := by
  refine Ensures.forEach (fun x => (h x).weaken (fun _ hs => hs) fun e s hs => ?_)
    (fun _ hs => hs) xs
  cases e with
  | done | raised | halted => exact hs

theorem whileTrue {body : Code σ Code.Flow} (h : Keeps I body) (n : ℕ) :
    Keeps I (Code.whileTrue body n) := by
  refine Ensures.whileTrue (h.weaken (fun _ hs => hs) fun e s hs => ?_) (fun _ hs => hs) n
  rcases e with (_ | _) | _ | _ <;> exact hs

end Keeps

/-! ### Divisions -/

/-- Python's `/`; none where it raises `ZeroDivisionError`. -/
def divide (a b : ℚ) : Option ℚ := if b = 0 then none else some (a / b)

theorem divide_of_ne {a b : ℚ} (h : b ≠ 0) : divide a b = some (a / b) := if_neg h

/-- A division that is guarded by its denominator being positive does not raise. -/
theorem guarded_divide {a b : ℚ} : (if b > 0 then divide a b else some 0)
    = some (if b > 0 then a / b else 0) := by
  split
  · next h => exact divide_of_ne h.ne'
  · rfl

theorem guarded_divide_nat {a : ℚ} {n : ℕ} : (if n > 0 then divide a n else some 0)
    = some (if n > 0 then a / n else 0) := by
  have h := guarded_divide (a := a) (b := n)
  simpa only [gt_iff_lt, Nat.cast_pos] using h

end Py
