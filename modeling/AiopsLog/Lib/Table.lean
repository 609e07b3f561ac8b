import Mathlib.Algebra.BigOperators.Group.List.Basic
import Mathlib.Data.List.Basic
import Mathlib.Data.List.Nodup

/-!
# Keyed tables and transactions

A table is the list of its rows, in insertion order. Two statements write a table
under a unique key:

* `Sql.insertOrIgnore` – `INSERT … ON CONFLICT DO NOTHING`;
* `Sql.upsert` – `INSERT … ON CONFLICT (key) DO UPDATE SET …`, where `merge old new`
  is the row the update leaves.

Where the merge adds, in some additive monoid the rows have a value in, a table keeps
running totals: `Sql.total_upsertAll` says that upserting a batch of rows adds the
total of the batch to the total of the table, key by key.

A `Sql.Txn` is an open transaction: the table as it was when the transaction began,
the table as its statements have left it, and whether a statement has failed. The
two things to know about it are that a failed transaction refuses every later
statement, and that committing it is rolling it back.

A loop that inserts rows one by one, each statement in a `try` of its own, therefore
does not isolate them: `Sql.Txn.gainedExactly_insertEach_iff` says that what is
committed, and what is counted, are the accepted rows exactly where all of them are
accepted, or none.
-/

namespace Sql

variable {ρ κ : Type}

/-! ### Statements under a unique key -/

section Keyed

variable [DecidableEq κ] (key : ρ → κ)

/-- The row of a table under a key. -/
def lookup (k : κ) (table : List ρ) : Option ρ := table.find? (key · = k)

/-- `INSERT … ON CONFLICT DO NOTHING`. -/
def insertOrIgnore (row : ρ) (table : List ρ) : List ρ :=
  if key row ∈ table.map key then table else table ++ [row]

/-- `INSERT … ON CONFLICT (key) DO UPDATE`: the row under the key is replaced by
`merge old new`; where there is none the new row is appended. -/
def upsert (merge : ρ → ρ → ρ) (row : ρ) : List ρ → List ρ
  | [] => [row]
  | r :: table => if key r = key row then merge r row :: table else r :: upsert merge row table

variable {key} {merge : ρ → ρ → ρ} {row : ρ} {table : List ρ} {k : κ}

theorem insertOrIgnore_of_fresh (h : key row ∉ table.map key) :
    insertOrIgnore key row table = table ++ [row] :=
  if_neg h

/-- A key beyond those of the table is fresh. -/
theorem insertOrIgnore_of_lt [Preorder κ] (h : ∀ r ∈ table, key r < key row) :
    insertOrIgnore key row table = table ++ [row] := by
  refine insertOrIgnore_of_fresh fun hmem => ?_
  obtain ⟨r, hr, hkey⟩ := List.mem_map.mp hmem
  exact (h r hr).ne hkey

theorem lookup_eq_none_iff : lookup key k table = none ↔ k ∉ table.map key := by
  simp [lookup, List.find?_eq_none]

theorem lookup_eq_some_iff (hnd : (table.map key).Nodup) :
    lookup key k table = some row ↔ row ∈ table ∧ key row = k := by
  constructor
  · intro h
    exact ⟨List.mem_of_find?_eq_some h, by simpa using List.find?_some h⟩
  · rintro ⟨hmem, rfl⟩
    cases hr : lookup key (key row) table with
    | none => exact absurd (List.mem_map_of_mem hmem) (lookup_eq_none_iff.mp hr)
    | some r =>
      have hkey : key r = key row := by simpa using List.find?_some hr
      exact congrArg some (List.inj_on_of_nodup_map hnd (List.mem_of_find?_eq_some hr) hmem hkey)

/-- An upsert leaves the other keys alone. -/
theorem lookup_upsert_of_ne (hmerge : ∀ r x, key (merge r x) = key r) (h : k ≠ key row) :
    lookup key k (upsert key merge row table) = lookup key k table := by
  induction table with
  | nil => simp [lookup, upsert, h.symm]
  | cons r table ih =>
    by_cases hr : key r = key row
    · have hne : key r ≠ k := fun hc => h (hc.symm.trans hr)
      simp [lookup, upsert, hr, hmerge, h.symm]
    · by_cases hk : key r = k <;> simp_all [lookup, upsert]

/-- What an upsert leaves under its own key: the new row where there was none, and
the merge of the two where there was one. -/
theorem lookup_upsert_self (hmerge : ∀ r x, key (merge r x) = key r) :
    lookup key (key row) (upsert key merge row table)
      = some (((lookup key (key row) table).map (merge · row)).getD row) := by
  induction table with
  | nil => simp [lookup, upsert]
  | cons r table ih =>
    by_cases hr : key r = key row
    · simp [lookup, upsert, hr, hmerge]
    · simpa [lookup, upsert, hr] using ih

theorem map_key_upsert (hmerge : ∀ r x, key (merge r x) = key r) :
    (upsert key merge row table).map key
      = if key row ∈ table.map key then table.map key else table.map key ++ [key row] := by
  induction table with
  | nil => simp [upsert]
  | cons r table ih =>
    by_cases hr : key r = key row
    · simp [upsert, hr, hmerge]
    · rw [upsert, if_neg hr, List.map_cons, ih, List.map_cons]
      by_cases hmem : key row ∈ table.map key
      · rw [if_pos hmem, if_pos (List.mem_cons_of_mem _ hmem)]
      · rw [if_neg hmem, if_neg (by simp only [List.mem_cons, not_or]; exact ⟨Ne.symm hr, hmem⟩),
          List.cons_append]

/-- **An upsert keeps the key unique.** -/
theorem nodup_upsert (hmerge : ∀ r x, key (merge r x) = key r) (h : (table.map key).Nodup) :
    ((upsert key merge row table).map key).Nodup := by
  rw [map_key_upsert hmerge]
  split
  · exact h
  · next hmem => exact List.nodup_append.mpr ⟨h, List.nodup_singleton _, by
      rintro a ha b hb rfl
      exact hmem (List.mem_singleton.mp hb ▸ ha)⟩

/-! ### Batches of upserts -/

variable (key) in
/-- Upsert the rows of a batch, one after the other. -/
def upsertAll (merge : ρ → ρ → ρ) (rows table : List ρ) : List ρ :=
  rows.foldl (fun table row => upsert key merge row table) table

variable {rows : List ρ}

theorem nodup_upsertAll (hmerge : ∀ r x, key (merge r x) = key r) (h : (table.map key).Nodup) :
    ((upsertAll key merge rows table).map key).Nodup := by
  induction rows generalizing table with
  | nil => exact h
  | cons row rows ih => exact ih (nodup_upsert hmerge h)

theorem mem_keys_upsertAll (hmerge : ∀ r x, key (merge r x) = key r) :
    k ∈ (upsertAll key merge rows table).map key ↔ k ∈ table.map key ∨ k ∈ rows.map key := by
  induction rows generalizing table with
  | nil => simp [upsertAll]
  | cons row rows ih =>
    have hstep : k ∈ (upsert key merge row table).map key ↔ k ∈ table.map key ∨ k = key row := by
      rw [map_key_upsert hmerge]
      split
      · next hmem => exact ⟨Or.inl, fun h => h.elim id fun h => h ▸ hmem⟩
      · rw [List.mem_append, List.mem_singleton]
    have hrest : k ∈ (upsertAll key merge (row :: rows) table).map key
        ↔ k ∈ (upsert key merge row table).map key ∨ k ∈ rows.map key := ih
    rw [hrest, hstep, List.map_cons, List.mem_cons, or_assoc]

/-- **What a batch of upserts leaves under a key**, where no two of its rows share
one: the merge with the row of the batch, if there is one. -/
theorem lookup_upsertAll (hmerge : ∀ r x, key (merge r x) = key r) (hnd : (rows.map key).Nodup) :
    lookup key k (upsertAll key merge rows table) = match lookup key k rows with
      | some row => some (((lookup key k table).map (merge · row)).getD row)
      | none => lookup key k table := by
  induction rows generalizing table with
  | nil => rfl
  | cons row rows ih =>
    obtain ⟨hrow, hnd⟩ := List.nodup_cons.mp hnd
    have hrest : lookup key k (upsertAll key merge (row :: rows) table)
        = lookup key k (upsertAll key merge rows (upsert key merge row table)) := rfl
    rw [hrest, ih hnd]
    by_cases hk : key row = k
    · -- no later row of the batch has the key, so the first upsert decides
      subst hk
      have hnone : lookup key (key row) rows = none := lookup_eq_none_iff.mpr hrow
      have hself : lookup key (key row) (row :: rows) = some row := by simp [lookup]
      rw [hnone, hself]
      exact lookup_upsert_self hmerge
    · have htail : lookup key k (row :: rows) = lookup key k rows := by simp [lookup, hk]
      rw [htail, lookup_upsert_of_ne hmerge (Ne.symm hk)]

/-! ### Running totals -/

variable {M : Type} [AddCommMonoid M] (key) (value : ρ → M)

/-- The value of the row under a key, nothing where there is none. -/
def total (k : κ) (table : List ρ) : M := ((lookup key k table).map value).getD 0

variable {key value}

/-- The total under a key adds up the rows carrying it. -/
theorem total_eq_sum (hnd : (rows.map key).Nodup) :
    total key value k rows = ((rows.filter (key · = k)).map value).sum := by
  induction rows with
  | nil => rfl
  | cons row rows ih =>
    obtain ⟨hrow, hnd⟩ := List.nodup_cons.mp hnd
    by_cases hk : key row = k
    · subst hk
      have hnone : rows.filter (fun r => key r = key row) = [] := by
        refine List.filter_eq_nil_iff.mpr fun r hr hkey => ?_
        have hkey : key r = key row := by simpa using hkey
        exact hrow (hkey ▸ List.mem_map_of_mem hr)
      simp [total, lookup, hnone]
    · have htail : total key value k (row :: rows) = total key value k rows := by
        simp [total, lookup, hk]
      rw [htail, ih hnd]
      simp [hk]

/-- **A batch of upserts adds its totals to the table's.** -/
theorem total_upsertAll (hmerge : ∀ r x, key (merge r x) = key r)
    (hvalue : ∀ r x, value (merge r x) = value r + value x) (hnd : (rows.map key).Nodup) :
    total key value k (upsertAll key merge rows table)
      = total key value k table + total key value k rows := by
  rw [total, lookup_upsertAll hmerge hnd, total, total]
  rcases hrow : lookup key k rows with _ | row
  · simp
  · rcases lookup key k table with _ | r <;> simp [hvalue]

end Keyed

/-! ### Tables that only grow -/

/-- The table has only been appended to, with rows that are as they should be. -/
def Extends (good : ρ → Prop) (table table' : List ρ) : Prop :=
  ∃ added, table' = table ++ added ∧ ∀ r ∈ added, good r

namespace Extends

variable {good good' : ρ → Prop} {table table' table'' : List ρ}

theorem refl : Extends good table table :=
  ⟨[], (List.append_nil table).symm, fun _ h => absurd h List.not_mem_nil⟩

theorem append {added : List ρ} (h : ∀ r ∈ added, good r) : Extends good table (table ++ added) :=
  ⟨added, rfl, h⟩

theorem trans (h : Extends good table table') (h' : Extends good table' table'') :
    Extends good table table'' := by
  obtain ⟨added, rfl, hadded⟩ := h
  obtain ⟨added', rfl, hadded'⟩ := h'
  refine ⟨added ++ added', List.append_assoc _ _ _, fun r hr => ?_⟩
  exact (List.mem_append.mp hr).elim (hadded r) (hadded' r)

theorem mono (h : Extends good table table') (himp : ∀ r, good r → good' r) :
    Extends good' table table' := by
  obtain ⟨added, htable, hadded⟩ := h
  exact ⟨added, htable, fun r hr => himp r (hadded r hr)⟩

theorem insertOrIgnore [DecidableEq κ] {key : ρ → κ} {row : ρ} (h : good row) :
    Extends good table (insertOrIgnore key row table) := by
  rw [Sql.insertOrIgnore]
  split
  · exact refl
  · exact append fun r hr => List.mem_singleton.mp hr ▸ h

end Extends

/-! ### Transactions -/

/-- An open transaction on a table of type `τ`. -/
structure Txn (τ : Type) where
  base : τ
  work : τ
  failed : Bool

namespace Txn

variable {τ : Type}

/-- The transaction that begins on a table. -/
def start (table : τ) : Txn τ := ⟨table, table, false⟩

/-- Execute a statement, which the server may reject (`none`): a rejected statement
fails the transaction, and a failed transaction rejects every statement. The answer
says whether the statement was accepted. -/
def execute (stmt : τ → Option τ) (txn : Txn τ) : Bool × Txn τ :=
  if txn.failed then (false, txn)
  else match stmt txn.work with
    | some work => (true, { txn with work := work })
    | none => (false, { txn with failed := true })

/-- `COMMIT`, which rolls a failed transaction back. -/
def commit (txn : Txn τ) : τ := if txn.failed then txn.base else txn.work

/-! ### Inserting rows one by one -/

section InsertEach

variable [DecidableEq κ] (key : ρ → κ)

/-- Insert rows one after the other, each statement in its own `try`, and count the
statements that are accepted. A row the server would reject is `none`. -/
def insertEach : List (Option ρ) → Txn (List ρ) × ℕ → Txn (List ρ) × ℕ
  | [], acc => acc
  | row :: rows, (txn, inserted) =>
    let (accepted, txn) := txn.execute fun table => row.map (insertOrIgnore key · table)
    insertEach rows (txn, if accepted then inserted + 1 else inserted)

/-- **What a loop is to do for its rows**: the table gains the rows that are not
rejected, once each, and as many are reported. -/
def GainedExactly (rows : List (Option ρ)) (table table' : List ρ) (reported : ℕ) : Prop :=
  ∃ gained, table' = table ++ gained ∧ gained.Perm (rows.filterMap id) ∧ reported = gained.length

variable {key} {rows : List (Option ρ)} {base work table : List ρ} {n : ℕ}

/-- A failed transaction stays as it is. -/
theorem insertEach_of_failed :
    insertEach key rows (⟨base, work, true⟩, n) = (⟨base, work, true⟩, n) := by
  induction rows with
  | nil => rfl
  | cons row rows ih =>
    rw [insertEach, execute, if_pos rfl]
    exact ih

/-- The base of a transaction does not change. -/
theorem base_insertEach (txn : Txn (List ρ)) :
    (insertEach key rows (txn, n)).1.base = txn.base := by
  induction rows generalizing txn n with
  | nil => rfl
  | cons row rows ih =>
    rw [insertEach, ih, execute]
    split
    · rfl
    · split <;> rfl

/-- **One rejected row fails the transaction**, wherever it stands. -/
theorem failed_insertEach (h : none ∈ rows) (txn : Txn (List ρ)) :
    (insertEach key rows (txn, n)).1.failed = true := by
  induction rows generalizing txn n with
  | nil => exact absurd h List.not_mem_nil
  | cons row rows ih =>
    obtain ⟨base, work, _ | _⟩ := txn
    · rcases row with _ | row
      · -- from here on the transaction stays failed
        have hrest : insertEach key rows (⟨base, work, true⟩, n) = (⟨base, work, true⟩, n) :=
          insertEach_of_failed
        exact congrArg (fun acc : Txn (List ρ) × ℕ => acc.1.failed) hrest
      · refine ih ?_ _
        rcases List.mem_cons.mp h with heq | hmem
        · exact nomatch heq
        · exact hmem
    · rw [insertEach_of_failed]

/-- The rows of a loop are all it can add, committed or not. -/
theorem extends_insertEach {good : ρ → Prop} (hgood : ∀ r, some r ∈ rows → good r)
    (txn : Txn (List ρ)) : Extends good txn.work (insertEach key rows (txn, n)).1.work := by
  induction rows generalizing txn n with
  | nil => exact Extends.refl
  | cons row rows ih =>
    have hrest := fun r hr => hgood r (List.mem_cons_of_mem _ hr)
    obtain ⟨base, work, _ | _⟩ := txn
    · rcases row with _ | row
      · exact ih hrest ⟨base, work, true⟩
      · exact (Extends.insertOrIgnore (hgood row List.mem_cons_self)).trans (ih hrest _)
    · rw [insertEach_of_failed]
      exact Extends.refl

/-- What a loop adds to a table is some of its rows. -/
theorem extends_commit_insertEach {good : ρ → Prop} (hgood : ∀ r, some r ∈ rows → good r) :
    Extends good table (insertEach key rows (start table, n)).1.commit := by
  rw [commit]
  split
  · rw [base_insertEach]
    exact Extends.refl
  · exact extends_insertEach hgood (start table)

/-- What is counted: the rows before the first rejected one. -/
theorem inserted_insertEach :
    (insertEach key rows (⟨base, work, false⟩, n)).2 = n + (rows.takeWhile (·.isSome)).length := by
  induction rows generalizing work n with
  | nil => rfl
  | cons row rows ih =>
    rw [insertEach, execute, if_neg Bool.false_ne_true]
    rcases row with _ | row
    · exact congrArg Prod.snd insertEach_of_failed
    · refine ih.trans ?_
      rw [if_pos rfl, List.takeWhile_cons_of_pos rfl, List.length_cons]
      omega

/-- Rows with new keys, none of them rejected, are appended. -/
theorem insertEach_map_some {accepted : List ρ} (hnd : (accepted.map key).Nodup)
    (hnew : ∀ r ∈ accepted, key r ∉ work.map key) :
    insertEach key (accepted.map some) (⟨base, work, false⟩, n)
      = (⟨base, work ++ accepted, false⟩, n + accepted.length) := by
  induction accepted generalizing work n with
  | nil => rw [List.append_nil]; rfl
  | cons row accepted ih =>
    rw [List.map_cons, List.nodup_cons] at hnd
    have hrow : insertOrIgnore key row work = work ++ [row] :=
      insertOrIgnore_of_fresh (hnew row List.mem_cons_self)
    have hstep : insertEach key ((row :: accepted).map some) (⟨base, work, false⟩, n)
        = insertEach key (accepted.map some) (⟨base, work ++ [row], false⟩, n + 1) := by
      rw [← hrow]
      rfl
    rw [hstep, ih hnd.2, List.append_assoc, List.singleton_append, List.length_cons]
    · rw [Nat.add_assoc, Nat.add_comm 1]
    · intro r hr hmem
      rw [List.map_append, List.mem_append] at hmem
      rcases hmem with hmem | hmem
      · exact hnew r (List.mem_cons_of_mem _ hr) hmem
      · have hkey : key r = key row := List.mem_singleton.mp hmem
        exact hnd.1 (hkey ▸ List.mem_map_of_mem hr)

theorem map_some_filterMap_id (h : none ∉ rows) : (rows.filterMap id).map some = rows := by
  induction rows with
  | nil => rfl
  | cons row rows ih =>
    rw [List.mem_cons, not_or] at h
    rcases row with _ | row
    · exact absurd rfl h.1
    · exact congrArg (some row :: ·) (ih h.2)

/-- **When a loop isolates its rows**: all of them have to be accepted, or none. A single
rejected row takes the accepted ones with it, before it and after it. -/
theorem gainedExactly_insertEach_iff (hnd : ((rows.filterMap id).map key).Nodup)
    (hnew : ∀ r ∈ rows.filterMap id, key r ∉ table.map key) :
    GainedExactly rows table (insertEach key rows (start table, 0)).1.commit
        (insertEach key rows (start table, 0)).2
      ↔ none ∉ rows ∨ ∀ row ∈ rows, row = none := by
  by_cases hrejected : none ∈ rows
  · have hcommit : (insertEach key rows (start table, 0)).1.commit = table := by
      rw [commit, if_pos (failed_insertEach hrejected _), base_insertEach, start]
    rw [hcommit, start, inserted_insertEach, or_iff_right (not_not_intro hrejected)]
    constructor
    · -- the table has gained nothing, so there was nothing to gain
      rintro ⟨gained, htable, hperm, -⟩
      have hnil : gained = [] := by simpa using htable
      rw [hnil] at hperm
      exact List.filterMap_eq_nil_iff.mp hperm.nil_eq.symm
    · intro hall
      have hnone : rows.filterMap id = [] := List.filterMap_eq_nil_iff.mpr hall
      refine ⟨[], (List.append_nil table).symm, by rw [hnone], ?_⟩
      rcases rows with _ | ⟨row, rows⟩
      · rfl
      · rw [hall row List.mem_cons_self]
        rfl
  · refine iff_of_true ?_ (Or.inl hrejected)
    have hsome := map_some_filterMap_id hrejected
    refine ⟨rows.filterMap id, ?_, List.Perm.refl _, ?_⟩
    · rw [← hsome, start, insertEach_map_some hnd hnew, hsome]
      rfl
    · rw [← hsome, start, insertEach_map_some hnd hnew, hsome, Nat.zero_add]

end InsertEach

end Txn

end Sql
