import Mathlib.Algebra.BigOperators.Group.List.Basic
import Mathlib.Data.List.Dedup
import Mathlib.Data.List.Perm.Basic
import Mathlib.Data.List.Perm.Lattice

/-!
# Grouping a bag of rows

A data frame is a list of rows whose order means nothing. `Bag.groupBy` splits it
by a key: one group for each key that occurs, and in each group the rows carrying
that key.

Every aggregate a grouping computes here is the sum of a value over the rows of
the group, in some additive commutative monoid – a count, a count of the rows
satisfying a condition, a maximum. The one fact needed about all of them is
`Bag.sum_groupBy_filter`: adding up the aggregates of the groups whose key satisfies a
condition gives the aggregate of the rows whose key does. It is what makes a second
grouping, by a coarser key, agree with grouping once.
-/

namespace Bag

variable {α κ M : Type}

/-! ### The groups -/

section Groups

variable [DecidableEq κ]

/-- The groups of a bag: each key that occurs, with the rows carrying it. -/
def groupBy (key : α → κ) (rows : List α) : List (κ × List α) :=
  (rows.map key).dedup.map fun k => (k, rows.filter (key · = k))

variable {key : α → κ} {rows : List α}

theorem map_fst_groupBy : (groupBy key rows).map Prod.fst = (rows.map key).dedup := by
  rw [groupBy, List.map_map]
  exact List.map_id _

/-- No key has two groups. -/
theorem nodup_keys_groupBy : ((groupBy key rows).map Prod.fst).Nodup := by
  rw [map_fst_groupBy]
  exact List.nodup_dedup _

theorem mem_groupBy {g : κ × List α} :
    g ∈ groupBy key rows ↔ (∃ r ∈ rows, key r = g.1) ∧ g.2 = rows.filter (key · = g.1) := by
  simp only [groupBy, List.mem_map, List.mem_dedup]
  constructor
  · rintro ⟨k, hk, rfl⟩
    exact ⟨hk, rfl⟩
  · rintro ⟨hk, hg⟩
    exact ⟨g.1, hk, Prod.ext rfl hg.symm⟩

@[simp] theorem groupBy_nil : groupBy key [] = [] := rfl

theorem groupBy_eq_nil : groupBy key rows = [] ↔ rows = [] := by
  cases rows with
  | nil => exact iff_of_true rfl rfl
  | cons r rows =>
    refine iff_of_false (fun h => ?_) (List.cons_ne_nil r rows)
    have hmem : (key r, (r :: rows).filter (key · = key r)) ∈ groupBy key (r :: rows) :=
      mem_groupBy.mpr ⟨⟨r, List.mem_cons_self, rfl⟩, rfl⟩
    rw [h] at hmem
    exact List.not_mem_nil hmem

variable (key) in
/-- A row of the bag has a group. -/
theorem exists_mem_groupBy {r : α} (h : r ∈ rows) : ∃ g ∈ groupBy key rows, g.1 = key r :=
  ⟨(key r, rows.filter (key · = key r)), mem_groupBy.mpr ⟨⟨r, h, rfl⟩, rfl⟩, rfl⟩

/-- A table with one entry for each group has only keys that occur. -/
theorem exists_of_mem_map_groupBy {β : Type} {entry : κ × List α → κ × β}
    (hentry : ∀ g, (entry g).1 = g.1) {x : κ × β} (hx : x ∈ (groupBy key rows).map entry) :
    ∃ r ∈ rows, key r = x.1 := by
  obtain ⟨g, hg, rfl⟩ := List.mem_map.mp hx
  rw [hentry]
  exact (mem_groupBy.mp hg).1

end Groups

/-! ### Aggregates of the groups -/

section Sums

variable [DecidableEq κ] [AddCommMonoid M]

/-- Of a list of distinct keys, only the one that equals `k` contributes. -/
theorem sum_ite_eq_of_nodup {ks : List κ} (hnd : ks.Nodup) (k : κ) (a : M) :
    (ks.map fun k' => if k = k' then a else 0).sum = if k ∈ ks then a else 0 := by
  induction ks with
  | nil => simp
  | cons k₀ ks ih =>
    obtain ⟨hk₀, hnd⟩ := List.nodup_cons.mp hnd
    rw [List.map_cons, List.sum_cons, ih hnd]
    by_cases h : k = k₀
    · have hk : k ∉ ks := h ▸ hk₀
      simp [h, h ▸ hk]
    · simp [h]

/-- Splitting a bag along a list of distinct keys that covers it loses nothing. -/
theorem sum_filter_keys (key : α → κ) (f : α → M) {ks : List κ} (hnd : ks.Nodup) (rows : List α) :
    (ks.map fun k => ((rows.filter (key · = k)).map f).sum).sum
      = ((rows.filter (key · ∈ ks)).map f).sum := by
  induction rows with
  | nil => simp
  | cons r rows ih =>
    -- the row contributes under its own key and under no other
    have hstep : ∀ k, (((r :: rows).filter (key · = k)).map f).sum
        = (if key r = k then f r else 0) + ((rows.filter (key · = k)).map f).sum := by
      intro k
      by_cases h : key r = k <;> simp [h]
    rw [List.map_congr_left fun k _ => hstep k, List.sum_map_add, ih, sum_ite_eq_of_nodup hnd]
    by_cases h : key r ∈ ks <;> simp [h]

/-- **Aggregating the groups aggregates the bag**, on the keys a condition selects:
the aggregates of the selected groups add up to the aggregate of the rows whose key
is selected. -/
theorem sum_groupBy_filter (key : α → κ) (f : α → M) (p : κ → Bool) (rows : List α) :
    (((groupBy key rows).filter fun g => p g.1).map fun g => (g.2.map f).sum).sum
      = ((rows.filter fun r => p (key r)).map f).sum := by
  have hfilter : (groupBy key rows).filter (fun g => p g.1)
      = ((rows.map key).dedup.filter p).map fun k => (k, rows.filter (key · = k)) := by
    rw [groupBy, List.filter_map]
    rfl
  rw [hfilter, List.map_map]
  have hkeys := sum_filter_keys key f ((List.nodup_dedup (rows.map key)).filter p) rows
  refine hkeys.trans ?_
  congr 2
  refine List.filter_congr fun r hr => ?_
  have hmem : key r ∈ rows.map key := List.mem_map_of_mem hr
  simp only [List.mem_filter, List.mem_dedup, hmem, true_and, Bool.decide_eq_true]

end Sums

end Bag
