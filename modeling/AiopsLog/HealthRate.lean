import AiopsLog.Health

/-!
# The rate next to the totals

A row of `component_health` carries an error rate and a status next to its totals. The
totals accumulate; the rate and the status are overwritten by each batch with those of
the batch alone. So the rate describes the rows of the last committed batch in which
the component occurs (`AiopsLog.lastRows`), and it describes the totals exactly where
these rows are, to two decimals, as anomalous as all the rows together
(`AiopsLog.rateLaw_iff`).
-/

namespace AiopsLog

open Py Py.Code

/-- **The stored rate and status describe the stored totals.** -/
def RateLaw (table : List HealthRow) : Prop :=
  ∀ h ∈ table, 0 < h.totalEvents →
    h.errorRatePct = some (errorRate h.totalAnomalies h.totalEvents) ∧
      h.status = statusOf (errorRate h.totalAnomalies h.totalEvents)

/-- **A rate is a percentage**, as long as no more anomalies are counted than events. -/
theorem errorRate_mem {totalAn totalEv : ℕ} (h : totalAn ≤ totalEv) :
    0 ≤ errorRate totalAn totalEv ∧ errorRate totalAn totalEv ≤ 100 := by
  rw [errorRate]
  split
  · next hpos =>
    have hpercent : (totalAn / totalEv * 100 : ℚ) = 100 * totalAn / totalEv := by
      rw [mul_comm, mul_div_assoc]
    rw [hpercent]
    exact Rounding.percentage_mem Rounding.rounds_halfEven hpos h
  · exact ⟨le_rfl, by norm_num⟩

/-- The error rate of some rows. -/
def rateOf (rows : List ProcessedRow) : ℚ := errorRate (rows.map (·.isAnomaly)).sum rows.length

/-- The rows of a component in the last batch in which it occurs. -/
def lastRows (c : String) (batches : List (List ProcessedRow)) : List ProcessedRow :=
  (((batches.map (rowsOf c)).filter fun rows => !rows.isEmpty).getLast?).getD []

section Last

variable {c : String} {df : List ProcessedRow} {batches : List (List ProcessedRow)}

theorem rowsOf_eq_nil : rowsOf c df = [] ↔ ∀ row ∈ df, row.component ≠ c := by
  rw [rowsOf, List.filter_eq_nil_iff]
  simp

theorem lastRows_append_of_absent (h : rowsOf c df = []) :
    lastRows c (batches ++ [df]) = lastRows c batches := by
  simp [lastRows, h]

theorem lastRows_append_of_present (h : rowsOf c df ≠ []) :
    lastRows c (batches ++ [df]) = rowsOf c df := by
  simp [lastRows, h]

/-- The row a batch proposes for a component that occurs in it. -/
theorem lookup_proposedRows (h : rowsOf c df ≠ []) :
    Sql.lookup HealthRow.component c (proposedRows df) = some (healthRow
      ⟨c, (rowsOf c df).length, ((rowsOf c df).map (·.isAnomaly)).sum,
        Nullable.maximum ((rowsOf c df).map (·.eventTime))⟩) := by
  refine (Sql.lookup_eq_some_iff (nodup_proposedRows df)).mpr ⟨?_, rfl⟩
  refine List.mem_map_of_mem
    (List.mem_map.mpr ⟨(c, rowsOf c df), Bag.mem_groupBy.mpr ⟨?_, rfl⟩, rfl⟩)
  obtain ⟨row, hrow⟩ := List.exists_mem_of_ne_nil _ h
  obtain ⟨hmem, hc⟩ := List.mem_filter.mp hrow
  exact ⟨row, hmem, by simpa using hc⟩

/-- A batch in which a component occurs overwrites its rate and its status. -/
theorem lookup_upsertBatch_of_present (h : rowsOf c df ≠ []) (table : List HealthRow) :
    ∃ row, Sql.lookup HealthRow.component c (upsertBatch df table) = some row ∧
      row.errorRatePct = some (rateOf (rowsOf c df)) ∧
      row.status = statusOf (rateOf (rowsOf c df)) := by
  rw [upsertBatch_eq, Sql.lookup_upsertAll component_mergeHealth (nodup_proposedRows df),
    lookup_proposedRows h]
  refine ⟨_, rfl, ?_⟩
  rcases Sql.lookup HealthRow.component c table with _ | stored <;> exact ⟨rfl, rfl⟩

/-- **The stored rate and status are those of the last batch with the component.** -/
theorem lookup_upsertBatches_rate (h : rowsOf c batches.flatten ≠ []) :
    ∃ row, Sql.lookup HealthRow.component c (upsertBatches batches) = some row ∧
      row.errorRatePct = some (rateOf (lastRows c batches)) ∧
      row.status = statusOf (rateOf (lastRows c batches)) := by
  induction batches using List.reverseRecOn with
  | nil => exact absurd rfl h
  | append_singleton batches df ih =>
    rw [upsertBatches_append]
    by_cases hdf : rowsOf c df = []
    · -- the batch leaves the row alone, and the component's last rows are earlier ones
      rw [lookup_upsertBatch_of_absent (rowsOf_eq_nil.mp hdf), lastRows_append_of_absent hdf]
      refine ih fun hnil => h ?_
      have hsplit : rowsOf c (batches ++ [df]).flatten
          = rowsOf c batches.flatten ++ rowsOf c df := by
        rw [List.flatten_append, List.flatten_singleton, rowsOf, List.filter_append]
        rfl
      rw [hsplit, hnil, hdf, List.append_nil]
    · rw [lastRows_append_of_present hdf]
      exact lookup_upsertBatch_of_present hdf _

end Last

/-- **When the rate describes the totals**: after any run of calls, the stored rates and
statuses are those of the stored totals if and only if, for every component that has
been committed, the rows of the last batch with the component have the same rate as
all its rows. -/
theorem rateLaw_iff (calls : List HealthCall) :
    RateLaw (healthAfter calls) ↔ ∀ c, rowsOf c (committedRows calls) ≠ [] →
      rateOf (lastRows c (committedBatches calls)) = rateOf (rowsOf c (committedRows calls)) := by
  have htable : healthAfter calls = upsertBatches (committedBatches calls) := healthAfter_eq calls
  rw [htable, committedRows]
  generalize committedBatches calls = batches
  have hrate : ∀ h ∈ upsertBatches batches, errorRate h.totalAnomalies h.totalEvents
      = rateOf (rowsOf h.component batches.flatten) := by
    intro h hmem
    rw [totalEvents_of_mem hmem, totalAnomalies_of_mem hmem, rateOf]
  constructor
  · intro hlaw c hc
    obtain ⟨row, hlookup, hstored, -⟩ := lookup_upsertBatches_rate hc
    obtain ⟨hmem, hkey⟩ := (Sql.lookup_eq_some_iff (nodup_upsertBatches batches)).mp hlookup
    have hpos : 0 < row.totalEvents := by
      rw [totalEvents_of_mem hmem, hkey]
      exact List.length_pos_of_ne_nil hc
    have hlawRow := (hlaw row hmem hpos).1
    rw [hstored, hrate row hmem, hkey] at hlawRow
    exact Option.some.inj hlawRow
  · intro hall h hmem hpos
    have hc : rowsOf h.component batches.flatten ≠ [] := by
      rw [totalEvents_of_mem hmem] at hpos
      exact List.ne_nil_of_length_pos hpos
    obtain ⟨row, hlookup, hstored, hstatus⟩ := lookup_upsertBatches_rate hc
    obtain rfl : row = h := by
      have hself := (Sql.lookup_eq_some_iff (nodup_upsertBatches batches)).mpr ⟨hmem, rfl⟩
      exact Option.some.inj (hlookup.symm.trans hself)
    rw [hrate row hmem, hstored, hstatus, hall _ hc]
    exact ⟨rfl, rfl⟩

/-! ### Two batches of one row

The first batch has one anomalous row of a component, the second one row that is not. -/

/-- A call with one row, which is anomalous or not. -/
def oneRowCall (component : String) (cluster : ℕ) : HealthCall :=
  ⟨Env.serving, [processedRow 1 (bareRow component) cluster],
    scored_map 1 [(bareRow component, cluster)]⟩

/-- **A component half of whose rows are anomalous is stored as healthy.** -/
theorem not_rateLaw_two_batches :
    ¬RateLaw (healthAfter [oneRowCall "KERNEL" 1, oneRowCall "KERNEL" 0]) := by
  intro hlaw
  have hrow : Sql.lookup HealthRow.component "KERNEL"
      (healthAfter [oneRowCall "KERNEL" 1, oneRowCall "KERNEL" 0])
      = some ⟨"KERNEL", 2, 1, some (errorRate 0 1), none, statusOf (errorRate 0 1)⟩ := rfl
  have hrate := (hlaw _ (List.mem_of_find?_eq_some hrow) Nat.two_pos).1
  have hne : errorRate 0 1 ≠ errorRate 1 2 := by
    norm_num [errorRate, Rounding.toDigits, Rounding.halfEven]
  exact hne (Option.some.inj hrate)

end AiopsLog
