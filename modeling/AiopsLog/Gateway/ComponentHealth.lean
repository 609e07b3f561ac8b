import AiopsLog.Gateway.MetricsSummary
import AiopsLog.HealthRate

/-!
# `GET /api/v1/health/components`

The heat map of the components: the rows of `component_health`, those with the most
anomalies first. The table is kept up by the streaming job, batch by batch, from the five
components that are seeded; what the answer says of the rows committed so far is read off
that (`AiopsLog.getComponentHealth_current`).

The endpoint has a sibling, `GET /api/v1/metrics/summary`, which answers from a table that is
written by another statement of the same batches. Where the two have taken up the same rows,
they tell the same of a component: its daily entries in the one add up to its totals in the
other (`AiopsLog.healthTotals_eq_sum_summary`).
-/

namespace AiopsLog

/-! ### The endpoint -/

/-- An entry of the answer. -/
structure ComponentHealth where
  component : String
  totalEvents : ℕ
  totalAnomalies : ℕ
  errorRatePct : Option ℚ
  lastSeen : Option String
  status : Status
  deriving DecidableEq

/-- `ORDER BY total_anomalies DESC`. -/
def HealthGe (a b : HealthRow) : Prop := b.totalAnomalies ≤ a.totalAnomalies

instance : DecidableRel HealthGe := fun _ _ => inferInstanceAs (Decidable (_ ≤ _))

/-- One way to sort an answer. -/
def byAnomalies : OrderBy HealthGe :=
  OrderBy.ofTotal HealthGe (fun _ _ _ hab hbc => Nat.le_trans hbc hab) fun _ _ => Nat.le_total _ _

/-- The `SELECT` list; `text` is `last_seen::text`. -/
def HealthRow.select (text : Timestamp → String) (row : HealthRow) : ComponentHealth where
  component := row.component
  totalEvents := row.totalEvents
  totalAnomalies := row.totalAnomalies
  errorRatePct := row.errorRatePct
  lastSeen := row.lastSeen.map text
  status := row.status

/-- `get_component_health`, with a pool on a database that holds some table. -/
def getComponentHealth (text : Timestamp → String) (order : OrderBy HealthGe)
    (dbPool : Option (List HealthRow)) : Except HTTPException (List ComponentHealth) :=
  match dbPool with
  | none => .error ⟨503, "Database unavailable"⟩
  | some table => .ok ((order.sort table).map (HealthRow.select text))

/-! ### The stored rates -/

section Rates

variable {batches : List (List ProcessedRow)}

theorem mem_of_mem_lastRows {c : String} {row : ProcessedRow} (h : row ∈ lastRows c batches) :
    row ∈ batches.flatten := by
  rw [lastRows] at h
  rcases hlast : ((batches.map (rowsOf c)).filter fun rows => !rows.isEmpty).getLast? with _ | rows
  · rw [hlast] at h
    exact absurd h List.not_mem_nil
  · rw [hlast] at h
    have hrows := List.mem_of_mem_filter (List.mem_of_getLast? hlast)
    obtain ⟨df, hdf, rfl⟩ := List.mem_map.mp hrows
    exact List.mem_flatten.mpr ⟨df, hdf, List.mem_of_mem_filter h⟩

/-- The rate of scored rows is a percentage. -/
theorem rateOf_mem {rows : List ProcessedRow} (h : Scored rows) :
    0 ≤ rateOf rows ∧ rateOf rows ≤ 100 := by
  refine errorRate_mem ?_
  rw [sum_isAnomaly h]
  exact List.countP_le_length

/-- A row is either as it was seeded, or has a percentage and the status that goes with
it. -/
def HealthRow.Rated (row : HealthRow) : Prop :=
  row.totalEvents = 0 ∧ row.errorRatePct = none ∧ row.status = .unknown ∨
    0 < row.totalEvents ∧ ∃ rate, row.errorRatePct = some rate ∧ 0 ≤ rate ∧ rate ≤ 100 ∧
      row.status = statusOf rate

/-- **Every stored row is rated.** -/
theorem rated_of_mem (hscored : Scored batches.flatten) {row : HealthRow}
    (hmem : row ∈ upsertBatches batches) : row.Rated := by
  have hself := (Sql.lookup_eq_some_iff (nodup_upsertBatches batches)).mpr ⟨hmem, rfl⟩
  by_cases hrows : rowsOf row.component batches.flatten = []
  · -- the component has never been committed: the row is its seed
    rw [lookup_upsertBatches_of_absent batches (rowsOf_eq_nil.mp hrows)] at hself
    have hseed := List.mem_of_find?_eq_some hself
    obtain ⟨c, -, rfl⟩ := List.mem_map.mp hseed
    exact Or.inl ⟨rfl, rfl, rfl⟩
  · obtain ⟨stored, hlookup, hrate, hstatus⟩ := lookup_upsertBatches_rate hrows
    obtain rfl : row = stored := Option.some.inj (hself.symm.trans hlookup)
    have hlast : Scored (lastRows row.component batches) := fun r hr =>
      hscored r (mem_of_mem_lastRows hr)
    refine Or.inr ⟨?_, _, hrate, (rateOf_mem hlast).1, (rateOf_mem hlast).2, hstatus⟩
    rw [totalEvents_of_mem hmem]
    exact List.length_pos_of_ne_nil hrows

end Rates

/-! ### The answer -/

/-- **What the answer says of the rows committed so far**: an entry for each component that
is seeded or occurs, in descending order of the anomalies, with its counts, its latest time,
and a rate and a status that go together. -/
structure Portrays (text : Timestamp → String) (rows : List ProcessedRow)
    (answer : List ComponentHealth) : Prop where
  nodup : (answer.map (·.component)).Nodup
  present : ∀ c, c ∈ answer.map (·.component) ↔
    c ∈ seededHealth.map (·.component) ∨ ∃ row ∈ rows, row.component = c
  ordered : answer.Pairwise fun entry later => later.totalAnomalies ≤ entry.totalAnomalies
  totalEvents : ∀ entry ∈ answer, entry.totalEvents = rows.countP (·.component = entry.component)
  totalAnomalies : ∀ entry ∈ answer, entry.totalAnomalies
    = rows.countP fun row => row.component = entry.component ∧ row.isAnomaly = 1
  lastSeen : ∀ entry ∈ answer, entry.lastSeen
    = (Nullable.maximum ((rowsOf entry.component rows).map (·.eventTime))).map text
  rated : ∀ entry ∈ answer,
    entry.totalEvents = 0 ∧ entry.errorRatePct = none ∧ entry.status = .unknown ∨
      0 < entry.totalEvents ∧ ∃ rate, entry.errorRatePct = some rate ∧ 0 ≤ rate ∧ rate ≤ 100 ∧
        entry.status = statusOf rate

section Answer

variable {text : Timestamp → String}

theorem map_component_select (rows : List HealthRow) :
    (rows.map (HealthRow.select text)).map (·.component) = rows.map (·.component) := by
  rw [List.map_map]
  rfl

theorem portrays_select (order : OrderBy HealthGe) (calls : List HealthCall) :
    Portrays text (committedRows calls)
      ((order.sort (healthAfter calls)).map (HealthRow.select text)) := by
  have hscored : Scored (committedBatches calls).flatten := scored_committedRows calls
  have haccumulates := accumulates_upsertBatches hscored
  have htable : healthAfter calls = upsertBatches (committedBatches calls) := healthAfter_eq calls
  rw [htable, committedRows]
  generalize committedBatches calls = batches at hscored haccumulates ⊢
  have hperm := (order.perm (upsertBatches batches)).map HealthRow.component
  have hentry : ∀ entry ∈ (order.sort (upsertBatches batches)).map (HealthRow.select text),
      ∃ row ∈ upsertBatches batches, row.select text = entry := by
    intro entry hmem
    obtain ⟨row, hrow, rfl⟩ := List.mem_map.mp hmem
    exact ⟨row, order.mem_sort.mp hrow, rfl⟩
  refine ⟨?_, fun c => ?_, ?_, fun entry hmem => ?_, fun entry hmem => ?_, fun entry hmem => ?_,
    fun entry hmem => ?_⟩
  · rw [map_component_select]
    exact hperm.nodup_iff.mpr haccumulates.nodup
  · rw [map_component_select, hperm.mem_iff]
    exact haccumulates.present c
  · exact List.pairwise_map.mpr (order.sorted _)
  · obtain ⟨row, hrow, rfl⟩ := hentry entry hmem
    exact haccumulates.totalEvents row hrow
  · obtain ⟨row, hrow, rfl⟩ := hentry entry hmem
    exact haccumulates.totalAnomalies row hrow
  · obtain ⟨row, hrow, rfl⟩ := hentry entry hmem
    exact congrArg (Option.map text) (lastSeen_of_mem hrow)
  · obtain ⟨row, hrow, rfl⟩ := hentry entry hmem
    exact rated_of_mem hscored hrow

/-- **The heat map is current**: after any run of the streaming job, whichever of its calls
fail and whichever way the ties are sorted, the endpoint answers, and its answer portrays the
rows committed so far – also the components of which nothing has been committed, and those
that are in no seed. -/
theorem getComponentHealth_current (text : Timestamp → String) (order : OrderBy HealthGe)
    (calls : List HealthCall) :
    ∃ answer, getComponentHealth text order (some (healthAfter calls)) = .ok answer ∧
      Portrays text (committedRows calls) answer :=
  ⟨_, rfl, portrays_select order calls⟩

end Answer

/-! ### The two endpoints -/

section Sums

variable {c : String} (order : OrderBy SummaryGe) (calls : List MetricsCall)

/-- The daily entries of a component add up to what the table holds of it. -/
theorem sum_summaryQuery (value : BatchMetric → ℕ) (total : MetricsSummary → ℕ)
    (hrow : ∀ g, total (summaryRow g) = (g.2.map value).sum) (table : List BatchMetric) :
    (((summaryQuery order none table).filter (·.component = c)).map total).sum
      = ((table.filter (·.component = c)).map value).sum := by
  have hadmits : (table.filter fun row => admits none row.component) = table :=
    List.filter_eq_self.mpr fun _ _ => rfl
  have hperm := ((order.perm ((Bag.groupBy summaryKey table).map summaryRow)).filter
    (·.component = c)).map total
  have hfilter : ((Bag.groupBy summaryKey table).map summaryRow).filter (·.component = c)
      = ((Bag.groupBy summaryKey table).filter fun g => decide (g.1.1 = c)).map summaryRow := by
    rw [List.filter_map]
    rfl
  have htotal : (fun g => total (summaryRow g)) = fun g => (g.2.map value).sum := funext hrow
  rw [summaryQuery, hadmits, hperm.sum_eq, hfilter, List.map_map]
  show ((List.filter _ _).map fun g => total (summaryRow g)).sum = _
  rw [htotal]
  exact Bag.sum_groupBy_filter summaryKey value (fun k => decide (k.1 = c)) table

theorem dated_loggedRows {row : ProcessedRow} (h : row ∈ loggedRows calls) :
    row.logDate.isSome := by
  obtain ⟨call, -, hmem⟩ := List.mem_flatMap.mp h
  exact call.dated row hmem

/-- The rows of a component, whatever their dates. -/
theorem filter_selected_component :
    (loggedRows calls).filter (Selected fun c' _ => decide (c' = c))
      = rowsOf c (loggedRows calls) := by
  refine List.filter_congr fun row hrow => ?_
  obtain ⟨d, hd⟩ := Option.isSome_iff_exists.mp (dated_loggedRows calls hrow)
  rw [Selected, hd]
  rfl

theorem sum_totalEvents_summary :
    (((summaryQuery order none (metricsAfter calls)).filter (·.component = c)).map
      (·.totalEvents)).sum = (rowsOf c (loggedRows calls)).length := by
  have htable := totalEvents_metricsAfter calls fun c' _ => decide (c' = c)
  rw [filter_selected_component] at htable
  rw [← htable]
  exact sum_summaryQuery order _ _ (fun _ => rfl) _

theorem sum_anomalyCount_summary :
    (((summaryQuery order none (metricsAfter calls)).filter (·.component = c)).map
      (·.anomalyCount)).sum = ((rowsOf c (loggedRows calls)).map (·.isAnomaly)).sum := by
  have htable := anomalyCount_metricsAfter calls fun c' _ => decide (c' = c)
  rw [filter_selected_component] at htable
  rw [← htable]
  exact sum_summaryQuery order _ _ (fun _ => rfl) _

end Sums

/-- **The two endpoints agree**: where the two writes have taken up the same rows, in
whatever batches and whatever order, the totals of a component are the sums of its daily
entries. -/
theorem healthTotals_eq_sum_summary (text : Timestamp → String) (byHealth : OrderBy HealthGe)
    (bySum : OrderBy SummaryGe) (days : ℕ) {healthCalls : List HealthCall}
    {metricsCalls : List MetricsCall}
    (hsame : (committedRows healthCalls).Perm (loggedRows metricsCalls)) :
    ∃ health summary,
      getComponentHealth text byHealth (some (healthAfter healthCalls)) = .ok health ∧
      getMetricsSummary bySum (some (metricsAfter metricsCalls)) days none = .ok summary ∧
      ∀ entry ∈ health,
        entry.totalEvents = ((summary.filter (·.component = entry.component)).map
          (·.totalEvents)).sum ∧
        entry.totalAnomalies = ((summary.filter (·.component = entry.component)).map
          (·.anomalyCount)).sum := by
  refine ⟨_, _, rfl, rfl, fun entry hmem => ?_⟩
  obtain ⟨row, hrow, rfl⟩ := List.mem_map.mp hmem
  rw [byHealth.mem_sort, healthAfter_eq] at hrow
  have hrows : (rowsOf row.component (committedRows healthCalls)).Perm
      (rowsOf row.component (loggedRows metricsCalls)) := hsame.filter _
  refine ⟨?_, ?_⟩
  · have hevents : row.totalEvents = (rowsOf row.component (committedRows healthCalls)).length :=
      totalEvents_of_mem hrow
    have hsum := sum_totalEvents_summary (c := row.component) bySum metricsCalls
    exact (hevents.trans hrows.length_eq).trans hsum.symm
  · have hanomalies : row.totalAnomalies
        = ((rowsOf row.component (committedRows healthCalls)).map (·.isAnomaly)).sum :=
      totalAnomalies_of_mem hrow
    have hsum := sum_anomalyCount_summary (c := row.component) bySum metricsCalls
    exact (hanomalies.trans (hrows.map _).sum_eq).trans hsum.symm

/-! ### Two rows of two days -/

/-- A row of a component with a date, anomalous or not. -/
def datedRow (day cluster : ℕ) (h : 1 ≤ day ∧ day ≤ 31) : ProcessedRow :=
  processedRow 1 { bareRow "KERNEL" with
    logDate := some ⟨2005, 6, day, by decide, by decide, h⟩ } cluster

/-- The rows of two days: the first is anomalous. -/
def twoDays : List ProcessedRow := [datedRow 3 1 (by decide), datedRow 4 0 (by decide)]

theorem scored_twoDays : Scored twoDays := by
  unfold Scored
  decide

/-- The batch is taken up by both writes. -/
def twoDaysHealth : HealthCall := ⟨Env.serving, twoDays, scored_twoDays⟩

def twoDaysMetrics : MetricsCall :=
  ⟨Env.serving, twoDays, scored_twoDays, by decide, rfl, rfl⟩

/-- The two entries of the one answer make the one entry of the other. -/
theorem healthTotals_eq_sum_summary_twoDays :
    ∃ health summary,
      getComponentHealth toString byAnomalies (some (healthAfter [twoDaysHealth])) = .ok health ∧
      getMetricsSummary bySummary (some (metricsAfter [twoDaysMetrics])) 7 none = .ok summary ∧
      ∀ entry ∈ health,
        entry.totalEvents = ((summary.filter (·.component = entry.component)).map
          (·.totalEvents)).sum ∧
        entry.totalAnomalies = ((summary.filter (·.component = entry.component)).map
          (·.anomalyCount)).sum :=
  @healthTotals_eq_sum_summary toString byAnomalies bySummary 7 [twoDaysHealth] [twoDaysMetrics]
    (by decide)

end AiopsLog
