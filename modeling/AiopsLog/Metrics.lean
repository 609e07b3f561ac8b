import AiopsLog.Runs

/-!
# What is stored in `batch_metrics`

`_write_postgres` groups the rows of a batch by component, date and severity, and
appends one aggregate for each group. A group without a date is refused, and with it
the whole append, save for partitions that had committed by then. What the aggregates
stored for a batch add up to, over any selection of components and dates, is said in
`AiopsLog.sum_accepted`: the rows with a date that the selection admits.
-/

namespace AiopsLog

/-! ### The aggregates of a batch -/

/-- The aggregates of a batch that have a date, as rows of the table. -/
def acceptedMetrics (df : List ProcessedRow) : List BatchMetric :=
  (metricsAgg df).filterMap (·.accept)

/-- Whether a row has a date, and one that the selection admits with its component. -/
def Selected (q : String → Date → Bool) (row : ProcessedRow) : Bool :=
  row.logDate.any (q row.component)

section Aggregates

variable {q : String → Date → Bool} {value : BatchMetric → ℕ} {f : ProcessedRow → ℕ}
  {df : List ProcessedRow}

/-- **The aggregates that have a date add up to the rows that have one**, over any
selection of components and dates. -/
theorem sum_accepted (q : String → Date → Bool)
    (hvalue : ∀ component date severity (rows : List ProcessedRow),
      value ⟨component, date, severity, rows.length, (rows.map (·.isAnomaly)).sum⟩
        = (rows.map f).sum) (df : List ProcessedRow) :
    (((acceptedMetrics df).filter fun m => q m.component m.logDate).map value).sum
      = ((df.filter (Selected q)).map f).sum := by
  have hsum := Bag.sum_groupBy_filter metricsKey f (fun k => k.2.1.any (q k.1)) df
  rw [acceptedMetrics, metricsAgg]
  refine Eq.trans ?_ hsum
  generalize Bag.groupBy metricsKey df = groups
  induction groups with
  | nil => rfl
  | cons g groups ih =>
    obtain ⟨⟨component, _ | date, severity⟩, rows⟩ := g
    · -- a group without a date is neither accepted nor selected
      simpa [MetricsAgg.accept] using ih
    · by_cases hq : q component date
      · simpa [MetricsAgg.accept, hq, hvalue] using ih
      · simpa [MetricsAgg.accept, hq] using ih

theorem sum_map_one (rows : List ProcessedRow) : (rows.map fun _ => 1).sum = rows.length := by
  simp

theorem totalEvents_accepted (q : String → Date → Bool) (df : List ProcessedRow) :
    (((acceptedMetrics df).filter fun m => q m.component m.logDate).map (·.totalEvents)).sum
      = (df.filter (Selected q)).length := by
  rw [← sum_map_one]
  exact sum_accepted q (fun _ _ _ rows => (sum_map_one rows).symm) df

theorem anomalyCount_accepted (q : String → Date → Bool) (df : List ProcessedRow) :
    (((acceptedMetrics df).filter fun m => q m.component m.logDate).map (·.anomalyCount)).sum
      = ((df.filter (Selected q)).map (·.isAnomaly)).sum :=
  sum_accepted q (fun _ _ _ _ => rfl) df

/-- **The append is accepted exactly where every row has a date.** -/
theorem all_accept_iff :
    (metricsAgg df).all (·.accept.isSome) ↔ ∀ row ∈ df, row.logDate.isSome := by
  simp only [metricsAgg, List.all_map, List.all_eq_true, Function.comp_apply, MetricsAgg.accept,
    Option.isSome_map]
  constructor
  · intro h row hrow
    obtain ⟨g, hg, hkey⟩ := Bag.exists_mem_groupBy metricsKey hrow
    have hdate := h g hg
    rw [hkey] at hdate
    exact hdate
  · intro h g hg
    obtain ⟨⟨row, hrow, hkey⟩, -⟩ := Bag.mem_groupBy.mp hg
    rw [← hkey]
    exact h row hrow

/-- The components and dates of the aggregates are those of the rows. -/
theorem exists_mem_acceptedMetrics {c : String} {d : Date} :
    (∃ m ∈ acceptedMetrics df, m.component = c ∧ m.logDate = d) ↔
      ∃ row ∈ df, row.component = c ∧ row.logDate = some d := by
  simp only [acceptedMetrics, metricsAgg, List.mem_filterMap, List.mem_map]
  constructor
  · rintro ⟨m, ⟨agg, ⟨g, hg, rfl⟩, haccept⟩, rfl, rfl⟩
    obtain ⟨⟨row, hrow, hkey⟩, -⟩ := Bag.mem_groupBy.mp hg
    obtain ⟨date, hdate, rfl⟩ := Option.map_eq_some_iff.mp haccept
    have hcomponent : row.component = g.1.1 := congrArg Prod.fst hkey
    have hlogDate : row.logDate = g.1.2.1 := congrArg (fun k => k.2.1) hkey
    exact ⟨row, hrow, hcomponent, hlogDate.trans hdate⟩
  · rintro ⟨row, hrow, rfl, hdate⟩
    obtain ⟨g, hg, hkey⟩ := Bag.exists_mem_groupBy metricsKey hrow
    have hlogDate : g.1.2.1 = some d := by rw [hkey, metricsKey, hdate]
    refine ⟨_, ⟨_, ⟨g, hg, rfl⟩, Option.map_eq_some_iff.mpr ⟨d, hlogDate, rfl⟩⟩, ?_, rfl⟩
    rw [hkey]
    rfl

/-- What is stored for a batch is all of its accepted aggregates, or some. -/
theorem storedMetrics_sublist (commits : BatchMetric → Bool) (df : List ProcessedRow) :
    (storedMetrics commits (metricsAgg df)).Sublist (acceptedMetrics df) := by
  rw [storedMetrics]
  split
  · exact List.Sublist.refl _
  · exact List.filter_sublist

theorem storedMetrics_of_dated (commits : BatchMetric → Bool) (h : ∀ row ∈ df, row.logDate.isSome) :
    storedMetrics commits (metricsAgg df) = acceptedMetrics df :=
  if_pos (all_accept_iff.mpr h)

end Aggregates

end AiopsLog
