import AiopsLog.Health
import AiopsLog.Metrics

/-!
# Whether the sinks agree

Four paths count the rows of a batch: `processed_logs` keeps them, `batch_metrics` and
`component_health` aggregate them, and the anomalous ones are both published and
inserted into `anomaly_alerts_pg`. Over a run in which every service answers, all but
one keep exact count (`AiopsLog.Tracks`). The exception is `batch_metrics`, whose column
`log_date` is `NOT NULL`: one row without a date has the aggregates of its batch
refused, and its component then counts fewer events there than anywhere else. So the
sinks agree on every component if and only if every row has a date
(`AiopsLog.sinksAgree_iff`).
-/

namespace AiopsLog

open Py Py.Code

variable {Nlp Km Features : Type}

/-! ### What the sinks count -/

/-- The component an alert on the wire names. -/
def alertComponent (alert : Json) : Option String :=
  match alert.get "component" with
  | some (.str c) => some c
  | _ => none

theorem alertComponent_alertJson (castString : Timestamp → String) (row : ProcessedRow) :
    alertComponent (alertJson castString row) = some row.component := by
  obtain ⟨eventTime, host, component, severity, message, logDate, cluster, isAnomaly, score, label,
    ingestedAt⟩ := row
  cases eventTime <;> cases host <;> cases severity <;> rfl

/-- The rows of a component in `processed_logs`. -/
def loggedEvents (c : String) (s : Sinks) : ℕ := s.processedLogs.countP (·.1.component = c)

/-- The sum of `batch_metrics.total_events` over a component. -/
def metricsEvents (c : String) (s : Sinks) : ℕ :=
  ((s.batchMetrics.filter (·.component = c)).map (·.totalEvents)).sum

/-- The sum of `batch_metrics.anomaly_count` over a component. -/
def metricsAnomalies (c : String) (s : Sinks) : ℕ :=
  ((s.batchMetrics.filter (·.component = c)).map (·.anomalyCount)).sum

/-- The rows of a component in `anomaly_alerts_pg`. -/
def insertedAlerts (c : String) (s : Sinks) : ℕ := s.anomalyAlertsPg.countP (·.component = some c)

/-- The alerts of a component on `critical-alerts`. -/
def publishedAlerts (c : String) (s : Sinks) : ℕ :=
  s.criticalAlerts.countP (alertComponent · = some c)

/-- **The sinks agree on a component**: on how many events it has had, and on how many
of them were anomalous. -/
structure SinksAgree (s : Sinks) (c : String) : Prop where
  metrics_health : metricsEvents c s = (tallyIn s.componentHealth c).events
  health_logs : (tallyIn s.componentHealth c).events = loggedEvents c s
  anomalies_metrics_health : metricsAnomalies c s = (tallyIn s.componentHealth c).anomalies
  anomalies_health_inserted : (tallyIn s.componentHealth c).anomalies = insertedAlerts c s
  inserted_published : insertedAlerts c s = publishedAlerts c s

/-! ### What one batch adds -/

section Batch

variable {c : String} {df : List ProcessedRow}

theorem rowsOf_append (c : String) (rows rows' : List ProcessedRow) :
    rowsOf c (rows ++ rows') = rowsOf c rows ++ rowsOf c rows' :=
  List.filter_append _ _

/-- The anomalies of a component, counted in a frame or in what is made of it. -/
theorem length_anomaliesOf_rowsOf (c : String) (df : List ProcessedRow) :
    (anomaliesOf (rowsOf c df)).length = (anomaliesOf df).countP (·.component = c) := by
  rw [List.countP_eq_length_filter, anomaliesOf, anomaliesOf, rowsOf, List.filter_filter,
    List.filter_filter]
  congr 1
  exact List.filter_congr fun row _ => Bool.and_comm _ _

/-- What `batch_metrics` gains on a component is at most the rows of the component that
have a date. -/
theorem stored_le (commits : BatchMetric → Bool) (c : String) (df : List ProcessedRow) :
    (((storedMetrics commits (metricsAgg df)).filter (·.component = c)).map (·.totalEvents)).sum
      ≤ ((rowsOf c df).filter (·.logDate.isSome)).length := by
  have hsub : (((storedMetrics commits (metricsAgg df)).filter (·.component = c)).map
      (·.totalEvents)).Sublist (((acceptedMetrics df).filter (·.component = c)).map
        (·.totalEvents)) :=
    ((storedMetrics_sublist commits _).filter _).map _
  refine (hsub.sum_le_sum fun _ _ => Nat.zero_le _).trans (le_of_eq ?_)
  rw [totalEvents_accepted (fun component _ => decide (component = c)), rowsOf, List.filter_filter]
  congr 1
  refine List.filter_congr fun row _ => ?_
  rw [Selected]
  cases row.logDate <;> simp

/-- A batch whose rows all have dates is stored whole. -/
theorem stored_of_dated (commits : BatchMetric → Bool) (c : String)
    (hdated : ∀ row ∈ df, row.logDate.isSome) :
    (((storedMetrics commits (metricsAgg df)).filter (·.component = c)).map (·.totalEvents)).sum
        = (rowsOf c df).length ∧
      (((storedMetrics commits (metricsAgg df)).filter (·.component = c)).map (·.anomalyCount)).sum
        = ((rowsOf c df).map (·.isAnomaly)).sum := by
  have hsel : df.filter (Selected fun component _ => decide (component = c)) = rowsOf c df := by
    refine List.filter_congr fun row hrow => ?_
    obtain ⟨date, hdate⟩ := Option.isSome_iff_exists.mp (hdated row hrow)
    simp [Selected, hdate]
  rw [storedMetrics_of_dated commits hdated, ← hsel]
  exact ⟨totalEvents_accepted (fun component _ => decide (component = c)) df,
    anomalyCount_accepted (fun component _ => decide (component = c)) df⟩

/-- A row without a date is missing from what is stored. -/
theorem stored_lt (commits : BatchMetric → Bool) {row : ProcessedRow} (hrow : row ∈ df)
    (hnull : row.logDate = none) :
    (((storedMetrics commits (metricsAgg df)).filter (·.component = row.component)).map
      (·.totalEvents)).sum < (rowsOf row.component df).length := by
  refine lt_of_le_of_lt (stored_le commits row.component df) ?_
  refine List.length_filter_lt_length_iff_exists.mpr ⟨row, ?_, by simp [hnull]⟩
  exact List.mem_filter.mpr ⟨hrow, by simp⟩

end Batch

/-! ### Runs -/

/-- A call of the handler in an environment where every call goes through. -/
structure ServedCall where
  env : Env
  batch : List LogRow
  batchId : ℤ
  allOk : env.AllOk

/-- A run of the job over some batches. -/
def runJob (ml : SparkML Nlp Km Features) (calls : List ServedCall) : Code (Job Nlp Km) Unit :=
  forEach (fun call => process ml call.env call.batch call.batchId) calls

/-- **What the sinks hold of the rows processed so far.** All of it is exact, except
what `batch_metrics` holds: it is exact as long as every row has a date, and short
of every component that has had a row without one. -/
structure Tracks (s : Sinks) (rows : List ProcessedRow) : Prop where
  fresh : ∀ row ∈ s.anomalyAlertsPg, row.alertId < s.uuids
  logs : ∀ c, loggedEvents c s = (rowsOf c rows).length
  health : ∀ c, tallyIn s.componentHealth c = tallyOf (rowsOf c rows)
  inserted : ∀ c, insertedAlerts c s = (anomaliesOf (rowsOf c rows)).length
  published : ∀ c, publishedAlerts c s = (anomaliesOf (rowsOf c rows)).length
  metrics_le : ∀ c, metricsEvents c s ≤ (rowsOf c rows).length
  metrics_eq : (∀ row ∈ rows, row.logDate.isSome) → ∀ c,
    metricsEvents c s = (rowsOf c rows).length ∧
      metricsAnomalies c s = ((rowsOf c rows).map (·.isAnomaly)).sum
  metrics_lt : ∀ row ∈ rows, row.logDate = none →
    metricsEvents row.component s < (rowsOf row.component rows).length

theorem tracks_initial : Tracks Sinks.initial [] where
  fresh _ h := absurd h List.not_mem_nil
  logs _ := rfl
  health c := tallyIn_seededHealth c
  inserted _ := rfl
  published _ := rfl
  metrics_le _ := Nat.le_refl 0
  metrics_eq _ _ := ⟨rfl, rfl⟩
  metrics_lt _ h := absurd h List.not_mem_nil

section Step

variable {env : Env} {s : Sinks} {rows df : List ProcessedRow} {batchId : ℤ}

/-- Numbering rows does not change how many there are of a kind. -/
theorem countP_zipIdx (p : ProcessedRow → Bool) (rows : List ProcessedRow) (n : ℕ) :
    (rows.zipIdx n).countP (fun r => p r.1) = rows.countP p := by
  conv_rhs => rw [← List.zipIdx_map_fst n rows]
  rw [List.countP_map]
  rfl

theorem insertedAlerts_afterWrites (hfresh : ∀ row ∈ s.anomalyAlertsPg, row.alertId < s.uuids)
    (c : String) :
    insertedAlerts c (s.afterWrites env df batchId Write.order)
      = insertedAlerts c s + (anomaliesOf (rowsOf c df)).length := by
  have hlater : ∀ row ∈ s.anomalyAlertsPg, row.alertId < s.uuids + df.length :=
    fun row hrow => Nat.lt_add_right _ (hfresh row hrow)
  rw [afterWrites_order, insertedAlerts, insertAlerts_of_fresh _ hlater, List.countP_append,
    List.countP_map, length_anomaliesOf_rowsOf]
  rw [← countP_zipIdx (fun row => decide (row.component = c)) _ (s.uuids + df.length),
    insertedAlerts]
  congr 2
  funext r
  simp [sparkAlertRow]

theorem publishedAlerts_afterWrites (c : String) :
    publishedAlerts c (s.afterWrites env df batchId Write.order)
      = publishedAlerts c s + (anomaliesOf (rowsOf c df)).length := by
  rw [afterWrites_order, publishedAlerts, List.countP_append, List.countP_map,
    length_anomaliesOf_rowsOf, publishedAlerts]
  congr 2
  funext row
  simp [alertComponent_alertJson]

theorem loggedEvents_afterWrites (c : String) :
    loggedEvents c (s.afterWrites env df batchId Write.order)
      = loggedEvents c s + (rowsOf c df).length := by
  rw [afterWrites_order, loggedEvents, List.countP_append,
    countP_zipIdx fun row => decide (row.component = c), loggedEvents, rowsOf,
    List.countP_eq_length_filter (l := df)]

theorem metricsEvents_afterWrites (c : String) :
    metricsEvents c (s.afterWrites env df batchId Write.order) = metricsEvents c s +
      (((storedMetrics env.commits (metricsAgg df)).filter (·.component = c)).map
        (·.totalEvents)).sum := by
  rw [afterWrites_order, metricsEvents, List.filter_append, List.map_append, List.sum_append]
  rfl

theorem metricsAnomalies_afterWrites (c : String) :
    metricsAnomalies c (s.afterWrites env df batchId Write.order) = metricsAnomalies c s +
      (((storedMetrics env.commits (metricsAgg df)).filter (·.component = c)).map
        (·.anomalyCount)).sum := by
  rw [afterWrites_order, metricsAnomalies, List.filter_append, List.map_append, List.sum_append]
  rfl

/-- The identifiers drawn by a batch stay ahead of the table. -/
theorem fresh_afterWrites (hfresh : ∀ row ∈ s.anomalyAlertsPg, row.alertId < s.uuids) :
    ∀ row ∈ (s.afterWrites env df batchId Write.order).anomalyAlertsPg,
      row.alertId < (s.afterWrites env df batchId Write.order).uuids := by
  have hlater : ∀ row ∈ s.anomalyAlertsPg, row.alertId < s.uuids + df.length :=
    fun row hrow => Nat.lt_add_right _ (hfresh row hrow)
  rw [afterWrites_order, insertAlerts_of_fresh _ hlater]
  intro row hrow
  rcases List.mem_append.mp hrow with hrow | hrow
  · exact Nat.lt_add_right _ (hlater row hrow)
  · obtain ⟨r, hr, rfl⟩ := List.mem_map.mp hrow
    exact List.snd_lt_add_of_mem_zipIdx hr

/-- **One batch.** -/
theorem tracks_afterWrites (h : Tracks s rows) :
    Tracks (s.afterWrites env df batchId Write.order) (rows ++ df) where
  fresh := fresh_afterWrites h.fresh
  logs c := by
    rw [loggedEvents_afterWrites, h.logs, rowsOf_append, List.length_append]
  health c := by
    rw [rowsOf_append, tallyOf_append, ← h.health, afterWrites_order]
    exact tallyIn_upsertBatch df s.componentHealth c
  inserted c := by
    rw [insertedAlerts_afterWrites h.fresh, h.inserted, rowsOf_append, anomaliesOf, anomaliesOf,
      anomaliesOf, List.filter_append, List.length_append]
  published c := by
    rw [publishedAlerts_afterWrites, h.published, rowsOf_append, anomaliesOf, anomaliesOf,
      anomaliesOf, List.filter_append, List.length_append]
  metrics_le c := by
    have hstored := (stored_le env.commits c df).trans (List.length_filter_le _ _)
    have hold := h.metrics_le c
    rw [metricsEvents_afterWrites, rowsOf_append, List.length_append]
    omega
  metrics_eq hdated c := by
    obtain ⟨hevents, hanomalies⟩ := h.metrics_eq
      (fun row hrow => hdated row (List.mem_append_left _ hrow)) c
    obtain ⟨hevents', hanomalies'⟩ := stored_of_dated env.commits c
      (fun row hrow => hdated row (List.mem_append_right _ hrow))
    rw [metricsEvents_afterWrites, metricsAnomalies_afterWrites, hevents, hanomalies, hevents',
      hanomalies', rowsOf_append, List.length_append, List.map_append, List.sum_append]
    exact ⟨rfl, rfl⟩
  metrics_lt row hrow hnull := by
    have hle := (stored_le env.commits row.component df).trans (List.length_filter_le _ _)
    have hold := h.metrics_le row.component
    rw [metricsEvents_afterWrites, rowsOf_append, List.length_append]
    rcases List.mem_append.mp hrow with hrow | hrow
    · have hlt := h.metrics_lt row hrow hnull
      omega
    · have hlt := stored_lt env.commits hrow hnull
      omega

end Step

section Run

variable (ml : SparkML Nlp Km Features)

/-- **A run returns, and its sinks track the rows of its batches.** -/
theorem tracks_runJob (calls : List ServedCall) (job : Job Nlp Km) {rows : List ProcessedRow}
    (hself : job.self.HasModels) (h : Tracks job.sinks rows) :
    (runJob ml calls job).1 = .done () ∧ ∃ new : List ProcessedRow,
      Tracks (runJob ml calls job).2.sinks (rows ++ new) ∧ Scored new ∧
        new.map (·.columns) = (calls.flatMap (·.batch)).map (·.columns) := by
  induction calls generalizing job rows with
  | nil =>
    have hscored : Scored [] := fun _ hrow => absurd hrow List.not_mem_nil
    exact ⟨rfl, [], by rwa [List.append_nil], hscored, rfl⟩
  | cons call calls ih =>
    have hstep : runJob ml (call :: calls) job
        = runJob ml calls ⟨job.self.trainedBy ml call.batch, job.sinks.afterWrites call.env
            (labels ml job.self call.batch) call.batchId Write.order⟩ := by
      rw [runJob, forEach, bind_done (process_ok call.allOk hself)]
      rfl
    obtain ⟨hdone, new, htracks, hscored, hcols⟩ := ih ⟨job.self.trainedBy ml call.batch,
      job.sinks.afterWrites call.env (labels ml job.self call.batch) call.batchId Write.order⟩
      (hasModels_trainedBy hself) (tracks_afterWrites h)
    rw [hstep]
    refine ⟨hdone, labels ml job.self call.batch ++ new, ?_, ?_, ?_⟩
    · rw [← List.append_assoc]
      exact htracks
    · intro row hrow
      rcases List.mem_append.mp hrow with hrow | hrow
      · exact scored_labels row hrow
      · exact hscored row hrow
    · rw [List.map_append, hcols, map_columns_labels ml call.batch hself, List.flatMap_cons,
        List.map_append]

/-- Whether the rows of a run have dates can be told from their labelled rows. -/
theorem dated_iff {rows : List ProcessedRow} {batch : List LogRow}
    (hcols : rows.map (·.columns) = batch.map (·.columns)) :
    (∀ row ∈ rows, row.logDate.isSome) ↔ ∀ row ∈ batch, row.logDate.isSome := by
  have hrows : (∀ row ∈ rows, row.logDate.isSome)
      ↔ ∀ cols ∈ rows.map (·.columns), cols.logDate.isSome := by
    rw [List.forall_mem_map]
    rfl
  have hbatch : (∀ row ∈ batch, row.logDate.isSome)
      ↔ ∀ cols ∈ batch.map (·.columns), cols.logDate.isSome := by
    rw [List.forall_mem_map]
    rfl
  rw [hrows, hbatch, hcols]

/-- **When the sinks agree**: after any run in which every call goes through, the sinks
agree on every component if and only if every row of every batch has a date. -/
theorem sinksAgree_iff (calls : List ServedCall) :
    (runJob ml calls ⟨BatchProcessor.init, Sinks.initial⟩).1 = .done () ∧
      ((∀ c, SinksAgree (runJob ml calls ⟨BatchProcessor.init, Sinks.initial⟩).2.sinks c) ↔
        ∀ call ∈ calls, ∀ row ∈ call.batch, row.logDate.isSome) := by
  obtain ⟨hdone, rows, htracks, hscored, hcols⟩ := tracks_runJob ml calls
    ⟨BatchProcessor.init, Sinks.initial⟩ hasModels_init tracks_initial
  refine ⟨hdone, ?_⟩
  rw [List.nil_append] at htracks
  have hflat : (∀ call ∈ calls, ∀ row ∈ call.batch, row.logDate.isSome)
      ↔ ∀ row ∈ calls.flatMap (·.batch), row.logDate.isSome := by
    simp only [List.mem_flatMap]
    exact ⟨fun h row ⟨call, hcall, hrow⟩ => h call hcall row hrow,
      fun h call hcall row hrow => h row ⟨call, hcall, hrow⟩⟩
  rw [hflat, ← dated_iff hcols]
  constructor
  · -- the component of a row without a date falls short in `batch_metrics`
    intro hagree row hrow
    by_contra hnull
    rw [Option.not_isSome_iff_eq_none] at hnull
    have hlt := htracks.metrics_lt row hrow hnull
    rw [(hagree row.component).metrics_health, htracks.health, events_tallyOf] at hlt
    exact Nat.lt_irrefl _ hlt
  · intro hdated c
    obtain ⟨hevents, hanomalies⟩ := htracks.metrics_eq hdated c
    have hflags : ((rowsOf c rows).map (·.isAnomaly)).sum
        = (anomaliesOf (rowsOf c rows)).length := by
      rw [sum_isAnomaly (scored_rowsOf hscored c), anomaliesOf, List.countP_eq_length_filter]
    refine ⟨?_, ?_, ?_, ?_, ?_⟩
    · rw [hevents, htracks.health, events_tallyOf]
    · rw [htracks.logs, htracks.health, events_tallyOf]
    · rw [hanomalies, htracks.health, anomalies_tallyOf]
    · rw [htracks.inserted, htracks.health, anomalies_tallyOf, hflags]
    · rw [htracks.inserted, htracks.published]

end Run

/-- **One row without a date is enough.** The aggregate of the batch is refused, and
`component_health` counts an event that `batch_metrics` does not. -/
theorem not_sinksAgree_undated :
    ¬∀ c, SinksAgree (runJob (SparkML.ofRule fun _ => 0)
      [⟨Env.serving, [bareRow "KERNEL"], 0, allOk_serving⟩]
      ⟨BatchProcessor.init, Sinks.initial⟩).2.sinks c := by
  intro h
  have hmetrics := (h "KERNEL").metrics_health
  have hzero : metricsEvents "KERNEL" (runJob (SparkML.ofRule fun _ => 0)
      [⟨Env.serving, [bareRow "KERNEL"], 0, allOk_serving⟩]
      ⟨BatchProcessor.init, Sinks.initial⟩).2.sinks = 0 := rfl
  have hone : (tallyIn (runJob (SparkML.ofRule fun _ => 0)
      [⟨Env.serving, [bareRow "KERNEL"], 0, allOk_serving⟩]
      ⟨BatchProcessor.init, Sinks.initial⟩).2.sinks.componentHealth "KERNEL").events = 1 := rfl
  rw [hzero, hone] at hmetrics
  exact absurd hmetrics (by decide)

end AiopsLog
