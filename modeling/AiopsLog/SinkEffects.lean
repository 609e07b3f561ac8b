import AiopsLog.Process

/-!
# What the sink writes do when they go through

The six writes of a batch are listed here in the order `process` makes them
(`AiopsLog.Write.order`), each with its code and with its *effect*: the function of the
sinks it computes when every call in it goes through. Two facts about each write are
all that later modules need of its code: it is its effect when its calls go through,
and it does nothing when it is killed at its first call. From them follows what a
prefix of the writes does, wherever the prefix ends.
-/

namespace AiopsLog

open Py Py.Code

/-! ### The effects -/

/-- The effect of `_write_delta`. -/
def Sinks.appendLogs (df : List ProcessedRow) (s : Sinks) : Sinks :=
  { s with
    uuids := s.uuids + df.length
    processedLogs := s.processedLogs ++ df.zipIdx s.uuids }

/-- The effect of `_publish_alerts`. -/
def Sinks.appendAlerts (castString : Timestamp → String) (anomalies : List ProcessedRow)
    (s : Sinks) : Sinks :=
  { s with criticalAlerts := s.criticalAlerts ++ anomalies.map (alertJson castString) }

/-- What an append of aggregates leaves in `batch_metrics`: all of them, or, where one
is rejected, those in the partitions that commit. -/
def storedMetrics (commits : BatchMetric → Bool) (agg : List MetricsAgg) : List BatchMetric :=
  if agg.all (·.accept.isSome) then agg.filterMap (·.accept)
  else (agg.filterMap (·.accept)).filter commits

/-- The effect of `_write_postgres`. -/
def Sinks.appendMetrics (commits : BatchMetric → Bool) (df : List ProcessedRow) (s : Sinks) :
    Sinks :=
  { s with batchMetrics := s.batchMetrics ++ storedMetrics commits (metricsAgg df) }

/-- The insertion of rows with their identifiers. -/
def insertAlerts (rows : List (ProcessedRow × Uuid)) (table : List AlertRow) : List AlertRow :=
  rows.foldl (fun table r => Sql.insertOrIgnore (·.alertId) (sparkAlertRow r.2 r.1) table) table

/-- The effect of `_write_anomaly_alerts_pg`. -/
def Sinks.insertAlertRows (anomalies : List ProcessedRow) (s : Sinks) : Sinks :=
  { s with
    uuids := s.uuids + anomalies.length
    anomalyAlertsPg := insertAlerts (anomalies.zipIdx s.uuids) s.anomalyAlertsPg }

/-- The upserts of a batch. -/
def upsertBatch (df : List ProcessedRow) (table : List HealthRow) : List HealthRow :=
  (healthAgg df).foldl (fun table agg => upsertHealth agg table) table

/-- The effect of `_update_component_health`. -/
def Sinks.upsertHealth (df : List ProcessedRow) (s : Sinks) : Sinks :=
  { s with componentHealth := upsertBatch df s.componentHealth }

/-- The effect of `_write_model_metrics`. -/
def Sinks.appendModelMetric (processed : List ProcessedRow) (batchId : ℤ) (s : Sinks) : Sinks :=
  if (evalRows processed).length = 0 then s
  else { s with modelMetrics := s.modelMetrics ++ (modelMetric processed batchId).toList }

/-! ### The six writes -/

/-- The writes of a batch. -/
inductive Write where
  | delta : Write
  | alerts : Write
  | metrics : Write
  | alertRows : Write
  | health : Write
  | model : Write
  deriving DecidableEq, Repr

namespace Write

/-- The writes in the order `process` makes them. -/
def order : List Write := [delta, alerts, metrics, alertRows, health, model]

/-- The code of a write. -/
def code (env : Env) (processed : List ProcessedRow) (batchId : ℤ) : Write → Code Sinks Unit
  | delta => logged (writeDelta env processed)
  | alerts => logged (do
      env.reach .alertCount
      if (anomaliesOf processed).length > 0 then publishAlerts env (anomaliesOf processed))
  | metrics => logged (writePostgres env processed)
  | alertRows => logged (writeAnomalyAlertsPg env (anomaliesOf processed))
  | health => logged (updateComponentHealth env processed)
  | model => logged (writeModelMetrics env processed batchId)

/-- The effect of a write. -/
def effect (env : Env) (processed : List ProcessedRow) (batchId : ℤ) : Write → Sinks → Sinks
  | delta => Sinks.appendLogs processed
  | alerts => Sinks.appendAlerts env.castString (anomaliesOf processed)
  | metrics => Sinks.appendMetrics env.commits processed
  | alertRows => Sinks.insertAlertRows (anomaliesOf processed)
  | health => Sinks.upsertHealth processed
  | model => Sinks.appendModelMetric processed batchId

end Write

/-- The write a site belongs to. -/
def Site.write : Site → Option Write
  | .delta => some .delta
  | .alertCount | .publish => some .alerts
  | .metricsAgg | .metricsJdbc => some .metrics
  | .alertRows | .alertConnect | .alertAdapt _ | .alertInsert _ | .alertCommit =>
    some .alertRows
  | .healthRows | .healthConnect | .healthUpsert _ | .healthCommit => some .health
  | .modelCount | .modelAgg | .modelConnect | .modelInsert | .modelCommit => some .model
  | .count | .cache | .train | .transform | .select | .unpersist => none

theorem writeSinks_eq (env : Env) (processed : List ProcessedRow) (batchId : ℤ) :
    writeSinks env processed batchId
      = forEach (Write.code env processed batchId) Write.order := by
  simp only [writeSinks, Write.order, forEach, Write.code, bind_pure_unit]

/-! ### A write whose calls go through -/

variable {env : Env}

theorem insertAlertRows_ok (hadapt : ∀ i, env.signal (.alertAdapt i) = .ok)
    (hinsert : ∀ i, env.signal (.alertInsert i) = .ok) :
    ∀ (rows : List (ProcessedRow × ℕ)) (base work : List AlertRow) (inserted : ℕ) (s : Sinks),
      insertAlertRows env rows (⟨base, work, false⟩, inserted) s
        = (.done (⟨base, insertAlerts ((rows.map Prod.fst).zipIdx s.uuids) work, false⟩,
            inserted + rows.length), { s with uuids := s.uuids + rows.length })
  | [], base, work, inserted, s => rfl
  | (row, i) :: rows, base, work, inserted, s => by
    have ih := insertAlertRows_ok hadapt hinsert rows base
      (Sql.insertOrIgnore (·.alertId) (sparkAlertRow s.uuids row) work) (inserted + 1)
      { s with uuids := s.uuids + 1 }
    rw [insertAlertRows, bind_apply, read_apply]
    dsimp only
    rw [bind_apply, update_apply]
    dsimp only
    rw [raises_ok (hadapt i), raises_ok (hinsert i)]
    refine ih.trans ?_
    simp only [List.length_cons, List.map_cons, List.zipIdx_cons, insertAlerts, List.foldl_cons]
    rw [Nat.add_assoc inserted, Nat.add_comm 1, Nat.add_assoc s.uuids, Nat.add_comm 1]

theorem upsertHealthRows_ok :
    ∀ (rows : List (HealthAgg × ℕ)) (base work : List HealthRow) (s : Sinks),
      (∀ r ∈ rows, env.signal (.healthUpsert r.2) = .ok) →
      upsertHealthRows env rows ⟨base, work, false⟩ s
        = (.done ⟨base, (rows.map Prod.fst).foldl (fun table agg => upsertHealth agg table) work,
            false⟩, s)
  | [], base, work, s, _ => rfl
  | (agg, i) :: rows, base, work, s, h => by
    rw [upsertHealthRows, reach_bind_ok (h (agg, i) List.mem_cons_self)]
    exact upsertHealthRows_ok rows base (upsertHealth agg work) s
      fun r hr => h r (List.mem_cons_of_mem _ hr)

theorem writeModelMetrics_ok {processed : List ProcessedRow} {batchId : ℤ}
    (h : ∀ site : Site, site.write = some .model → env.signal site = .ok) (s : Sinks) :
    writeModelMetrics env processed batchId s
      = (.done (), s.appendModelMetric processed batchId) := by
  rw [writeModelMetrics, reach_bind_ok (h .modelCount rfl), Sinks.appendModelMetric]
  split
  · rw [pure_apply]
  · obtain ⟨metric, hmetric⟩ := exists_modelMetric processed batchId
    rw [reach_bind_ok (h .modelAgg rfl), hmetric, Option.toList_some]
    refine exceptException_done ?_
    rw [reach_bind_ok (h .modelConnect rfl), reach_bind_ok (h .modelInsert rfl),
      reach_bind_ok (h .modelCommit rfl), update_apply]

namespace Write

variable {processed : List ProcessedRow} {batchId : ℤ}

theorem code_alerts_ok (hcount : env.signal .alertCount = .ok)
    (hpublish : env.signal .publish = .ok) (s : Sinks) :
    code env processed batchId alerts s = (.done (), effect env processed batchId alerts s) := by
  refine exceptException_done ?_
  rw [reach_bind_ok hcount]
  split
  · rw [publishAlerts, hpublish]
    rfl
  · next hlen =>
    have hnil : anomaliesOf processed = [] := by
      rw [← List.length_eq_zero_iff]
      omega
    simp [effect, Sinks.appendAlerts, hnil]

theorem code_metrics_ok (hagg : env.signal .metricsAgg = .ok)
    (hjdbc : env.signal .metricsJdbc = .ok) (s : Sinks) :
    code env processed batchId metrics s = (.done (), effect env processed batchId metrics s) := by
  refine exceptException_done ?_
  rw [writePostgres, reach_bind_ok hagg]
  by_cases hall : (metricsAgg processed).all (·.accept.isSome)
  · refine exceptException_done ?_
    rw [reach_bind_ok hjdbc]
    simp [appendMetrics, effect, Sinks.appendMetrics, storedMetrics, hall]
  · -- an aggregate is refused: the append raises, and the inner `try` drops that
    have hbody : (do env.reach .metricsJdbc; appendMetrics env (metricsAgg processed)) s
        = (.raised .error, effect env processed batchId metrics s) := by
      rw [reach_bind_ok hjdbc, appendMetrics, if_neg hall, bind_apply, update_apply]
      simp only [raise_apply, effect, Sinks.appendMetrics, storedMetrics, if_neg hall]
    rw [exceptException_error hbody, pure_apply]

theorem code_alertRows_ok (h : ∀ site : Site, site.write = some alertRows → env.signal site = .ok)
    (s : Sinks) :
    code env processed batchId alertRows s
      = (.done (), effect env processed batchId alertRows s) := by
  refine exceptException_done ?_
  rw [writeAnomalyAlertsPg, reach_bind_ok (h .alertRows rfl)]
  split
  · next hnil => simp [effect, Sinks.insertAlertRows, hnil, insertAlerts]
  · refine exceptException_done ?_
    rw [reach_bind_ok (h .alertConnect rfl), bind_apply, read_apply]
    dsimp only
    have hrows := insertAlertRows_ok (fun i => h (.alertAdapt i) rfl)
      (fun i => h (.alertInsert i) rfl)
    rw [Sql.Txn.start, bind_done (hrows _ _ _ _ _), reach_bind_ok (h .alertCommit rfl),
      update_apply, List.zipIdx_map_fst, List.length_zipIdx]
    rfl

theorem code_health_ok (h : ∀ site : Site, site.write = some health → env.signal site = .ok)
    (s : Sinks) :
    code env processed batchId health s = (.done (), effect env processed batchId health s) := by
  refine exceptException_done ?_
  rw [updateComponentHealth, reach_bind_ok (h .healthRows rfl)]
  split
  · next hnil => simp [effect, Sinks.upsertHealth, upsertBatch, hnil]
  · refine exceptException_done ?_
    rw [reach_bind_ok (h .healthConnect rfl), bind_apply, read_apply]
    dsimp only
    rw [Sql.Txn.start, bind_done (upsertHealthRows_ok _ _ _ _ fun r _ => h (.healthUpsert r.2) rfl),
      reach_bind_ok (h .healthCommit rfl), update_apply, List.zipIdx_map_fst]
    rfl

theorem code_model_ok (h : ∀ site : Site, site.write = some model → env.signal site = .ok)
    (s : Sinks) :
    code env processed batchId model s = (.done (), effect env processed batchId model s) :=
  exceptException_done (writeModelMetrics_ok h s)

/-- **A write whose calls go through is its effect.** -/
theorem code_ok {w : Write} (h : ∀ site : Site, site.write = some w → env.signal site = .ok)
    (s : Sinks) :
    code env processed batchId w s = (.done (), effect env processed batchId w s) := by
  cases w with
  | delta =>
    refine exceptException_done ?_
    rw [writeDelta, reach_bind_ok (h .delta rfl)]
    rfl
  | alerts => exact code_alerts_ok (h .alertCount rfl) (h .publish rfl) s
  | metrics => exact code_metrics_ok (h .metricsAgg rfl) (h .metricsJdbc rfl) s
  | alertRows => exact code_alertRows_ok h s
  | health => exact code_health_ok h s
  | model => exact code_model_ok h s

end Write

/-! ### A write that is killed as it begins -/

theorem logged_reach_kill {site : Site} (h : env.signal site = .kill) (f : Unit → Code Sinks Unit)
    (s : Sinks) : logged (env.reach site >>= f) s = (.halted, s) := by
  refine exceptException_halted (bind_halted ?_)
  rw [Env.reach, h]
  rfl

/-- **A write that is killed as it begins does nothing.** -/
theorem Write.code_kill {w : Write} {processed : List ProcessedRow} {batchId : ℤ}
    (h : ∀ site : Site, site.write = some w → env.signal site = .kill) (s : Sinks) :
    code env processed batchId w s = (.halted, s) := by
  cases w with
  | delta => exact logged_reach_kill (h .delta rfl) _ s
  | alerts => exact logged_reach_kill (h .alertCount rfl) _ s
  | metrics => exact logged_reach_kill (h .metricsAgg rfl) _ s
  | alertRows => exact logged_reach_kill (h .alertRows rfl) _ s
  | health => exact logged_reach_kill (h .healthRows rfl) _ s
  | model => exact logged_reach_kill (h .modelCount rfl) _ s

/-! ### Fresh identifiers -/

/-- Identifiers drawn after those of the table are fresh, and every row is inserted. -/
theorem insertAlerts_of_fresh (rows : List ProcessedRow) {n : ℕ} {table : List AlertRow}
    (h : ∀ row ∈ table, row.alertId < n) :
    insertAlerts (rows.zipIdx n) table
      = table ++ (rows.zipIdx n).map fun r => sparkAlertRow r.2 r.1 := by
  induction rows generalizing n table with
  | nil => simp [insertAlerts]
  | cons row rows ih =>
    -- what the induction carries: the next identifier is ahead of the table
    have hnext : ∀ r ∈ table ++ [sparkAlertRow n row], r.alertId < n + 1 := by
      intro r hr
      rcases List.mem_append.mp hr with hr | hr
      · exact Nat.lt_succ_of_lt (h r hr)
      · rw [List.mem_singleton.mp hr]
        exact Nat.lt_succ_self n
    have hrest : insertAlerts ((row :: rows).zipIdx n) table
        = insertAlerts (rows.zipIdx (n + 1)) (table ++ [sparkAlertRow n row]) := by
      rw [List.zipIdx_cons, insertAlerts, List.foldl_cons, Sql.insertOrIgnore_of_lt h]
      rfl
    rw [hrest, ih hnext, List.zipIdx_cons, List.map_cons, List.append_assoc, List.singleton_append]

end AiopsLog
