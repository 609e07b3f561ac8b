import AiopsLog.Alert
import AiopsLog.Lib.Code
import AiopsLog.Lib.GroupBy
import AiopsLog.Lib.Nullable
import AiopsLog.Lib.Rounding
import AiopsLog.Lib.Table

/-!
# The sinks of a batch

The six writes a batch ends in: the Delta table `processed_logs`, the topic
`critical-alerts`, and the Postgres tables `batch_metrics`, `anomaly_alerts_pg`,
`component_health` and `model_metrics`. Each is a block of code over the state of all
of them (`AiopsLog.Sinks`).

What the outside world answers is an environment (`AiopsLog.Env`): at each place where
a call leaves the process – a Spark action, a connection, a statement, a commit – it
lets the call through, makes it raise, or kills the process there.

Two tables are typed by their constraints. A row of `batch_metrics` has a date, since
`log_date` is `NOT NULL`; an aggregate without one is a `AiopsLog.MetricsAgg` no
`AiopsLog.BatchMetric` comes from. Columns a table fills in by itself and no query here
reads (serial numbers, `now()`) are left out.
-/

namespace AiopsLog

open Py Py.Code

/-! ### The tables -/

/-- A row of the aggregate `_write_postgres` computes. -/
structure MetricsAgg where
  component : String
  logDate : Option Date
  severity : Option String
  totalEvents : ℕ
  anomalyCount : ℕ
  deriving DecidableEq

/-- A row of `batch_metrics`. -/
structure BatchMetric where
  component : String
  logDate : Date
  severity : Option String
  totalEvents : ℕ
  anomalyCount : ℕ
  deriving DecidableEq

/-- The constraints of `batch_metrics`: the row an aggregate becomes, none where
`log_date` is null. -/
def MetricsAgg.accept (agg : MetricsAgg) : Option BatchMetric :=
  agg.logDate.map fun logDate =>
    ⟨agg.component, logDate, agg.severity, agg.totalEvents, agg.anomalyCount⟩

/-- The values of `component_health.status`. -/
inductive Status where
  | unknown : Status
  | healthy : Status
  | warning : Status
  | critical : Status
  deriving DecidableEq, Repr

/-- A row of `component_health`. -/
structure HealthRow where
  component : String
  totalEvents : ℕ
  totalAnomalies : ℕ
  errorRatePct : Option ℚ
  lastSeen : Option Timestamp
  status : Status
  deriving DecidableEq

/-- A row of `model_metrics`. -/
structure ModelMetric where
  batchId : ℤ
  totalCount : ℕ
  accuracy : ℚ
  precisionScore : ℚ
  recallScore : ℚ
  f1Score : ℚ
  truePositives : ℕ
  falsePositives : ℕ
  trueNegatives : ℕ
  falseNegatives : ℕ
  deriving DecidableEq

/-- The state of every sink, and how many identifiers have been drawn. -/
structure Sinks where
  uuids : ℕ
  processedLogs : List (ProcessedRow × Uuid)
  criticalAlerts : List Json
  batchMetrics : List BatchMetric
  anomalyAlertsPg : List AlertRow
  componentHealth : List HealthRow
  modelMetrics : List ModelMetric

/-- The rows `init.sql` seeds `component_health` with. -/
def seededHealth : List HealthRow :=
  ["RAS", "KERNEL", "APP", "MMCS", "LINKCARD"].map fun component =>
    ⟨component, 0, 0, none, none, .unknown⟩

/-- The sinks as the deployment creates them. -/
def Sinks.initial : Sinks := ⟨0, [], [], [], [], seededHealth, []⟩

/-! ### The environment -/

/-- The places where a call of `process` leaves the process, in the order they are
reached. -/
inductive Site where
  | count : Site
  | cache : Site
  | train : Site
  | transform : Site
  | select : Site
  | delta : Site
  | alertCount : Site
  | publish : Site
  | metricsAgg : Site
  | metricsJdbc : Site
  | alertRows : Site
  | alertConnect : Site
  | alertAdapt : ℕ → Site
  | alertInsert : ℕ → Site
  | alertCommit : Site
  | healthRows : Site
  | healthConnect : Site
  | healthUpsert : ℕ → Site
  | healthCommit : Site
  | modelCount : Site
  | modelAgg : Site
  | modelConnect : Site
  | modelInsert : Site
  | modelCommit : Site
  | unpersist : Site
  deriving DecidableEq, Repr

/-- What the environment does at a site. -/
inductive Signal where
  /-- The call goes through. -/
  | ok : Signal
  /-- The call raises. -/
  | error : Signal
  /-- The process is killed before the call. -/
  | kill : Signal
  deriving DecidableEq, Repr

/-- The environment of one call of `process`. -/
structure Env where
  /-- What happens at each site. -/
  signal : Site → Signal
  /-- How many alerts a failing publication gets out. -/
  published : ℕ
  /-- Which rows lie in a partition that commits although the append is rejected. -/
  commits : BatchMetric → Bool
  /-- Spark's rendering of a timestamp as a string. -/
  castString : Timestamp → String

variable {σ : Type} (env : Env)

/-- Reach a site. -/
def Env.reach (site : Site) : Code σ Unit :=
  match env.signal site with
  | .ok => pure ()
  | .error => raise .error
  | .kill => halt

/-- Make a call in a `try` of its own: whether it raises. -/
def Env.raises (site : Site) : Code σ Bool :=
  match env.signal site with
  | .ok => pure false
  | .error => pure true
  | .kill => halt

/-! ### Cold path: `_write_delta` -/

/-- Append a frame to `processed_logs`, drawing the identifier of each row. The append
is one Delta commit: it happens whole or not at all. -/
def writeDelta (df : List ProcessedRow) : Code Sinks Unit := do
  env.reach .delta
  update fun s => { s with
    uuids := s.uuids + df.length
    processedLogs := s.processedLogs ++ df.zipIdx s.uuids }

/-! ### Hot path: `_publish_alerts` -/

/-- Publish the alerts of a frame. A publication that fails has got some of them out. -/
def publishAlerts (anomalies : List ProcessedRow) : Code Sinks Unit :=
  let alerts := anomalies.map (alertJson env.castString)
  match env.signal .publish with
  | .ok => update fun s => { s with criticalAlerts := s.criticalAlerts ++ alerts }
  | .error => do
    update fun s => { s with
      criticalAlerts := s.criticalAlerts ++ alerts.take env.published }
    raise .error
  | .kill => halt

/-! ### Sync path: `_write_postgres` -/

/-- The columns `_write_postgres` groups by. -/
def metricsKey (r : ProcessedRow) : String × Option Date × Option String :=
  (r.component, r.logDate, r.severity)

/-- The aggregate by component, date and severity. -/
def metricsAgg (df : List ProcessedRow) : List MetricsAgg :=
  (Bag.groupBy metricsKey df).map fun g =>
    ⟨g.1.1, g.1.2.1, g.1.2.2, g.2.length, (g.2.map (·.isAnomaly)).sum⟩

/-- Append aggregates to `batch_metrics`. Each partition is a transaction of its own:
where a row is rejected the append raises, having committed some of the others. -/
def appendMetrics (agg : List MetricsAgg) : Code Sinks Unit :=
  if agg.all (·.accept.isSome) then
    update fun s => { s with batchMetrics := s.batchMetrics ++ agg.filterMap (·.accept) }
  else do
    update fun s => { s with
      batchMetrics := s.batchMetrics ++ (agg.filterMap (·.accept)).filter env.commits }
    raise .error

/-- `_write_postgres`. -/
def writePostgres (df : List ProcessedRow) : Code Sinks Unit := do
  env.reach .metricsAgg
  exceptException (do env.reach .metricsJdbc; appendMetrics env (metricsAgg df)) (pure ())

/-! ### `_write_anomaly_alerts_pg` -/

/-- The statements of the row loop, each in its own `try`: a row the server rejects fails
the transaction, while of one that psycopg2 cannot render the transaction never hears; the
loop goes on either way. -/
def insertAlertRows : List (ProcessedRow × ℕ) → Sql.Txn (List AlertRow) × ℕ →
    Code Sinks (Sql.Txn (List AlertRow) × ℕ)
  | [], acc => pure acc
  | (row, i) :: rows, (txn, inserted) => do
    -- drawn before the statement is sent: a row that fails uses an identifier up
    let alertId ← read (·.uuids)
    update fun s => { s with uuids := s.uuids + 1 }
    let unsent ← env.raises (.alertAdapt i)
    if unsent then insertAlertRows rows (txn, inserted)
    else do
      let rejected ← env.raises (.alertInsert i)
      let (accepted, txn) := txn.execute fun table =>
        if rejected then none
        else some (Sql.insertOrIgnore (·.alertId) (sparkAlertRow alertId row) table)
      insertAlertRows rows (txn, if accepted then inserted + 1 else inserted)

/-- `_write_anomaly_alerts_pg`. -/
def writeAnomalyAlertsPg (anomalies : List ProcessedRow) : Code Sinks Unit := do
  env.reach .alertRows
  if anomalies = [] then pure ()
  else exceptException (do
    env.reach .alertConnect
    let table ← read (·.anomalyAlertsPg)
    let (txn, _) ← insertAlertRows env anomalies.zipIdx (Sql.Txn.start table, 0)
    env.reach .alertCommit
    update fun s => { s with anomalyAlertsPg := txn.commit }) (pure ())

/-! ### `_update_component_health` -/

/-- A row of the aggregate by component. -/
structure HealthAgg where
  component : String
  totalEvents : ℕ
  totalAnomalies : ℕ
  lastSeen : Option Timestamp
  deriving DecidableEq

/-- The aggregate by component. -/
def healthAgg (df : List ProcessedRow) : List HealthAgg :=
  (Bag.groupBy (·.component) df).map fun g =>
    ⟨g.1, g.2.length, (g.2.map (·.isAnomaly)).sum, Nullable.maximum (g.2.map (·.eventTime))⟩

/-- The error rate of a number of events, in percent to two decimals. -/
def errorRate (totalAn totalEv : ℕ) : ℚ :=
  if totalEv > 0 then Rounding.toDigits Rounding.halfEven 2 (totalAn / totalEv * 100) else 0

/-- The status an error rate stands for. -/
def statusOf (errorRate : ℚ) : Status :=
  if errorRate > 10 then .critical else if errorRate > 2 then .warning else .healthy

/-- The row the upsert proposes. -/
def healthRow (agg : HealthAgg) : HealthRow where
  component := agg.component
  totalEvents := agg.totalEvents
  totalAnomalies := agg.totalAnomalies
  errorRatePct := some (errorRate agg.totalAnomalies agg.totalEvents)
  lastSeen := agg.lastSeen
  status := statusOf (errorRate agg.totalAnomalies agg.totalEvents)

/-- `DO UPDATE SET`: the totals are added, the rate and the status are those of the
proposed row. -/
def mergeHealth (stored excluded : HealthRow) : HealthRow where
  component := stored.component
  totalEvents := stored.totalEvents + excluded.totalEvents
  totalAnomalies := stored.totalAnomalies + excluded.totalAnomalies
  errorRatePct := excluded.errorRatePct
  lastSeen := max stored.lastSeen excluded.lastSeen
  status := excluded.status

/-- The upsert of one aggregate row. -/
def upsertHealth (agg : HealthAgg) (table : List HealthRow) : List HealthRow :=
  Sql.upsert (·.component) mergeHealth (healthRow agg) table

/-- The statements of the row loop; the first that fails ends it. -/
def upsertHealthRows : List (HealthAgg × ℕ) → Sql.Txn (List HealthRow) →
    Code Sinks (Sql.Txn (List HealthRow))
  | [], txn => pure txn
  | (agg, i) :: rows, txn => do
    env.reach (.healthUpsert i)
    upsertHealthRows rows (txn.execute fun table => some (upsertHealth agg table)).2

/-- `_update_component_health`. -/
def updateComponentHealth (df : List ProcessedRow) : Code Sinks Unit := do
  env.reach .healthRows
  let rows := healthAgg df
  if rows = [] then pure ()
  else exceptException (do
    env.reach .healthConnect
    let table ← read (·.componentHealth)
    let txn ← upsertHealthRows env rows.zipIdx (Sql.Txn.start table)
    env.reach .healthCommit
    update fun s => { s with componentHealth := txn.commit }) (pure ())

/-! ### `_write_model_metrics` -/

/-- The rows whose ground truth is known. -/
def evalRows (processed : List ProcessedRow) : List ProcessedRow :=
  processed.filter (·.labelOriginal.isSome)

/-- How many rows have a prediction and a label. -/
def confusion (predicted : ℕ) (label : ℤ) (rows : List ProcessedRow) : ℕ :=
  rows.countP fun r => r.isAnomaly = predicted ∧ r.labelOriginal = some label

/-- The row `_write_model_metrics` writes for a batch with labelled rows; none where a
division raises. -/
def modelMetric (processed : List ProcessedRow) (batchId : ℤ) : Option ModelMetric := do
  let evalDf := evalRows processed
  let total := evalDf.length
  let tp := confusion 1 1 evalDf
  let fp := confusion 1 0 evalDf
  let tn := confusion 0 0 evalDf
  let fn := confusion 0 1 evalDf
  let accuracy ← (if total > 0 then divide (tp + tn : ℕ) total else some 0)
  let precision ← (if tp + fp > 0 then divide tp (tp + fp : ℕ) else some 0)
  let recallScore ← (if tp + fn > 0 then divide tp (tp + fn : ℕ) else some 0)
  let f1 ← (if precision + recallScore > 0 then
      divide (2 * precision * recallScore) (precision + recallScore)
    else some 0)
  return {
    batchId := batchId
    totalCount := total
    accuracy := accuracy
    precisionScore := precision
    recallScore := recallScore
    f1Score := f1
    truePositives := tp
    falsePositives := fp
    trueNegatives := tn
    falseNegatives := fn }

/-- All of its divisions are guarded. -/
theorem exists_modelMetric (processed : List ProcessedRow) (batchId : ℤ) :
    ∃ metric, modelMetric processed batchId = some metric := by
  simp only [modelMetric, guarded_divide_nat, guarded_divide, Option.bind_eq_bind,
    Option.bind_some]
  exact ⟨_, rfl⟩

/-- `_write_model_metrics`. -/
def writeModelMetrics (processed : List ProcessedRow) (batchId : ℤ) : Code Sinks Unit := do
  -- the count and the aggregate are outside the `try` of the insert
  env.reach .modelCount
  if (evalRows processed).length = 0 then pure ()
  else do
    env.reach .modelAgg
    match modelMetric processed batchId with
    | none => raise .error
    | some metric =>
      exceptException (do
        env.reach .modelConnect
        env.reach .modelInsert
        env.reach .modelCommit
        update fun s => { s with modelMetrics := s.modelMetrics ++ [metric] }) (pure ())

/-! ### All of them, in order -/

/-- A step of `process` in its own `try`: what it raises is logged. -/
def logged (step : Code Sinks Unit) : Code Sinks Unit := exceptException step (pure ())

/-- The sink writes of `process`. -/
def writeSinks (processed : List ProcessedRow) (batchId : ℤ) : Code Sinks Unit := do
  logged (writeDelta env processed)
  logged (do
    env.reach .alertCount
    if (anomaliesOf processed).length > 0 then publishAlerts env (anomaliesOf processed))
  logged (writePostgres env processed)
  logged (writeAnomalyAlertsPg env (anomaliesOf processed))
  logged (updateComponentHealth env processed)
  logged (writeModelMetrics env processed batchId)

end AiopsLog
