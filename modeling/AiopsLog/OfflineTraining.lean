import AiopsLog.AnomalyCluster
import AiopsLog.Lib.Code

/-!
# Training again, offline

The script `train_model` fits the same pipeline outside the streaming job, by default on
what the job has appended to `processed_logs`: `load_training_data` reads the table and
`train` fits, picks an anomaly cluster and evaluates it.

`train` picks the cluster with the highest mean of a column, as the streaming job does –
but of another column. A row of `processed_logs` carries the label of its line as
`label_original`, and as `is_anomaly` the prediction of the model that scored it; `train`
reads the latter and calls it the ground truth. So it picks the cluster the earlier model
flagged most, which is the one with the most anomalous lines exactly where predictions
and labels agree on which clusters are densest (`AiopsLog.train_selects_iff`).
-/

namespace AiopsLog

open Py

/-! ### The data -/

/-- A row of the frame that is read. Its other columns are carried along and used by
nothing here. -/
structure SourceRow where
  message : Option String
  isAnomaly : Option ℤ
  labelOriginal : Option ℤ
  deriving DecidableEq

/-- A row to train on: it has a message. -/
structure TrainingRow where
  message : String
  isAnomaly : Option ℤ
  labelOriginal : Option ℤ
  deriving DecidableEq

/-- A data frame: the names of its columns, and its rows. -/
structure Frame (ρ : Type) where
  columns : List String
  rows : List ρ

/-- The columns of `processed_logs`, as `process` selects them. -/
def processedColumns : List String :=
  ["event_id", "event_time", "host", "component", "severity", "message", "log_date", "cluster",
    "is_anomaly", "anomaly_score", "label_original", "ingested_at", "processed_at"]

/-- `spark.read.format("delta").load(path)` of the table `processed_logs`. -/
def readProcessedLogs (table : List (ProcessedRow × Uuid)) : Frame SourceRow where
  columns := processedColumns
  rows := table.map fun r => ⟨some r.1.message, some r.1.isAnomaly, r.1.labelOriginal⟩

/-- The columns the pipeline will create. -/
def columnsToDrop : List String :=
  ["cluster", "tokens", "raw_features", "tfidf_features", "features", "anomaly_score"]

/-- A row passes the filter on the message where it is neither null nor empty. -/
def SourceRow.toTraining (row : SourceRow) : Option TrainingRow :=
  (row.message.filter (·.length > 0)).map fun message => ⟨message, row.isAnomaly, row.labelOriginal⟩

/-- `load_training_data`, from the frame that is read on; none where no row is left and
the script exits. -/
def loadTrainingData (source : Frame SourceRow) : Option (Frame TrainingRow) :=
  let rows := source.rows.filterMap (·.toTraining)
  if rows.length = 0 then none else some ⟨source.columns.removeAll columnsToDrop, rows⟩

/-- The rows of `processed_logs` that are trained on. -/
def trainingRows (table : List (ProcessedRow × Uuid)) : List TrainingRow :=
  (readProcessedLogs table).rows.filterMap (·.toTraining)

/-! ### What Spark ML provides -/

/-- Spark ML, as the script uses it. The pipeline reads the column `message` only. -/
structure TrainerML (Nlp Km Features : Type) where
  /-- `nlp_pipeline.fit`. -/
  fitNlp : List String → Nlp
  /-- `nlp_model.transform`, row by row. -/
  vectorize : Nlp → String → Features
  /-- `kmeans.fit`. -/
  fitKMeans : List Features → Km
  /-- `km_model.transform`, row by row. -/
  predict : Km → Features → ℕ
  /-- `evaluator.evaluate`; none where it raises, as on a single cluster. -/
  silhouette : List (Features × ℕ) → Option ℚ
  /-- `orderBy(F.desc("anomaly_density"))`. -/
  orderByDensity : OrderBy DensityGe
  /-- `orderBy("count")`. -/
  orderByCount : OrderBy CountLe

namespace TrainerML

/-- Models that put a message in a cluster by a fixed rule. -/
def ofRule (rule : String → ℕ) : TrainerML Unit Unit String where
  fitNlp _ := ()
  vectorize _ message := message
  fitKMeans _ := ()
  predict _ message := rule message
  silhouette _ := some 0
  orderByDensity := OrderBy.ofTotal DensityGe densityGe_trans densityGe_total
  orderByCount := OrderBy.ofTotal CountLe countLe_trans countLe_total

variable {Nlp Km Features : Type} (ml : TrainerML Nlp Km Features)

/-- The same models, with other ways of breaking the ties. -/
def withOrders (byDensity : OrderBy DensityGe) (byCount : OrderBy CountLe) :
    TrainerML Nlp Km Features :=
  { ml with orderByDensity := byDensity, orderByCount := byCount }

/-- The fitted text features. -/
def nlpModel (rows : List TrainingRow) : Nlp := ml.fitNlp (rows.map (·.message))

/-- The frame `vectorized`: the features of each row. -/
def vectorized (rows : List TrainingRow) : List Features :=
  rows.map fun row => ml.vectorize (ml.nlpModel rows) row.message

/-- The fitted clustering. -/
def kmModel (rows : List TrainingRow) : Km := ml.fitKMeans (ml.vectorized rows)

/-- The frame `predictions`: each row with its cluster. -/
def predictions (rows : List TrainingRow) : List (TrainingRow × ℕ) :=
  rows.map fun row =>
    (row, ml.predict (ml.kmModel rows) (ml.vectorize (ml.nlpModel rows) row.message))

/-- What the silhouette is computed from. -/
def silhouetteScore (rows : List TrainingRow) : Option ℚ :=
  ml.silhouette ((ml.vectorized rows).map fun v => (v, ml.predict (ml.kmModel rows) v))

end TrainerML

/-! ### `train` -/

/-- The offline evaluation report. -/
structure EvaluationReport where
  total : ℕ
  accuracy : ℚ
  precision : ℚ
  recallScore : ℚ
  f1 : ℚ
  tp : ℕ
  fp : ℕ
  tn : ℕ
  fn : ℕ
  deriving DecidableEq

/-- The frame `eval_df`: the predictions and labels of the labelled rows. -/
def evalPairs (anomalyCluster : ℕ) (predictions : List (TrainingRow × ℕ)) : List (ℕ × ℤ) :=
  predictions.filterMap fun r =>
    r.1.isAnomaly.map fun label => (if r.2 = anomalyCluster then 1 else 0, label)

/-- The report on predictions and labels, if there are any; none where a division raises. -/
def evaluationReport (pairs : List (ℕ × ℤ)) : Option (Option EvaluationReport) :=
  let total := pairs.length
  if total > 0 then do
    let tp := pairs.countP fun p => p.1 = 1 ∧ p.2 = 1
    let fp := pairs.countP fun p => p.1 = 1 ∧ p.2 = 0
    let tn := pairs.countP fun p => p.1 = 0 ∧ p.2 = 0
    let fn := pairs.countP fun p => p.1 = 0 ∧ p.2 = 1
    let accuracy ← divide (tp + tn : ℕ) total
    let precision ← (if tp + fp > 0 then divide tp (tp + fp : ℕ) else some 0)
    let recallScore ← (if tp + fn > 0 then divide tp (tp + fn : ℕ) else some 0)
    let f1 ← (if precision + recallScore > 0 then
        divide (2 * precision * recallScore) (precision + recallScore)
      else some 0)
    return some ⟨total, accuracy, precision, recallScore, f1, tp, fp, tn, fn⟩
  else some none

/-- Its divisions are guarded, that of the accuracy by the branch it is in. -/
theorem exists_evaluationReport (pairs : List (ℕ × ℤ)) :
    ∃ report, evaluationReport pairs = some report := by
  rw [evaluationReport]
  split
  · next htotal =>
    have hne : (pairs.length : ℚ) ≠ 0 := by exact_mod_cast htotal.ne'
    simp only [divide_of_ne hne, guarded_divide_nat, guarded_divide, Option.bind_eq_bind,
      Option.bind_some]
    exact ⟨_, rfl⟩
  · exact ⟨_, rfl⟩

/-- What `train` returns, and the report it logs. -/
structure Training (Nlp Km : Type) where
  nlpModel : Nlp
  kmModel : Km
  anomalyCluster : ℕ
  report : Option EvaluationReport

variable {Nlp Km Features : Type}

/-- The anomaly cluster of `train`; none where the frame has no rows. -/
def TrainerML.anomalyCluster (ml : TrainerML Nlp Km Features) (df : Frame TrainingRow) :
    Option ℕ :=
  if "is_anomaly" ∈ df.columns then
    ((ml.orderByDensity.sort (densities (·.isAnomaly) (ml.predictions df.rows))).head?).map Prod.fst
  else
    ((ml.orderByCount.sort (sizes (ml.predictions df.rows))).head?).map Prod.fst

/-- `train`; none where it raises. -/
def train (ml : TrainerML Nlp Km Features) (df : Frame TrainingRow) : Option (Training Nlp Km) := do
  let _silhouette ← ml.silhouetteScore df.rows
  let anomalyCluster ← ml.anomalyCluster df
  let report ← (if "is_anomaly" ∈ df.columns then
      evaluationReport (evalPairs anomalyCluster (ml.predictions df.rows))
    else some none)
  return {
    nlpModel := ml.nlpModel df.rows
    kmModel := ml.kmModel df.rows
    anomalyCluster := anomalyCluster
    report := report }

/-- `main`, up to the models it saves: load the table and train. -/
def trainOnProcessedLogs (ml : TrainerML Nlp Km Features) (table : List (ProcessedRow × Uuid)) :
    Option (Training Nlp Km) :=
  (loadTrainingData (readProcessedLogs table)).bind (train ml)

/-! ### Which cluster it picks -/

section Selects

variable {ml : TrainerML Nlp Km Features} {table : List (ProcessedRow × Uuid)}

/-- The table always has the column `is_anomaly`, and the first of the densities by that
column is the cluster picked – if there is a row, and the silhouette can be computed. -/
theorem exists_training_iff {c : ℕ} :
    (∃ r, trainOnProcessedLogs ml table = some r ∧ r.anomalyCluster = c) ↔
      (ml.silhouetteScore (trainingRows table)).isSome ∧
        ∃ x, (ml.orderByDensity.sort (densities (·.isAnomaly)
          (ml.predictions (trainingRows table)))).head? = some x ∧ x.1 = c := by
  have hcolumn : "is_anomaly" ∈ processedColumns.removeAll columnsToDrop := by decide
  have hcluster : ml.anomalyCluster
        ⟨(readProcessedLogs table).columns.removeAll columnsToDrop, trainingRows table⟩
      = ((ml.orderByDensity.sort (densities (·.isAnomaly)
          (ml.predictions (trainingRows table)))).head?).map Prod.fst := if_pos hcolumn
  rw [trainOnProcessedLogs, loadTrainingData, ← trainingRows]
  by_cases hempty : (trainingRows table).length = 0
  · -- the script exits, and an empty table has no densities
    rw [if_pos hempty, List.length_eq_zero_iff.mp hempty]
    refine iff_of_false (fun ⟨r, h, _⟩ => nomatch h) fun ⟨_, x, hx, _⟩ => ?_
    exact absurd (ml.orderByDensity.mem_sort.mp (List.mem_of_head? hx)) List.not_mem_nil
  · rw [if_neg hempty, Option.bind_some, train]
    rcases ml.silhouetteScore (trainingRows table) with _ | score
    · refine iff_of_false (fun ⟨r, h, _⟩ => nomatch h) fun ⟨h, _⟩ => nomatch h
    · simp only [hcluster, Option.isSome_some, true_and, Option.bind_eq_bind, Option.bind_some]
      constructor
      · rintro ⟨r, htrain, rfl⟩
        obtain ⟨c, hhead, hrest⟩ := Option.bind_eq_some_iff.mp htrain
        obtain ⟨x, hx, rfl⟩ := Option.map_eq_some_iff.mp hhead
        obtain ⟨report, -, hr⟩ := Option.bind_eq_some_iff.mp hrest
        obtain rfl := Option.some_injective _ hr
        exact ⟨x, hx, rfl⟩
      · rintro ⟨x, hx, rfl⟩
        obtain ⟨report, hreport⟩ :=
          exists_evaluationReport (evalPairs x.1 (ml.predictions (trainingRows table)))
        have hcolumn' : "is_anomaly" ∈ (readProcessedLogs table).columns.removeAll columnsToDrop :=
          hcolumn
        rw [hx, Option.map_some, Option.bind_some, if_pos hcolumn', hreport]
        exact ⟨_, rfl, rfl⟩

/-- **When the offline trainer follows the labels**: whichever way the ties fall, the
cluster it picks from `processed_logs` has the highest mean `label_original`, if and only
if every cluster of the table with the highest mean *prediction* has, or nothing is
picked because the silhouette cannot be computed. -/
theorem train_selects_iff (ml : TrainerML Nlp Km Features) (table : List (ProcessedRow × Uuid)) :
    (∀ byDensity byCount r,
        trainOnProcessedLogs (ml.withOrders byDensity byCount) table = some r →
          Densest (·.labelOriginal) (ml.predictions (trainingRows table)) r.anomalyCluster)
      ↔ ml.silhouetteScore (trainingRows table) = none ∨
        ∀ c, Densest (·.isAnomaly) (ml.predictions (trainingRows table)) c →
          Densest (·.labelOriginal) (ml.predictions (trainingRows table)) c := by
  have hpicked : (∀ byDensity byCount r,
      trainOnProcessedLogs (ml.withOrders byDensity byCount) table = some r →
        Densest (·.labelOriginal) (ml.predictions (trainingRows table)) r.anomalyCluster) ↔
      ((ml.silhouetteScore (trainingRows table)).isSome → ∀ byDensity : OrderBy DensityGe, ∀ x,
        (byDensity.sort (densities (·.isAnomaly)
          (ml.predictions (trainingRows table)))).head? = some x →
        Densest (·.labelOriginal) (ml.predictions (trainingRows table)) x.1) := by
    constructor
    · intro h hscore byDensity x hx
      have htraining : ∃ r, trainOnProcessedLogs (ml.withOrders byDensity ml.orderByCount) table
          = some r ∧ r.anomalyCluster = x.1 := exists_training_iff.mpr ⟨hscore, x, hx, rfl⟩
      obtain ⟨r, htrain, hr⟩ := htraining
      exact hr ▸ h byDensity ml.orderByCount r htrain
    · intro h byDensity byCount r htrain
      obtain ⟨hscore, x, hx, hr⟩ := exists_training_iff.mp ⟨r, htrain, rfl⟩
      exact hr ▸ h hscore byDensity x hx
  rw [hpicked, forall_densest_iff, Option.isSome_iff_ne_none]
  exact imp_iff_not_or.trans (or_congr_left not_not)

end Selects

/-! ### A table the two disagree on -/

/-- A log row with a label. -/
def labelledRow (message : String) (label : ℤ) : LogRow :=
  { bareRow "KERNEL" with message := message, labelOriginal := some label }

/-- Two lines as the job appends them when cluster 0 counts as anomalous: a normal line
in cluster 0, and an anomalous one in cluster 1. -/
def crossedLogs : List (ProcessedRow × Uuid) :=
  [(processedRow 0 (labelledRow "ok" 0) 0, 0), (processedRow 0 (labelledRow "disk failure" 1) 1, 1)]

/-- Messages keep the clusters the job has put them in. -/
def crossedTrainer : TrainerML Unit Unit String :=
  TrainerML.ofRule fun message => if message = "ok" then 0 else 1

/-- **The offline trainer picks the cluster of the normal line**, because the earlier
model had flagged it. -/
theorem not_densest_crossedLogs :
    (trainOnProcessedLogs crossedTrainer crossedLogs).map (·.anomalyCluster) = some 0 ∧
      ¬Densest (·.labelOriginal) (crossedTrainer.predictions (trainingRows crossedLogs)) 0 := by
  refine ⟨by decide +kernel, fun h => ?_⟩
  have hge := h.ge 1 ⟨_, List.mem_of_mem_getLast? (by rfl), by rfl⟩
  exact absurd hge (by decide +kernel)

end AiopsLog
