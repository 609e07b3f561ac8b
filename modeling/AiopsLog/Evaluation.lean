import AiopsLog.Lib.Classification
import AiopsLog.OfflineTraining
import AiopsLog.SinkEffects

/-!
# The evaluation of the predictions

Predictions are compared with labels twice: `_write_model_metrics` does it for every
batch, on the rows whose `label_original` is known, and `train` does it for its report,
on the rows whose `is_anomaly` is known. Both count the four combinations of a
prediction and a label and derive the same four metrics from them, in two copies of the
code.

Here the two copies are reduced to one: to the counts (`AiopsLog.confusionOf`) and the
metrics (`Confusion`) of a list of predictions and labels. Predictions and labels are 0
or 1, so each pair is in exactly one of the four combinations and the counts add up to
the number of pairs.
-/

namespace AiopsLog

open Py Py.Code

/-! ### Predictions and labels -/

/-- The counts of a list of predictions and labels. -/
def confusionOf (pairs : List (ℕ × ℤ)) : Confusion where
  tp := pairs.countP fun p => p.1 = 1 ∧ p.2 = 1
  fp := pairs.countP fun p => p.1 = 1 ∧ p.2 = 0
  tn := pairs.countP fun p => p.1 = 0 ∧ p.2 = 0
  fn := pairs.countP fun p => p.1 = 0 ∧ p.2 = 1

/-- Predictions and labels are 0 or 1. -/
def Binary (pairs : List (ℕ × ℤ)) : Prop := ∀ p ∈ pairs, p.1 ≤ 1 ∧ (p.2 = 0 ∨ p.2 = 1)

/-- The counts add up pair by pair. -/
theorem total_confusionOf_cons (p : ℕ × ℤ) (pairs : List (ℕ × ℤ)) :
    (confusionOf (p :: pairs)).total
      = (confusionOf [p]).total + (confusionOf pairs).total := by
  simp only [Confusion.total, confusionOf, List.countP_cons, List.countP_nil]
  omega

/-- **The four combinations partition the pairs.** -/
theorem total_confusionOf {pairs : List (ℕ × ℤ)} (h : Binary pairs) :
    (confusionOf pairs).total = pairs.length := by
  induction pairs with
  | nil => rfl
  | cons p pairs ih =>
    obtain ⟨⟨hpredicted, hlabel⟩, hpairs⟩ := List.forall_mem_cons.mp h
    -- one pair is in exactly one of them
    have hone : (confusionOf [p]).total = 1 := by
      obtain ⟨predicted, label⟩ := p
      obtain rfl | rfl : predicted = 0 ∨ predicted = 1 :=
        Nat.le_one_iff_eq_zero_or_eq_one.mp hpredicted
      · rcases hlabel with rfl | rfl <;> rfl
      · rcases hlabel with rfl | rfl <;> rfl
    rw [total_confusionOf_cons, hone, ih hpairs, List.length_cons, Nat.add_comm]

/-- The pairs of a batch: the rows whose label is known. -/
def batchPairs (processed : List ProcessedRow) : List (ℕ × ℤ) :=
  processed.filterMap fun r => r.labelOriginal.map fun label => (r.isAnomaly, label)

/-- Counting among the labelled rows is counting pairs. -/
theorem confusion_evalRows (predicted : ℕ) (label : ℤ) (processed : List ProcessedRow) :
    confusion predicted label (evalRows processed)
      = (batchPairs processed).countP fun p => p.1 = predicted ∧ p.2 = label := by
  rw [confusion, evalRows, List.countP_filter, batchPairs, List.countP_filterMap]
  refine List.countP_congr fun r _ => ?_
  rcases r.labelOriginal with _ | l <;> simp

theorem length_batchPairs (processed : List ProcessedRow) :
    (batchPairs processed).length = (evalRows processed).length := by
  rw [batchPairs, evalRows, List.length_filterMap_eq_countP, ← List.countP_eq_length_filter]
  simp

theorem binary_batchPairs {processed : List ProcessedRow} (hscored : Scored processed)
    (hlabels : ∀ r ∈ processed, ∀ l, r.labelOriginal = some l → l = 0 ∨ l = 1) :
    Binary (batchPairs processed) := by
  intro p hp
  obtain ⟨r, hr, hpair⟩ := List.mem_filterMap.mp hp
  obtain ⟨l, hl, rfl⟩ := Option.map_eq_some_iff.mp hpair
  exact ⟨hscored r hr, hlabels r hr l hl⟩

/-! ### The two copies -/

/-- The division of the accuracy does not raise where there is a pair. -/
theorem divide_accuracy {pairs : List (ℕ × ℤ)} (hbinary : Binary pairs) (hne : pairs ≠ []) :
    divide ((confusionOf pairs).tp + (confusionOf pairs).tn : ℕ) pairs.length
      = some (confusionOf pairs).accuracy := by
  have hpos : 0 < pairs.length := List.length_pos_iff.mpr hne
  rw [divide_of_ne (by exact_mod_cast hpos.ne'), Confusion.accuracy, total_confusionOf hbinary]

/-- **The metrics of a batch** are those of its predictions and labels; no division raises. -/
theorem modelMetric_eq {processed : List ProcessedRow} (hbinary : Binary (batchPairs processed))
    (batchId : ℤ) :
    modelMetric processed batchId =
      let c := confusionOf (batchPairs processed)
      some ⟨batchId, (batchPairs processed).length, c.accuracy, c.precision, c.recallScore, c.f1,
        c.tp, c.fp, c.tn, c.fn⟩ := by
  have haccuracy : (if (batchPairs processed).length > 0 then
        (((confusionOf (batchPairs processed)).tp + (confusionOf (batchPairs processed)).tn : ℕ)
          / (batchPairs processed).length : ℚ) else 0)
      = (confusionOf (batchPairs processed)).accuracy := by
    rw [Confusion.accuracy, total_confusionOf hbinary]
    split
    · rfl
    · next h =>
      have hzero : (batchPairs processed).length = 0 := by omega
      simp [hzero]
  dsimp only
  rw [← haccuracy]
  simp only [modelMetric, confusion_evalRows, ← length_batchPairs, guarded_divide_nat,
    guarded_divide, Option.bind_eq_bind, Option.bind_some]
  rfl

/-- **The offline report** is that of its predictions and labels; no division raises, although
one is not guarded. -/
theorem evaluationReport_eq {pairs : List (ℕ × ℤ)} (hbinary : Binary pairs) :
    evaluationReport pairs =
      let c := confusionOf pairs
      some (if pairs = [] then none
        else some ⟨pairs.length, c.accuracy, c.precision, c.recallScore, c.f1, c.tp, c.fp, c.tn,
          c.fn⟩) := by
  by_cases hnil : pairs = []
  · rw [hnil]
    rfl
  · have haccuracy := divide_accuracy hbinary hnil
    dsimp only [confusionOf] at haccuracy ⊢
    rw [if_neg hnil, evaluationReport, if_pos (List.length_pos_iff.mpr hnil)]
    simp only [haccuracy, guarded_divide_nat, guarded_divide, Option.bind_eq_bind,
      Option.bind_some]
    rfl

/-! ### A correct evaluation -/

/-- What an evaluation has to satisfy, as counts and metrics. -/
structure CorrectEvaluation (total : ℕ) (c : Confusion) (accuracy precision recallScore f1 : ℚ) :
    Prop where
  partition : c.tp + c.fp + c.tn + c.fn = total
  accuracy_mem : 0 ≤ accuracy ∧ accuracy ≤ 1
  precision_mem : 0 ≤ precision ∧ precision ≤ 1
  recallScore_mem : 0 ≤ recallScore ∧ recallScore ≤ 1
  f1_mem : 0 ≤ f1 ∧ f1 ≤ 1
  accuracy_eq_one : accuracy = 1 ↔ c.fp = 0 ∧ c.fn = 0
  f1_eq_zero : f1 = 0 ↔ c.tp = 0
  f1_eq : 0 < c.tp → f1 = 2 * c.tp / (2 * c.tp + c.fp + c.fn)
  f1_between : min precision recallScore ≤ f1 ∧ f1 ≤ max precision recallScore

theorem correctEvaluation_confusionOf {pairs : List (ℕ × ℤ)} (hbinary : Binary pairs)
    (hne : pairs ≠ []) :
    CorrectEvaluation pairs.length (confusionOf pairs) (confusionOf pairs).accuracy
      (confusionOf pairs).precision (confusionOf pairs).recallScore (confusionOf pairs).f1 where
  partition := total_confusionOf hbinary
  accuracy_mem := Confusion.accuracy_mem _
  precision_mem := Confusion.precision_mem _
  recallScore_mem := Confusion.recallScore_mem _
  f1_mem := Confusion.f1_mem _
  accuracy_eq_one := Confusion.accuracy_eq_one_iff _ (by
    rw [total_confusionOf hbinary]
    exact List.length_pos_iff.mpr hne)
  f1_eq_zero := Confusion.f1_eq_zero_iff _
  f1_eq h := by
    rw [Confusion.f1_eq h]
    push_cast
    rfl
  f1_between := Confusion.f1_mem_between _

/-- The counts of a row of `model_metrics`. -/
def ModelMetric.confusion (m : ModelMetric) : Confusion :=
  ⟨m.truePositives, m.falsePositives, m.trueNegatives, m.falseNegatives⟩

theorem confusionOf_perm {pairs pairs' : List (ℕ × ℤ)} (h : pairs.Perm pairs') :
    confusionOf pairs = confusionOf pairs' := by
  simp only [confusionOf, h.countP_eq]

/-- The number of rows whose label is known. -/
def labelledCount (processed : List ProcessedRow) : ℕ :=
  processed.countP (·.labelOriginal.isSome)

/-- A call of `_write_model_metrics` evaluates its batch correctly, and the offline
report agrees. -/
structure CorrectlyEvaluated (env : Env) (processed : List ProcessedRow) (batchId : ℤ) (s : Sinks)
    (m : ModelMetric) : Prop where
  /-- No division raises. -/
  metric : modelMetric processed batchId = some m
  /-- One row is written if some label is known, and nothing otherwise. -/
  written : writeModelMetrics env processed batchId s
    = (.done (), { s with
        modelMetrics := s.modelMetrics ++ if labelledCount processed = 0 then [] else [m] })
  total : labelledCount processed ≠ 0 → m.totalCount = labelledCount processed
  correct : labelledCount processed ≠ 0 → CorrectEvaluation m.totalCount m.confusion m.accuracy
    m.precisionScore m.recallScore m.f1Score
  /-- The offline report on the same predictions and labels, in any order; nor does a division
  of it raise, although one is not guarded. -/
  offline : ∀ anomalyCluster predictions,
    (evalPairs anomalyCluster predictions).Perm (batchPairs processed) →
      evaluationReport (evalPairs anomalyCluster predictions)
        = some (if labelledCount processed = 0 then none else some ⟨m.totalCount, m.accuracy,
            m.precisionScore, m.recallScore, m.f1Score, m.truePositives, m.falsePositives,
            m.trueNegatives, m.falseNegatives⟩)

/-- **The metrics are a correct evaluation**, of every batch whose predictions and labels
are 0 or 1, with the database reachable. -/
theorem writeModelMetrics_correct {processed : List ProcessedRow} (hscored : Scored processed)
    (hlabels : ∀ r ∈ processed, ∀ l, r.labelOriginal = some l → l = 0 ∨ l = 1) (batchId : ℤ)
    {env : Env} (hreachable : ∀ site : Site, site.write = some .model → env.signal site = .ok)
    (s : Sinks) :
    ∃ m, CorrectlyEvaluated env processed batchId s m := by
  have hbinary := binary_batchPairs hscored hlabels
  have hlabelled : labelledCount processed = (batchPairs processed).length := by
    rw [length_batchPairs, evalRows, labelledCount, List.countP_eq_length_filter]
  have hpairs : labelledCount processed ≠ 0 → batchPairs processed ≠ [] := by
    rw [hlabelled]
    exact fun hne h => hne (List.length_eq_zero_iff.mpr h)
  refine ⟨_, modelMetric_eq hbinary batchId, ?written, ?total, ?correct, ?offline⟩
  case written =>
    rw [writeModelMetrics_ok hreachable, Sinks.appendModelMetric, ← length_batchPairs, hlabelled,
      modelMetric_eq hbinary]
    split
    · rw [List.append_nil]
    · rfl
  case total => exact fun _ => hlabelled.symm
  case correct => exact fun hne => correctEvaluation_confusionOf hbinary (hpairs hne)
  case offline =>
    intro anomalyCluster predictions hperm
    have hoffline : Binary (evalPairs anomalyCluster predictions) :=
      fun p hp => hbinary p (hperm.mem_iff.mp hp)
    have hnil : evalPairs anomalyCluster predictions = [] ↔ labelledCount processed = 0 := by
      rw [hlabelled, ← hperm.length_eq, List.length_eq_zero_iff]
    rw [evaluationReport_eq hoffline, confusionOf_perm hperm, hperm.length_eq]
    simp only [hnil]

/-- One row predicted and labelled anomalous, and one without a label. -/
def evaluatedRows : List ProcessedRow :=
  [(labelledRow "disk failure" 1, 0), (bareRow "KERNEL", 1)].map fun r => processedRow 0 r.1 r.2

/-- That batch, evaluated against a database that answers. -/
theorem writeModelMetrics_correct_evaluatedRows :
    ∃ m, CorrectlyEvaluated Env.serving evaluatedRows 0 Sinks.initial m :=
  writeModelMetrics_correct (scored_map 0 _) (by simp [processedRow, labelledRow, bareRow]) 0
    (fun _ _ => rfl) Sinks.initial

end AiopsLog
