import AiopsLog.SinkFrames
import Mathlib.Tactic.Common

/-!
# Acknowledged batches

Spark commits the offsets of a batch when the handler returns, and replays the batch
when the handler raises. So a handler that returns has said of every row that it is
safe, and the rows are safe when they are in `processed_logs`.

The handler returns too easily. It returns after a training or an inference that
raised, without having written anything, and it returns after a Delta append that
raised. `AiopsLog.process_acknowledged_iff` says exactly when its word can be trusted:
the call raises at one of the few places outside a `try`, or training, inference and
the append all go through (`AiopsLog.RowsKept`).
-/

namespace AiopsLog

open Py Py.Code

variable {Nlp Km Features : Type}

/-- Every row of the batch has been appended to `processed_logs`. -/
def Appended (batch : List LogRow) (before after : Sinks) : Prop :=
  ∃ new : List (ProcessedRow × Uuid), after.processedLogs = before.processedLogs ++ new ∧
    new.map (·.1.columns) = batch.map (·.columns)

/-- **An acknowledged batch is safe**: where the handler returns, every row of the batch
has been appended. -/
def Acknowledged (ml : SparkML Nlp Km Features) (env : Env) (batch : List LogRow) (batchId : ℤ)
    (job : Job Nlp Km) : Prop :=
  (process ml env batch batchId job).1 = .done () →
    Appended batch job.sinks (process ml env batch batchId job).2.sinks

/-- A call outside every `try` raises. -/
def RaisesOut (env : Env) : Prop :=
  env.signal .count = .error ∨ env.signal .cache = .error ∨ env.signal .unpersist = .error

/-- The rows get to the Delta table, or the call raises just before it: training and
inference go through, and so does the append unless the selection of the columns
raises. -/
def RowsKept (env : Env) (self : BatchProcessor Nlp Km) : Prop :=
  Ready env self ∧ (env.signal .select = .error ∨ env.signal .delta = .ok)

/-- A non-empty batch has not been appended where the table has not changed. -/
theorem not_appended_of_unchanged {batch : List LogRow} (hne : batch ≠ []) {before after : Sinks}
    (h : after.processedLogs = before.processedLogs) : ¬Appended batch before after := by
  rintro ⟨new, hnew, hcols⟩
  have hnil : new = [] := by simpa [h] using hnew
  rw [hnil] at hcols
  exact hne (List.map_eq_nil_iff.mp hcols.symm)

/-- A Delta append of the labelled rows appends the batch. -/
theorem appended_labelRows {ml : SparkML Nlp Km Features} {nlp : Nlp} {km : Km} {c n : ℕ}
    {batch : List LogRow} {before after : Sinks}
    (h : after.processedLogs = before.processedLogs ++ (labelRows ml nlp km c batch).zipIdx n) :
    Appended batch before after := by
  refine ⟨_, h, ?_⟩
  rw [← map_columns_labelRows ml nlp km c batch]
  conv_rhs => rw [← List.zipIdx_map_fst n (labelRows ml nlp km c batch)]
  rw [List.map_map]
  rfl

section Cases

variable {ml : SparkML Nlp Km Features} {env : Env} {batch : List LogRow} {batchId : ℤ}
  {job : Job Nlp Km}

/-- A call whose count or caching raises does not return. -/
theorem process_ne_done_of_count (hne : batch ≠ [])
    (h : env.signal .count = .error ∨ env.signal .count = .ok ∧ env.signal .cache = .error) :
    (process ml env batch batchId job).1 ≠ .done () := by
  have hlen : batch.length ≠ 0 := fun h => hne (List.length_eq_zero_iff.mp h)
  rcases h with hcount | ⟨hcount, hcache⟩
  · rw [process, reach_bind_error hcount]
    simp
  · rw [process, reach_bind_ok hcount, if_neg hlen, reach_bind_error hcache]
    simp

variable (hk : env.NoKill)

include hk

/-- A call that gets past the caching ends in a release of the cache, or raises before
it. -/
theorem process_ne_done_of_release (hne : batch ≠ []) (hcount : env.signal .count = .ok)
    (hcache : env.signal .cache = .ok) (hrelease : env.signal .unpersist = .error) :
    (process ml env batch batchId job).1 ≠ .done () := by
  rcases process_cases ml job hk hne hcount hcache batchId with
    ⟨-, self', -, heq⟩ | ⟨-, nlp, km, c, -, heq⟩
  · rw [heq, reach_error hrelease]
    exact nofun
  · rw [heq]
    by_cases hselect : env.signal .select = .ok
    · rw [reach_bind_ok hselect, bind_done (onSinks_done (writeSinks_spec hk _ _ _).1),
        reach_error hrelease]
      exact nofun
    · rw [reach_bind_error (signal_eq_error hk hselect)]
      exact nofun

/-- **Labelled rows are acknowledged exactly where the append goes through**, as long as
the calls around it do. -/
theorem acknowledged_of_labelled {nlp : Nlp} {km : Km} {c : ℕ} {self : BatchProcessor Nlp Km}
    {sinks : Sinks} (hne : batch ≠ []) (hrelease : env.signal .unpersist = .ok)
    {result : Ending Unit × Job Nlp Km}
    (hresult : result = (do
      env.reach .select
      onSinks (writeSinks env (labelRows ml nlp km c batch) batchId)
      env.reach .unpersist : Code (Job Nlp Km) Unit) ⟨self, sinks⟩) :
    (result.1 = .done () → Appended batch sinks result.2.sinks) ↔
      (env.signal .select = .error ∨ env.signal .delta = .ok) := by
  by_cases hselect : env.signal .select = .ok
  swap
  · have hselect := signal_eq_error hk hselect
    rw [hresult, reach_bind_error hselect]
    exact ⟨fun _ => Or.inl hselect, fun _ => nofun⟩
  obtain ⟨hdone, hlogs⟩ := writeSinks_spec hk (labelRows ml nlp km c batch) batchId sinks
  have hwrite : result = (.done (), ⟨self,
      (writeSinks env (labelRows ml nlp km c batch) batchId sinks).2⟩) := by
    rw [hresult, reach_bind_ok hselect, bind_done (onSinks_done hdone), reach_ok hrelease,
      pure_apply]
  rw [hwrite]
  simp only [forall_const, hselect, reduceCtorEq, false_or]
  by_cases hdelta : env.signal .delta = .ok
  · rw [if_pos hdelta] at hlogs
    exact iff_of_true (appended_labelRows hlogs) hdelta
  · rw [if_neg hdelta, List.append_nil] at hlogs
    exact iff_of_false (not_appended_of_unchanged hne hlogs) hdelta

/-- **When an acknowledgement can be trusted**: on a non-empty batch, whatever the
processor's state and whichever steps raise, the rows of a batch whose handler returns
are in `processed_logs` if and only if the handler raises outside every `try`, or
training, inference and the Delta append go through. -/
theorem process_acknowledged_iff (hne : batch ≠ []) :
    Acknowledged ml env batch batchId job ↔ RaisesOut env ∨ RowsKept env job.self := by
  rw [Acknowledged, RaisesOut, RowsKept]
  -- the calls outside every `try`, in their order: where one raises, so does the handler
  by_cases hcount : env.signal .count = .ok
  swap
  · have hcount := signal_eq_error hk hcount
    refine iff_of_true (fun h => ?_) (Or.inl (Or.inl hcount))
    exact absurd h (process_ne_done_of_count hne (Or.inl hcount))
  by_cases hcache : env.signal .cache = .ok
  swap
  · have hcache := signal_eq_error hk hcache
    refine iff_of_true (fun h => ?_) (Or.inl (Or.inr (Or.inl hcache)))
    exact absurd h (process_ne_done_of_count hne (Or.inr ⟨hcount, hcache⟩))
  by_cases hrelease : env.signal .unpersist = .ok
  swap
  · have hrelease := signal_eq_error hk hrelease
    refine iff_of_true (fun h => ?_) (Or.inl (Or.inr (Or.inr hrelease)))
    exact absurd h (process_ne_done_of_release hk hne hcount hcache hrelease)
  simp only [hcount, hcache, hrelease, reduceCtorEq, or_self, false_or]
  -- the handler returns: it has written nothing, or the append decides
  rcases process_cases ml job hk hne hcount hcache batchId with
    ⟨hnot, self', -, heq⟩ | ⟨hready, nlp, km, c, -, heq⟩
  · refine iff_of_false (fun h => ?_) fun h => hnot h.1
    rw [heq, reach_ok hrelease, pure_apply] at h
    exact not_appended_of_unchanged hne rfl (h rfl)
  · rw [acknowledged_of_labelled hk hne hrelease heq]
    exact ⟨fun h => ⟨hready, h⟩, fun h => h.2⟩

end Cases

/-! ### An append that raises

A processor that already has its models, a batch of one row, and a Delta append that
raises. -/

/-- A processor that takes one cluster for anomalous. -/
def trainedOn (anomalyCluster : ℕ) : BatchProcessor Unit Unit :=
  ⟨some (), some (), anomalyCluster, true⟩

/-- **The handler acknowledges a batch it has lost.** -/
theorem not_acknowledged_failing_delta :
    ¬Acknowledged (SparkML.ofRule fun _ => 0) (Env.failing .delta) [bareRow "KERNEL"] 0
      ⟨trainedOn 1, Sinks.initial⟩ := by
  intro h
  have hdone : (process (SparkML.ofRule fun _ => 0) (Env.failing .delta) [bareRow "KERNEL"] 0
      ⟨trainedOn 1, Sinks.initial⟩).1 = .done () := rfl
  exact not_appended_of_unchanged (List.cons_ne_nil _ _) rfl (h hdone)

/-- The criterion on that call, with its hypotheses discharged. -/
theorem process_acknowledged_iff_failing_delta :
    Acknowledged (SparkML.ofRule fun _ => 0) (Env.failing .delta) [bareRow "KERNEL"] 0
        ⟨trainedOn 1, Sinks.initial⟩ ↔
      RaisesOut (Env.failing .delta) ∨ RowsKept (Env.failing .delta) (trainedOn 1) :=
  process_acknowledged_iff (noKill_failing .delta) (List.cons_ne_nil _ _)

end AiopsLog
