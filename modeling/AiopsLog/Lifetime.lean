import AiopsLog.Runs
import AiopsLog.SinkFrames

/-!
# One model for the life of a processor

A `BatchProcessor` is called on one batch after another, and any of the calls it makes
may raise. What ties its four fields to its sinks is that the models are fitted once: on
the first batch whose training goes through (`AiopsLog.ProcessCall.Trains`). Before, the
fields are those of `__init__` and no sink has got a row; after, the fields never change
again, and every row any sink gets is labelled by those models
(`AiopsLog.Lifetime.Written`).

The run is followed call by call. A call either leaves the job as it is, or trains the
processor, or writes with the models that are there; which it is, is decided by the
processor and by the calls up to the training, and no sink has a say in it.
-/

namespace AiopsLog

open Py Py.Code

variable {Nlp Km Features : Type}

/-! ### Calls -/

/-- A call of `process`. -/
structure ProcessCall where
  env : Env
  batch : List LogRow
  batchId : ℤ
  noKill : env.NoKill

/-- The training of a call goes through: there is a row to train on, and neither the
count, nor the caching, nor the training itself raises. -/
def ProcessCall.Trains (call : ProcessCall) : Prop :=
  call.batch ≠ [] ∧ call.env.signal .count = .ok ∧ call.env.signal .cache = .ok ∧
    call.env.signal .train = .ok

instance (call : ProcessCall) : Decidable call.Trains := by
  unfold ProcessCall.Trains
  infer_instance

/-- The job after a call, returned or raised. -/
def ProcessCall.run (ml : SparkML Nlp Km Features) (call : ProcessCall) (job : Job Nlp Km) :
    Job Nlp Km :=
  (process ml call.env call.batch call.batchId job).2

/-- The job after some calls. -/
def runCalls (ml : SparkML Nlp Km Features) (calls : List ProcessCall) (job : Job Nlp Km) :
    Job Nlp Km :=
  calls.foldl (fun job call => call.run ml job) job

/-! ### What a call does to the processor -/

section Self

variable {ml : SparkML Nlp Km Features} {env : Env} {batch : List LogRow} {batchId : ℤ}
  {job : Job Nlp Km}

theorem mild_inferStep (hk : env.NoKill) {I : Job Nlp Km → Prop} :
    Mild I (inferStep ml env batch) := by
  refine Mild.read.bind fun self => Mild.exceptException_clause ?_ ?_
  · refine (mild_reach hk _).bind fun _ => ?_
    split
    · exact Mild.pure
    · exact Mild.raise
  · exact (mild_reach hk _).bind fun _ => Mild.pure

/-- Inference and the sinks leave the processor alone. -/
theorem self_inferAndWrite (hk : env.NoKill) :
    (inferAndWrite ml env batch batchId job).2.self = job.self := by
  have hmild : Mild (fun job' => job'.self = job.self) (inferAndWrite ml env batch batchId) := by
    refine (mild_inferStep hk).bind fun scored => ?_
    cases scored with
    | none => exact Mild.pure
    | some scored =>
      refine Mild.read.bind fun c => (mild_reach hk _).bind fun _ => ?_
      refine Mild.bind (fun job' hself => ?_) fun _ => mild_reach hk _
      rw [onSinks_done (writeSinks_spec hk _ _ _).1]
      exact ⟨trivial, hself⟩
  exact (hmild job rfl).2

/-- **The processor after a call**: trained by the batch where training goes through, and
otherwise as it was. -/
theorem self_process (hk : env.NoKill) :
    (process ml env batch batchId job).2.self
      = if batch ≠ [] ∧ env.signal .count = .ok ∧ env.signal .cache = .ok ∧
          env.signal .train = .ok
        then job.self.trainedBy ml batch else job.self := by
  by_cases hcount : env.signal .count = .ok
  swap
  · rw [process, reach_bind_snd hcount, if_neg fun h => hcount h.2.1]
  by_cases hne : batch = []
  · rw [hne, process_nil hcount, if_neg fun h => h.1 rfl]
  by_cases hcache : env.signal .cache = .ok
  swap
  · have hlen : batch.length ≠ 0 := fun h => hne (List.length_eq_zero_iff.mp h)
    rw [process, reach_bind_ok hcount, if_neg hlen, reach_bind_snd hcache,
      if_neg fun h => hcache h.2.2.1]
  rw [process_eq hne hcount hcache, bind_apply]
  rcases htrained : job.self.trained with _ | _
  · by_cases htrain : env.signal .train = .ok
    · obtain ⟨⟨nlp, km, c⟩, hmodel⟩ := Option.isSome_iff_exists.mp
        (trainModel_isSome hne : (trainModel ml enrichedColumns batch).isSome)
      rw [trainStep_of_untrained htrained htrain hmodel, if_pos ⟨hne, hcount, hcache, htrain⟩]
      have hself : job.self.trainedBy ml batch = ⟨some nlp, some km, c, true⟩ := by
        simp [BatchProcessor.trainedBy, htrained, hmodel]
      rw [hself]
      exact self_inferAndWrite hk
    · -- logged, and the handler returns
      rw [trainStep_of_error htrained (signal_eq_error hk htrain), if_neg fun h => htrain h.2.2.2]
      by_cases hrelease : env.signal .unpersist = .ok
      · rw [reach_bind_ok hrelease]
        rfl
      · rw [reach_bind_error (signal_eq_error hk hrelease)]
  · have hself : job.self.trainedBy ml batch = job.self := by
      simp [BatchProcessor.trainedBy, htrained]
    rw [trainStep_of_trained htrained, hself, ite_self]
    exact self_inferAndWrite hk

/-- **The sinks after a call** keep every assertion that the writes of its rows, labelled
by the models that are there after the call, keep. -/
theorem sinks_process (hk : env.NoKill) {I : Sinks → Prop}
    (hI : ∀ nlp km c, (process ml env batch batchId job).2.self = ⟨some nlp, some km, c, true⟩ →
      KeptByWrites env (labelRows ml nlp km c batch) I) (h : I job.sinks) :
    I (process ml env batch batchId job).2.sinks := by
  by_cases hcount : env.signal .count = .ok
  swap
  · rwa [process, reach_bind_snd hcount]
  by_cases hne : batch = []
  · rwa [hne, process_nil hcount]
  by_cases hcache : env.signal .cache = .ok
  swap
  · have hlen : batch.length ≠ 0 := fun h => hne (List.length_eq_zero_iff.mp h)
    rwa [process, reach_bind_ok hcount, if_neg hlen, reach_bind_snd hcache]
  rcases process_cases ml job hk hne hcount hcache batchId with
    ⟨-, self', -, heq⟩ | ⟨-, nlp, km, c, -, heq⟩
  · rw [heq, reach_snd]
    exact h
  · rw [heq] at hI ⊢
    by_cases hselect : env.signal .select = .ok
    · have hwrites := (hI nlp km c ?_).returns_writeSinks hk batchId job.sinks h
      all_goals
        rw [reach_bind_ok hselect, bind_done (onSinks_done (writeSinks_spec hk _ _ _).1), reach_snd]
      exact hwrites.2
    · rw [reach_bind_snd hselect]
      exact h

end Self

/-! ### What the sinks get -/

/-- The cluster fitted models assign to a row. -/
def clusterOf (ml : SparkML Nlp Km Features) (nlp : Nlp) (km : Km) (row : LogRow) : ℕ :=
  ml.predict km (ml.vectorize nlp row)

/-- A stored row is labelled by the models: flagged with score 1 where they put it in the
anomaly cluster, and with 0 where they do not. -/
structure LabelledBy (ml : SparkML Nlp Km Features) (nlp : Nlp) (km : Km) (anomalyCluster : ℕ)
    (row : LogRow) (stored : ProcessedRow) : Prop where
  columns : stored.columns = row.columns
  cluster : stored.cluster = clusterOf ml nlp km row
  isAnomaly : stored.isAnomaly = if clusterOf ml nlp km row = anomalyCluster then 1 else 0
  anomalyScore : stored.anomalyScore = if clusterOf ml nlp km row = anomalyCluster then 1 else 0

/-- An anomaly of some batches: one of their rows, in the anomaly cluster. -/
def AnomalyOf (ml : SparkML Nlp Km Features) (nlp : Nlp) (km : Km) (anomalyCluster : ℕ)
    (batches : List (List LogRow)) (anomaly : ProcessedRow) : Prop :=
  ∃ batch ∈ batches, ∃ row ∈ batch, clusterOf ml nlp km row = anomalyCluster ∧
    LabelledBy ml nlp km anomalyCluster row anomaly

/-- **All that was written was labelled by these models**: what the sinks hold beyond
what they held at first are rows of the batches, and alerts of the rows the models put in
the anomaly cluster. -/
structure Lifetime.Written (ml : SparkML Nlp Km Features) (nlp : Nlp) (km : Km)
    (anomalyCluster : ℕ) (batches : List (List LogRow)) (s₀ s : Sinks) : Prop where
  logs : Sql.Extends (fun r => ∃ batch ∈ batches, ∃ row ∈ batch,
    LabelledBy ml nlp km anomalyCluster row r.1) s₀.processedLogs s.processedLogs
  alerts : Sql.Extends (fun alert => ∃ castString anomaly,
    AnomalyOf ml nlp km anomalyCluster batches anomaly ∧ alert = alertJson castString anomaly)
    s₀.criticalAlerts s.criticalAlerts
  alertRows : Sql.Extends (fun r => ∃ alertId anomaly,
    AnomalyOf ml nlp km anomalyCluster batches anomaly ∧ r = sparkAlertRow alertId anomaly)
    s₀.anomalyAlertsPg s.anomalyAlertsPg

namespace Lifetime

variable {ml : SparkML Nlp Km Features} {nlp : Nlp} {km : Km} {c : ℕ} {batch : List LogRow}
  {batches batches' : List (List LogRow)} {s₀ s : Sinks}

theorem exists_of_mem_labelRows {r : ProcessedRow} (h : r ∈ labelRows ml nlp km c batch) :
    ∃ row ∈ batch, LabelledBy ml nlp km c row r := by
  obtain ⟨scored, hscored, rfl⟩ := List.mem_map.mp h
  obtain ⟨row, hrow, rfl⟩ := List.mem_map.mp hscored
  exact ⟨row, hrow, rfl, rfl, rfl, rfl⟩

/-- A flagged row is one the models put in the anomaly cluster. -/
theorem anomalyOf_of_mem (hbatch : batch ∈ batches) {r : ProcessedRow}
    (h : r ∈ anomaliesOf (labelRows ml nlp km c batch)) : AnomalyOf ml nlp km c batches r := by
  obtain ⟨hmem, hflag⟩ := List.mem_filter.mp h
  obtain ⟨row, hrow, hlabelled⟩ := exists_of_mem_labelRows hmem
  refine ⟨batch, hbatch, row, hrow, ?_, hlabelled⟩
  by_contra hne
  have hone : r.isAnomaly = 1 := of_decide_eq_true hflag
  rw [hlabelled.isAnomaly, if_neg hne] at hone
  exact absurd hone Nat.zero_ne_one

theorem Written.refl : Written ml nlp km c batches s s :=
  ⟨Sql.Extends.refl, Sql.Extends.refl, Sql.Extends.refl⟩

theorem AnomalyOf.mono (hsub : batches ⊆ batches') {r : ProcessedRow}
    (h : AnomalyOf ml nlp km c batches r) : AnomalyOf ml nlp km c batches' r := by
  obtain ⟨batch, hbatch, hrow⟩ := h
  exact ⟨batch, hsub hbatch, hrow⟩

theorem Written.mono (hsub : batches ⊆ batches') (h : Written ml nlp km c batches s₀ s) :
    Written ml nlp km c batches' s₀ s where
  logs := h.logs.mono fun _ ⟨batch, hbatch, hrow⟩ => ⟨batch, hsub hbatch, hrow⟩
  alerts := h.alerts.mono fun _ ⟨castString, anomaly, ha, heq⟩ =>
    ⟨castString, anomaly, AnomalyOf.mono hsub ha, heq⟩
  alertRows := h.alertRows.mono fun _ ⟨alertId, anomaly, ha, heq⟩ =>
    ⟨alertId, anomaly, AnomalyOf.mono hsub ha, heq⟩

/-- **A further batch of labelled rows** leaves the sinks written by the models. -/
theorem keptByWrites (env : Env) (hbatch : batch ∈ batches) :
    KeptByWrites env (labelRows ml nlp km c batch) (Written ml nlp km c batches s₀) where
  uuids _ _ h := ⟨h.logs, h.alerts, h.alertRows⟩
  logs s n h := by
    refine ⟨h.logs.trans (Sql.Extends.append fun r hr => ?_), h.alerts, h.alertRows⟩
    exact ⟨batch, hbatch, exists_of_mem_labelRows (List.fst_mem_of_mem_zipIdx hr)⟩
  alerts s alerts halerts h := by
    refine ⟨h.logs, h.alerts.trans (Sql.Extends.append fun alert halert => ?_), h.alertRows⟩
    obtain ⟨anomaly, hanomaly, rfl⟩ := List.mem_map.mp (halerts alert halert)
    exact ⟨env.castString, anomaly, anomalyOf_of_mem hbatch hanomaly, rfl⟩
  metrics _ _ h := ⟨h.logs, h.alerts, h.alertRows⟩
  alertRows s s' rows hrows h h' := by
    refine ⟨h'.logs, h'.alerts, h.alertRows.trans (hrows.mono ?_)⟩
    rintro r ⟨alertId, anomaly, hanomaly, rfl⟩
    exact ⟨alertId, anomaly, anomalyOf_of_mem hbatch hanomaly, rfl⟩
  health _ _ h := ⟨h.logs, h.alerts, h.alertRows⟩
  models _ _ h := ⟨h.logs, h.alerts, h.alertRows⟩

end Lifetime

/-- The anomaly cluster of fitted models is one they put a row of their sample in. -/
theorem exists_row_of_trainModel {ml : SparkML Nlp Km Features} {sample : List LogRow} {nlp : Nlp}
    {km : Km} {c : ℕ} (h : trainModel ml enrichedColumns sample = some (nlp, km, c)) :
    ∃ row ∈ sample, clusterOf ml nlp km row = c := by
  rw [trainModel] at h
  obtain ⟨c', hchoose, heq⟩ := Option.map_eq_some_iff.mp h
  obtain ⟨rfl, rfl, rfl⟩ : _ ∧ _ ∧ c' = c := by simpa using heq
  obtain ⟨r, hr, hcluster⟩ := chooseAnomalyCluster_mem hchoose
  obtain ⟨row, hrow, rfl⟩ := List.mem_map.mp hr
  exact ⟨row, hrow, hcluster⟩

/-! ### Runs -/

section Run

variable {ml : SparkML Nlp Km Features} {s₀ : Sinks} {calls : List ProcessCall}

/-- A call whose training does not go through changes no field of the processor, and one
of a trained processor neither. -/
theorem self_run {call : ProcessCall} {job : Job Nlp Km}
    (h : ¬call.Trains ∨ job.self.trained = true) : (call.run ml job).self = job.self := by
  rw [ProcessCall.run, self_process call.noKill]
  split
  · next htrains =>
    have htrained : job.self.trained = true := h.resolve_left fun hnot => hnot htrains
    simp [BatchProcessor.trainedBy, htrained]
  · rfl

/-- A call whose training goes through leaves the processor trained. -/
theorem trained_run {call : ProcessCall} {job : Job Nlp Km} (h : call.Trains) :
    (call.run ml job).self.trained = true := by
  obtain ⟨model, hmodel⟩ := Option.isSome_iff_exists.mp
    (trainModel_isSome h.1 : (trainModel ml enrichedColumns call.batch).isSome)
  have hself : (call.run ml job).self = job.self.trainedBy ml call.batch :=
    (self_process call.noKill).trans (if_pos h)
  rw [hself, BatchProcessor.trainedBy, hmodel]
  split
  · assumption
  · rfl

theorem self_runCalls_of_trained {job : Job Nlp Km} (h : job.self.trained = true) :
    (runCalls ml calls job).self = job.self := by
  induction calls generalizing job with
  | nil => rfl
  | cons call calls ih =>
    have hself : (call.run ml job).self = job.self := self_run (Or.inr h)
    exact (ih (hself ▸ h)).trans hself

/-- **The state of a lifetime**: no training has gone through and nothing has happened,
or the processor holds the models of the first that has, and all that was written was
labelled by them. -/
inductive Lifetime (ml : SparkML Nlp Km Features) (s₀ : Sinks) (calls : List ProcessCall)
    (job : Job Nlp Km) : Prop where
  | untrained (hcalls : ∀ call ∈ calls, ¬call.Trains) (hjob : job = ⟨BatchProcessor.init, s₀⟩) :
      Lifetime ml s₀ calls job
  | trained (before : List ProcessCall) (call : ProcessCall) (after : List ProcessCall)
      (nlp : Nlp) (km : Km) (c : ℕ) (hcalls : calls = before ++ call :: after)
      (hbefore : ∀ b ∈ before, ¬b.Trains) (hcall : call.Trains)
      (hmodel : trainModel ml enrichedColumns call.batch = some (nlp, km, c))
      (hself : job.self = ⟨some nlp, some km, c, true⟩)
      (hwritten : Lifetime.Written ml nlp km c (calls.map (·.batch)) s₀ job.sinks) :
      Lifetime ml s₀ calls job

/-- A call that leaves these models in place writes with them. -/
theorem Lifetime.written_run {call : ProcessCall} {job : Job Nlp Km} {nlp : Nlp} {km : Km} {c : ℕ}
    {batches : List (List LogRow)} (hself : (call.run ml job).self = ⟨some nlp, some km, c, true⟩)
    (hbatch : call.batch ∈ batches) (h : Lifetime.Written ml nlp km c batches s₀ job.sinks) :
    Lifetime.Written ml nlp km c batches s₀ (call.run ml job).sinks := by
  refine sinks_process call.noKill (fun nlp' km' c' hself' => ?_) h
  obtain ⟨hnlp, hkm, hc, -⟩ := BatchProcessor.mk.inj (hself.symm.trans hself')
  obtain rfl := Option.some_injective _ hnlp
  obtain rfl := Option.some_injective _ hkm
  subst hc
  exact Lifetime.keptByWrites call.env hbatch

/-- The step: one more call. -/
theorem Lifetime.snoc {job : Job Nlp Km} (h : Lifetime ml s₀ calls job) (call : ProcessCall) :
    Lifetime ml s₀ (calls ++ [call]) (call.run ml job) := by
  have hlast : call.batch ∈ (calls ++ [call]).map (·.batch) :=
    List.mem_map_of_mem (List.mem_append_right _ List.mem_cons_self)
  cases h with
  | untrained hcalls hjob =>
    subst hjob
    by_cases htrains : call.Trains
    · -- this is the call that trains, and it may write as well
      obtain ⟨⟨nlp, km, c⟩, hmodel⟩ := Option.isSome_iff_exists.mp
        (trainModel_isSome htrains.1 : (trainModel ml enrichedColumns call.batch).isSome)
      have hself : (call.run ml ⟨BatchProcessor.init, s₀⟩).self
          = ⟨some nlp, some km, c, true⟩ := by
        refine ((self_process call.noKill).trans (if_pos htrains)).trans ?_
        simp [BatchProcessor.trainedBy, BatchProcessor.init, hmodel]
      exact Lifetime.trained calls call [] nlp km c rfl hcalls htrains hmodel hself
        (Lifetime.written_run hself hlast Lifetime.Written.refl)
    · have hself : (call.run ml ⟨BatchProcessor.init, s₀⟩).self = BatchProcessor.init :=
        self_run (Or.inl htrains)
      have hsinks : (call.run ml ⟨BatchProcessor.init, s₀⟩).sinks = s₀ := by
        refine sinks_process (I := fun s => s = s₀) call.noKill (fun nlp km c htrained => ?_) rfl
        exact absurd (congrArg BatchProcessor.trained (hself.symm.trans htrained))
          Bool.false_ne_true
      refine Lifetime.untrained (fun b hb => ?_) ?_
      · rcases List.mem_append.mp hb with hb | hb
        · exact hcalls b hb
        · exact List.mem_singleton.mp hb ▸ htrains
      · exact congrArg₂ Job.mk hself hsinks
  | trained before trainer after nlp km c hcalls hbefore htrainer hmodel hself hwritten =>
    have hself' : (call.run ml job).self = ⟨some nlp, some km, c, true⟩ :=
      (self_run (Or.inr (by rw [hself]))).trans hself
    have hsub : calls.map (·.batch) ⊆ (calls ++ [call]).map (·.batch) := by
      rw [List.map_append]
      exact List.subset_append_left _ _
    refine Lifetime.trained before trainer (after ++ [call]) nlp km c ?_ hbefore htrainer hmodel
      hself' (Lifetime.written_run hself' hlast (hwritten.mono hsub))
    rw [hcalls, List.append_assoc, List.cons_append]

/-- The run: any sequence of calls. -/
theorem lifetime_runCalls (ml : SparkML Nlp Km Features) (s₀ : Sinks) (calls : List ProcessCall) :
    Lifetime ml s₀ calls (runCalls ml calls ⟨BatchProcessor.init, s₀⟩) := by
  induction calls using List.reverseRecOn with
  | nil => exact Lifetime.untrained (fun _ h => absurd h List.not_mem_nil) rfl
  | append_singleton calls call ih =>
    rw [runCalls, List.foldl_append]
    exact ih.snoc call

/-- **One model for the life of a processor.** After any calls, with anything raising in
any of them: while the processor is untrained its fields are those of `__init__` and no
sink has got a row; a training that fails changes no field, and after one that goes through
the processor is trained; and once it is trained the fields never change again, the models are
those of the first batch whose training went through, the anomaly cluster is one they put a row
of that batch in, and all the sinks have got was labelled by them. -/
theorem one_model_per_lifetime (ml : SparkML Nlp Km Features) (s₀ : Sinks)
    (calls : List ProcessCall) :
    let job := runCalls ml calls ⟨BatchProcessor.init, s₀⟩
    (job.self.trained = false → job.self.nlpModel = none ∧ job.self.kmModel = none ∧
        job.self.anomalyCluster = 0 ∧ job.sinks = s₀) ∧
      (∀ call : ProcessCall, ¬call.Trains → (call.run ml job).self = job.self) ∧
      (∀ call : ProcessCall, call.Trains → (call.run ml job).self.trained = true) ∧
      (job.self.trained = true →
        (∀ later, (runCalls ml later job).self = job.self) ∧
        ∃ before call after nlp km c, calls = before ++ call :: after ∧
          (∀ b ∈ before, ¬b.Trains) ∧ call.Trains ∧
          trainModel ml enrichedColumns call.batch = some (nlp, km, c) ∧
          job.self = ⟨some nlp, some km, c, true⟩ ∧
          (∃ row ∈ call.batch, clusterOf ml nlp km row = c) ∧
          Lifetime.Written ml nlp km c (calls.map (·.batch)) s₀ job.sinks) := by
  intro job
  have hlifetime : Lifetime ml s₀ calls job := lifetime_runCalls ml s₀ calls
  refine ⟨fun huntrained => ?_, fun call htrains => self_run (Or.inl htrains),
    fun call htrains => trained_run htrains, fun htrained =>
      ⟨fun later => self_runCalls_of_trained htrained, ?_⟩⟩
  · cases hlifetime with
    | untrained _ hjob =>
      rw [hjob]
      exact ⟨rfl, rfl, rfl, rfl⟩
    | trained _ _ _ _ _ _ _ _ _ _ hself =>
      rw [hself] at huntrained
      exact nomatch huntrained
  · cases hlifetime with
    | untrained _ hjob =>
      rw [hjob] at htrained
      exact nomatch htrained
    | trained before call after nlp km c hcalls hbefore hcall hmodel hself hwritten =>
      refine ⟨before, call, after, nlp, km, c, hcalls, hbefore, hcall, hmodel, hself, ?_, hwritten⟩
      exact exists_row_of_trainModel hmodel

end Run

end AiopsLog
