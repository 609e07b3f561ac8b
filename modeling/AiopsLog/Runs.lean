import AiopsLog.SinkEffects

/-!
# A batch from end to end

What a call of the handler leaves, in two environments: one where every call goes
through (`AiopsLog.process_ok`), and one that kills the process after some of the sink
writes (`AiopsLog.sinks_process_crashAfter`). In both it is read off the labelled rows
(`AiopsLog.labels`), which the batch and the processor determine: the writes apply
their effects to them, all six or the first few.
-/

namespace AiopsLog

open Py Py.Code

variable {Nlp Km Features : Type}

/-! ### The processor after a batch, and its labels -/

/-- The processor after a batch on which training goes through. -/
def BatchProcessor.trainedBy (ml : SparkML Nlp Km Features) (batch : List LogRow)
    (self : BatchProcessor Nlp Km) : BatchProcessor Nlp Km :=
  if self.trained then self
  else match trainModel ml enrichedColumns batch with
    | some (nlp, km, anomalyCluster) => ⟨some nlp, some km, anomalyCluster, true⟩
    | none => self

/-- The labelled rows of a batch, under the models in place after it. -/
def labels (ml : SparkML Nlp Km Features) (self : BatchProcessor Nlp Km) (batch : List LogRow) :
    List ProcessedRow :=
  let self := self.trainedBy ml batch
  match self.nlpModel, self.kmModel with
  | some nlp, some km => labelRows ml nlp km self.anomalyCluster batch
  | _, _ => []

/-- A processor that says it is trained has its models. -/
def BatchProcessor.HasModels (self : BatchProcessor Nlp Km) : Prop :=
  self.trained = true → self.nlpModel.isSome ∧ self.kmModel.isSome

theorem hasModels_init : (BatchProcessor.init : BatchProcessor Nlp Km).HasModels := nofun

section Labels

variable {ml : SparkML Nlp Km Features} {self : BatchProcessor Nlp Km} {batch : List LogRow}

theorem trainModel_nil : trainModel ml enrichedColumns [] = none := by
  have hsort : ∀ {α : Type} {le : α → α → Prop} (order : OrderBy le), order.sort [] = [] :=
    fun order => order.sort_eq_nil.mpr rfl
  simp [trainModel, chooseAnomalyCluster, scoreRows, anomalyDensities, clusterSizes, hsort]

theorem trainedBy_nil : self.trainedBy ml [] = self := by
  rw [BatchProcessor.trainedBy, trainModel_nil]
  split <;> rfl

theorem hasModels_trainedBy (h : self.HasModels) : (self.trainedBy ml batch).HasModels := by
  rw [BatchProcessor.trainedBy]
  split
  · exact h
  · split
    · exact fun _ => ⟨rfl, rfl⟩
    · exact h

variable (ml) in
/-- **A non-empty batch leaves models in place**, and the labels are theirs. -/
theorem exists_models (hself : self.HasModels) (hne : batch ≠ []) :
    ∃ nlp km, (self.trainedBy ml batch).nlpModel = some nlp ∧
      (self.trainedBy ml batch).kmModel = some km ∧
      labels ml self batch
        = labelRows ml nlp km (self.trainedBy ml batch).anomalyCluster batch := by
  have hsome : (self.trainedBy ml batch).nlpModel.isSome ∧
      (self.trainedBy ml batch).kmModel.isSome := by
    rw [BatchProcessor.trainedBy]
    split
    · next htrained => exact hself htrained
    · obtain ⟨model, hmodel⟩ := Option.isSome_iff_exists.mp
        (trainModel_isSome hne : (trainModel ml enrichedColumns batch).isSome)
      rw [hmodel]
      exact ⟨rfl, rfl⟩
  obtain ⟨nlp, hnlp⟩ := Option.isSome_iff_exists.mp hsome.1
  obtain ⟨km, hkm⟩ := Option.isSome_iff_exists.mp hsome.2
  refine ⟨nlp, km, hnlp, hkm, ?_⟩
  simp only [labels, hnlp, hkm]

variable (ml batch) in
/-- **The labels keep the rows of the batch.** -/
theorem map_columns_labels (hself : self.HasModels) :
    (labels ml self batch).map (·.columns) = batch.map (·.columns) := by
  by_cases hne : batch = []
  · subst hne
    simp only [labels]
    split
    · exact map_columns_labelRows _ _ _ _ _
    · rfl
  · obtain ⟨nlp, km, -, -, hlabels⟩ := exists_models ml hself hne
    rw [hlabels, map_columns_labelRows]

theorem scored_labels : Scored (labels ml self batch) := by
  simp only [labels]
  split
  · exact scored_labelRows _ _ _ _ _
  · exact fun _ h => absurd h List.not_mem_nil

theorem labels_nil (hself : self.HasModels) : labels ml self [] = [] :=
  List.map_eq_nil_iff.mp (map_columns_labels ml [] hself)

end Labels

/-! ### The writes together -/

/-- The sinks after some writes of a batch. -/
def Sinks.afterWrites (env : Env) (processed : List ProcessedRow) (batchId : ℤ)
    (writes : List Write) (s : Sinks) : Sinks :=
  writes.foldl (fun s w => w.effect env processed batchId s) s

/-- The environment that kills the process after its first `k` sink writes, and once
they are over where there are no more. -/
def Env.crashAfter (env : Env) (k : ℕ) : Env :=
  { env with
    signal := fun site => match site.write with
      | some w => if w ∈ Write.order.take k then env.signal site else .kill
      | none => if site = .unpersist then .kill else env.signal site }

section Writes

variable {env : Env} {processed : List ProcessedRow} {batchId : ℤ}

theorem effect_nil (w : Write) (s : Sinks) : w.effect env [] batchId s = s := by
  cases w <;> simp [Write.effect, Sinks.appendLogs, Sinks.appendAlerts, Sinks.appendMetrics,
    Sinks.insertAlertRows, Sinks.upsertHealth, Sinks.appendModelMetric, anomaliesOf, insertAlerts,
    upsertBatch, healthAgg, metricsAgg, storedMetrics, evalRows]

theorem afterWrites_nil (writes : List Write) (s : Sinks) :
    s.afterWrites env [] batchId writes = s := by
  induction writes generalizing s with
  | nil => rfl
  | cons w writes ih =>
    rw [Sinks.afterWrites, List.foldl_cons, effect_nil]
    exact ih s

/-- **The sinks after the six writes.** -/
theorem afterWrites_order (s : Sinks) :
    s.afterWrites env processed batchId Write.order =
      { uuids := s.uuids + processed.length + (anomaliesOf processed).length
        processedLogs := s.processedLogs ++ processed.zipIdx s.uuids
        criticalAlerts := s.criticalAlerts
          ++ (anomaliesOf processed).map (alertJson env.castString)
        batchMetrics := s.batchMetrics ++ storedMetrics env.commits (metricsAgg processed)
        anomalyAlertsPg := insertAlerts
          ((anomaliesOf processed).zipIdx (s.uuids + processed.length)) s.anomalyAlertsPg
        componentHealth := upsertBatch processed s.componentHealth
        modelMetrics := if (evalRows processed).length = 0 then s.modelMetrics
          else s.modelMetrics ++ (modelMetric processed batchId).toList } := by
  simp only [Sinks.afterWrites, Write.order, List.foldl_cons, List.foldl_nil, Write.effect,
    Sinks.appendModelMetric]
  split <;> rfl

variable (processed batchId) in
theorem writeSinks_ok (hok : env.AllOk) (s : Sinks) :
    writeSinks env processed batchId s
      = (.done (), s.afterWrites env processed batchId Write.order) := by
  rw [writeSinks_eq]
  exact forEach_done (fun w _ s => Write.code_ok (fun site _ => hok site) s) s

theorem signal_crashAfter_of_mem {k : ℕ} {w : Write} (hw : w ∈ Write.order.take k) {site : Site}
    (h : site.write = some w) : (env.crashAfter k).signal site = env.signal site := by
  simp only [Env.crashAfter, h, if_pos hw]

theorem signal_crashAfter_of_not_mem {k : ℕ} {w : Write} (hw : w ∉ Write.order.take k) {site : Site}
    (h : site.write = some w) : (env.crashAfter k).signal site = .kill := by
  simp only [Env.crashAfter, h, if_neg hw]

variable (processed batchId) in
/-- The writes a crash comes after have had their effect; where there is a further one,
it is halted as it begins. -/
theorem writeSinks_crashAfter (hok : env.AllOk) (k : ℕ) (s : Sinks) :
    writeSinks (env.crashAfter k) processed batchId s
      = (if k < Write.order.length then .halted else .done (),
          s.afterWrites env processed batchId (Write.order.take k)) := by
  have hdone : ∀ w ∈ Write.order.take k, ∀ s, w.code (env.crashAfter k) processed batchId s
      = (.done (), w.effect env processed batchId s) := by
    intro w hw s
    refine Write.code_ok (fun site hsite => ?_) s
    rw [signal_crashAfter_of_mem hw hsite, hok]
  rw [writeSinks_eq]
  by_cases hk : k < Write.order.length
  · -- the write after the first `k` is the one killed as it begins
    have hsplit : Write.order
        = Write.order.take k ++ Write.order[k] :: Write.order.drop (k + 1) := by
      rw [List.cons_getElem_drop_succ, List.take_append_drop]
    have hnot : Write.order[k] ∉ Write.order.take k := by
      have hnd : Write.order.Nodup := by decide
      rw [hsplit] at hnd
      exact fun hmem => (List.nodup_append.mp hnd).2.2 _ hmem _ List.mem_cons_self rfl
    rw [if_pos hk]
    conv_lhs => rw [hsplit]
    exact forEach_halted hdone
      (Write.code_kill fun site hsite => signal_crashAfter_of_not_mem hnot hsite) s
  · rw [if_neg hk, List.take_of_length_le (not_lt.mp hk)]
    rw [List.take_of_length_le (not_lt.mp hk)] at hdone
    exact forEach_done hdone s

end Writes

/-! ### The handler -/

section Handler

variable {ml : SparkML Nlp Km Features} {env : Env} {batch : List LogRow} {batchId : ℤ}
  {job : Job Nlp Km}

/-- An empty batch is skipped. -/
theorem process_nil (hcount : env.signal .count = .ok) :
    process ml env [] batchId job = (.done (), job) := by
  rw [process, reach_bind_ok hcount]
  rfl

/-- Where training and inference go through, the labelled rows go to the sinks. -/
theorem process_writes (hself : job.self.HasModels) (hne : batch ≠ [])
    (hok : ∀ site : Site, site.write = none → site ≠ .unpersist → env.signal site = .ok) :
    process ml env batch batchId job = (do
      onSinks (writeSinks env (labels ml job.self batch) batchId)
      env.reach .unpersist : Code (Job Nlp Km) Unit) ⟨job.self.trainedBy ml batch, job.sinks⟩ := by
  obtain ⟨nlp, km, hnlp, hkm, hlabels⟩ := exists_models ml hself hne
  have htrain : trainStep ml env batch job
      = (.done true, ⟨job.self.trainedBy ml batch, job.sinks⟩) := by
    rcases htrained : job.self.trained with _ | _
    · obtain ⟨⟨nlp', km', c⟩, hmodel⟩ := Option.isSome_iff_exists.mp
        (trainModel_isSome hne : (trainModel ml enrichedColumns batch).isSome)
      rw [trainStep_of_untrained htrained (hok .train rfl nofun) hmodel]
      simp [BatchProcessor.trainedBy, htrained, hmodel]
    · rw [trainStep_of_trained htrained]
      simp [BatchProcessor.trainedBy, htrained]
  rw [process_eq hne (hok .count rfl nofun) (hok .cache rfl nofun), bind_done htrain, if_pos rfl,
    inferAndWrite_of_models (hok .transform rfl nofun) hnlp hkm,
    reach_bind_ok (hok .select rfl nofun), hlabels]

/-- **A call in which every call goes through** trains the processor if need be and
applies the effects of the six writes. -/
theorem process_ok (hok : env.AllOk) (hself : job.self.HasModels) :
    process ml env batch batchId job = (.done (), ⟨job.self.trainedBy ml batch,
      job.sinks.afterWrites env (labels ml job.self batch) batchId Write.order⟩) := by
  by_cases hne : batch = []
  · subst hne
    rw [process_nil (hok _), labels_nil hself, afterWrites_nil, trainedBy_nil]
  · have hwrite := writeSinks_ok (labels ml job.self batch) batchId hok job.sinks
    rw [process_writes hself hne fun site _ _ => hok site,
      bind_done (onSinks_eq (job.self.trainedBy ml batch) hwrite), reach_ok (hok _), pure_apply]

variable (ml batch batchId job) in
/-- **A call that is killed after `k` of its writes** has applied the effects of these,
and does not return if the batch is not empty. -/
theorem process_crashAfter (hok : env.AllOk) (hself : job.self.HasModels) (k : ℕ) :
    (process ml (env.crashAfter k) batch batchId job).2.sinks
        = job.sinks.afterWrites env (labels ml job.self batch) batchId (Write.order.take k) ∧
      (batch ≠ [] → (process ml (env.crashAfter k) batch batchId job).1 = .halted) := by
  have hbefore : ∀ site : Site, site.write = none → site ≠ .unpersist →
      (env.crashAfter k).signal site = .ok := by
    intro site hnone hne
    simp only [Env.crashAfter, hnone, if_neg hne, hok site]
  by_cases hne : batch = []
  · subst hne
    rw [process_nil (hbefore .count rfl nofun), labels_nil hself, afterWrites_nil]
    exact ⟨rfl, fun h => absurd rfl h⟩
  · have hwrite := writeSinks_crashAfter (labels ml job.self batch) batchId hok k job.sinks
    have hkill : (env.crashAfter k).signal .unpersist = .kill := rfl
    rw [process_writes hself hne hbefore]
    by_cases hk : k < Write.order.length
    · rw [if_pos hk] at hwrite
      rw [bind_halted (onSinks_eq (job.self.trainedBy ml batch) hwrite)]
      exact ⟨rfl, fun _ => rfl⟩
    · -- the writes are over, and the release is where the process is killed
      rw [if_neg hk] at hwrite
      rw [bind_done (onSinks_eq (job.self.trainedBy ml batch) hwrite), Env.reach, hkill]
      exact ⟨rfl, fun _ => rfl⟩

end Handler

end AiopsLog
