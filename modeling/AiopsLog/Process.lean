import AiopsLog.Sinks
import AiopsLog.Train

/-!
# The handler of a batch

`BatchProcessor.process` is what Spark calls on every micro-batch: train if no model is
there yet, label the rows, write the sinks. Its state is the processor's four fields
(`AiopsLog.BatchProcessor`) and the sinks.

Two of its steps end the call early. A training or an inference that raises is logged
and the handler returns – normally, as far as Spark can see. Every sink write has its
own `try`. What is left to raise out of the handler is the count and the caching of the
batch, the selection of the labelled columns, and the release of the cache.
-/

namespace AiopsLog

open Py Py.Code

variable {Nlp Km Features : Type}

/-! ### The state -/

/-- The fields of a `BatchProcessor`. -/
structure BatchProcessor (Nlp Km : Type) where
  nlpModel : Option Nlp
  kmModel : Option Km
  anomalyCluster : ℕ
  trained : Bool

/-- `BatchProcessor.__init__`. -/
def BatchProcessor.init : BatchProcessor Nlp Km := ⟨none, none, 0, false⟩

/-- A running job: its processor and its sinks. -/
structure Job (Nlp Km : Type) where
  self : BatchProcessor Nlp Km
  sinks : Sinks

/-- Code over the sinks, as code over the job. -/
def onSinks {α : Type} (c : Code Sinks α) : Code (Job Nlp Km) α := fun job =>
  ((c job.sinks).1, { job with sinks := (c job.sinks).2 })

theorem onSinks_done {α : Type} {c : Code Sinks α} {job : Job Nlp Km} {a : α}
    (h : (c job.sinks).1 = .done a) :
    onSinks c job = (.done a, { job with sinks := (c job.sinks).2 }) := by
  rw [onSinks, h]

theorem onSinks_eq {α : Type} {c : Code Sinks α} {s s' : Sinks} {e : Ending α}
    (self : BatchProcessor Nlp Km) (h : c s = (e, s')) : onSinks c ⟨self, s⟩ = (e, ⟨self, s'⟩) := by
  rw [onSinks, h]

/-! ### The handler -/

section Handler

variable (ml : SparkML Nlp Km Features) (env : Env)

/-- Train or reuse the model; whether to go on. -/
def trainStep (batch : List LogRow) : Code (Job Nlp Km) Bool := do
  if ← read (·.self.trained) then pure true
  else
    exceptException
      (do
        env.reach .train
        match trainModel ml enrichedColumns batch with
        | some (nlp, km, anomalyCluster) => do
          update fun job => { job with self := ⟨some nlp, some km, anomalyCluster, true⟩ }
          pure true
        | none => raise .error)
      -- logged, and the handler returns
      (do env.reach .unpersist; pure false)

/-- Apply the models; none where that raises. -/
def inferStep (batch : List LogRow) : Code (Job Nlp Km) (Option (List (LogRow × ℕ))) := do
  let self ← read (·.self)
  exceptException
    (do
      env.reach .transform
      match self.nlpModel, self.kmModel with
      | some nlp, some km => pure (some (scoreRows ml nlp km batch))
      -- `None` has no `transform`
      | _, _ => raise .error)
    (do env.reach .unpersist; pure none)

/-- Label the rows and write the sinks. -/
def inferAndWrite (batch : List LogRow) (batchId : ℤ) : Code (Job Nlp Km) Unit := do
  match ← inferStep ml env batch with
  | none => pure ()
  | some scored => do
    let anomalyCluster ← read (·.self.anomalyCluster)
    env.reach .select
    onSinks (writeSinks env (scored.map fun r => processedRow anomalyCluster r.1 r.2) batchId)
    env.reach .unpersist

/-- `process`. -/
def process (batch : List LogRow) (batchId : ℤ) : Code (Job Nlp Km) Unit := do
  env.reach .count
  if batch.length = 0 then pure ()
  else do
    env.reach .cache
    if ← trainStep ml env batch then inferAndWrite ml env batch batchId else pure ()

end Handler

/-! ### The rows a processor makes of a batch -/

/-- The labelled rows a processor with models makes of a batch. -/
def labelRows (ml : SparkML Nlp Km Features) (nlp : Nlp) (km : Km) (anomalyCluster : ℕ)
    (batch : List LogRow) : List ProcessedRow :=
  (scoreRows ml nlp km batch).map fun r => processedRow anomalyCluster r.1 r.2

/-- The columns of a row that labelling keeps. -/
structure LogColumns where
  eventTime : Option Timestamp
  host : Option String
  component : String
  severity : Option String
  message : String
  logDate : Option Date
  labelOriginal : Option ℤ
  ingestedAt : Option Timestamp
  deriving DecidableEq

/-- The columns of a row of the stream. -/
def LogRow.columns (row : LogRow) : LogColumns :=
  ⟨row.eventTime, row.host, row.component, row.severity, row.message, row.logDate,
    row.labelOriginal, row.ingestedAt⟩

/-- The columns of a labelled row. -/
def ProcessedRow.columns (row : ProcessedRow) : LogColumns :=
  ⟨row.eventTime, row.host, row.component, row.severity, row.message, row.logDate,
    row.labelOriginal, row.ingestedAt⟩

/-- **Labelling a batch keeps its rows**, in order and with all their columns. -/
theorem map_columns_labelRows (ml : SparkML Nlp Km Features) (nlp : Nlp) (km : Km)
    (anomalyCluster : ℕ) (batch : List LogRow) :
    (labelRows ml nlp km anomalyCluster batch).map (·.columns) = batch.map (·.columns) := by
  simp [labelRows, scoreRows, processedRow, LogRow.columns, ProcessedRow.columns,
    Function.comp_def]

theorem scored_labelRows (ml : SparkML Nlp Km Features) (nlp : Nlp) (km : Km)
    (anomalyCluster : ℕ) (batch : List LogRow) :
    Scored (labelRows ml nlp km anomalyCluster batch) :=
  scored_map anomalyCluster _

/-! ### Environments -/

/-- The environment kills nothing. -/
def Env.NoKill (env : Env) : Prop := ∀ site, env.signal site ≠ .kill

/-- Every call of the environment goes through. -/
def Env.AllOk (env : Env) : Prop := ∀ site, env.signal site = .ok

/-- An environment in which every call goes through. -/
def Env.serving : Env := ⟨fun _ => .ok, 0, fun _ => false, fun t => toString t⟩

/-- An environment in which the call at one site raises. -/
def Env.failing (site : Site) : Env :=
  { Env.serving with signal := fun s => if s = site then .error else .ok }

theorem allOk_serving : Env.serving.AllOk := fun _ => rfl

theorem noKill_failing (site : Site) : (Env.failing site).NoKill := by
  intro s h
  simp only [Env.failing] at h
  split at h <;> exact nomatch h

variable {env : Env} {σ : Type} {I : σ → Prop}

theorem reach_ok {site : Site} (h : env.signal site = .ok) :
    (env.reach site : Code σ Unit) = pure () := by
  rw [Env.reach, h]

theorem reach_error {site : Site} (h : env.signal site = .error) :
    (env.reach site : Code σ Unit) = raise .error := by
  rw [Env.reach, h]

theorem raises_ok {site : Site} (h : env.signal site = .ok) :
    (env.raises site : Code σ Bool) = pure false := by
  rw [Env.raises, h]

theorem raises_error {site : Site} (h : env.signal site = .error) :
    (env.raises site : Code σ Bool) = pure true := by
  rw [Env.raises, h]

theorem reach_bind_ok {α : Type} {site : Site} (h : env.signal site = .ok) (f : Unit → Code σ α)
    (s : σ) : (env.reach site >>= f) s = f () s :=
  bind_done (by rw [reach_ok h, pure_apply])

theorem reach_bind_error {α : Type} {site : Site} (h : env.signal site = .error)
    (f : Unit → Code σ α) (s : σ) : (env.reach site >>= f) s = (.raised .error, s) :=
  bind_raised (by rw [reach_error h, raise_apply])

/-- Reaching a site leaves the state alone. -/
theorem reach_snd (site : Site) (s : σ) : (env.reach site s).2 = s := by
  rw [Env.reach]
  cases env.signal site <;> rfl

theorem mild_reach (hk : env.NoKill) (site : Site) : Mild I (env.reach site) := by
  rw [Env.reach]
  cases h : env.signal site with
  | ok => exact Mild.pure
  | error => exact Mild.raise
  | kill => exact absurd h (hk site)

theorem reach_bind_snd {α : Type} {site : Site} (h : env.signal site ≠ .ok) (f : Unit → Code σ α)
    (s : σ) : ((env.reach site >>= f) s).2 = s := by
  rw [Env.reach]
  cases hs : env.signal site with
  | ok => exact absurd hs h
  | error => rfl
  | kill => rfl

/-- A call that does not go through is the end of its block. -/
theorem reach_bind_ne_done {α : Type} {site : Site} (h : env.signal site ≠ .ok)
    (f : Unit → Code σ α) (s : σ) (a : α) : ((env.reach site >>= f) s).1 ≠ .done a := by
  rw [Env.reach, bind_apply]
  cases hs : env.signal site with
  | ok => exact absurd hs h
  | error => simp
  | kill => simp

/-! ### What the steps compute -/

section Steps

variable {ml : SparkML Nlp Km Features} {batch : List LogRow} {job : Job Nlp Km}

theorem trainStep_of_trained (h : job.self.trained = true) :
    trainStep ml env batch job = (.done true, job) := by
  rw [trainStep, bind_apply, read_apply]
  simp [h]

theorem trainStep_of_untrained (h : job.self.trained = false) (htrain : env.signal .train = .ok)
    {nlp : Nlp} {km : Km} {c : ℕ}
    (hmodel : trainModel ml enrichedColumns batch = some (nlp, km, c)) :
    trainStep ml env batch job
      = (.done true, { job with self := ⟨some nlp, some km, c, true⟩ }) := by
  rw [trainStep, bind_apply, read_apply]
  simp only [h, Bool.false_eq_true, if_false]
  refine exceptException_done ?_
  rw [reach_ok htrain, bind_apply, pure_apply]
  simp only [hmodel]
  rfl

theorem trainStep_of_error (h : job.self.trained = false) (htrain : env.signal .train = .error) :
    trainStep ml env batch job = (do env.reach .unpersist; pure false) job := by
  rw [trainStep, bind_apply, read_apply]
  simp only [h, Bool.false_eq_true, if_false]
  refine exceptException_error ?_
  rw [reach_error htrain, bind_apply, raise_apply]

theorem inferStep_of_models (htransform : env.signal .transform = .ok) {nlp : Nlp} {km : Km}
    (hnlp : job.self.nlpModel = some nlp) (hkm : job.self.kmModel = some km) :
    inferStep ml env batch job = (.done (some (scoreRows ml nlp km batch)), job) := by
  rw [inferStep, bind_apply, read_apply]
  refine exceptException_done ?_
  rw [reach_ok htransform, bind_apply, pure_apply]
  simp only [hnlp, hkm]
  rfl

theorem inferStep_of_error (h : env.signal .transform = .error ∨
      env.signal .transform = .ok ∧ (job.self.nlpModel = none ∨ job.self.kmModel = none)) :
    inferStep ml env batch job = (do env.reach .unpersist; pure none) job := by
  rw [inferStep, bind_apply, read_apply]
  refine exceptException_error ?_
  rcases h with h | ⟨h, hmodel⟩
  · rw [reach_error h, bind_apply, raise_apply]
  · rw [reach_ok h, bind_apply, pure_apply]
    rcases hmodel with hnone | hnone <;> simp only [hnone]
    · rfl
    · cases job.self.nlpModel <;> rfl

/-- A non-empty batch whose count and caching go through gets as far as the training. -/
theorem process_eq (hne : batch ≠ []) (hcount : env.signal .count = .ok)
    (hcache : env.signal .cache = .ok) (batchId : ℤ) :
    process ml env batch batchId job = (do
      if ← trainStep ml env batch then inferAndWrite ml env batch batchId
      else pure () : Code (Job Nlp Km) Unit) job := by
  have hlen : batch.length ≠ 0 := fun h => hne (List.length_eq_zero_iff.mp h)
  rw [process, reach_ok hcount, bind_apply, pure_apply]
  simp only [hlen, if_false]
  rw [reach_ok hcache, bind_apply, pure_apply]

theorem inferAndWrite_of_models (htransform : env.signal .transform = .ok) {nlp : Nlp} {km : Km}
    (hnlp : job.self.nlpModel = some nlp) (hkm : job.self.kmModel = some km) (batchId : ℤ) :
    inferAndWrite ml env batch batchId job = (do
      env.reach .select
      onSinks (writeSinks env (labelRows ml nlp km job.self.anomalyCluster batch) batchId)
      env.reach .unpersist : Code (Job Nlp Km) Unit) job := by
  rw [inferAndWrite, bind_apply, inferStep_of_models htransform hnlp hkm]
  rfl

theorem inferAndWrite_of_error (h : env.signal .transform = .error ∨
      env.signal .transform = .ok ∧ (job.self.nlpModel = none ∨ job.self.kmModel = none))
    (batchId : ℤ) : inferAndWrite ml env batch batchId job = env.reach .unpersist job := by
  rw [inferAndWrite, bind_apply, inferStep_of_error h, bind_apply]
  rcases hr : (env.reach .unpersist : Code (Job Nlp Km) Unit) job with ⟨_ | _ | _, job'⟩ <;> rfl

/-- Training and inference go through: an untrained processor trains, a trained one has
its models, and the models apply. -/
def Ready (env : Env) (self : BatchProcessor Nlp Km) : Prop :=
  (self.trained = false → env.signal .train = .ok) ∧
    (self.trained = true → self.nlpModel.isSome ∧ self.kmModel.isSome) ∧
    env.signal .transform = .ok

/-- The processor `self` becomes `self'` on a batch: it stays as it is, or it was
untrained and holds the models fitted on the batch. -/
def Trains (ml : SparkML Nlp Km Features) (batch : List LogRow)
    (self self' : BatchProcessor Nlp Km) : Prop :=
  self' = self ∨ self.trained = false ∧ ∃ nlp km c,
    trainModel ml enrichedColumns batch = some (nlp, km, c) ∧ self' = ⟨some nlp, some km, c, true⟩

theorem signal_eq_error (hk : env.NoKill) {site : Site} (h : env.signal site ≠ .ok) :
    env.signal site = .error := by
  cases hs : env.signal site with
  | ok => exact absurd hs h
  | error => rfl
  | kill => exact absurd hs (hk site)

variable (ml job) in
/-- **What the handler does with a non-empty batch** whose count and caching go through:
either training or inference raises, nothing is written and the cache is released, or
both go through, and the rows, labelled by the models now in place, go to the sinks. -/
theorem process_cases (hk : env.NoKill) (hne : batch ≠ []) (hcount : env.signal .count = .ok)
    (hcache : env.signal .cache = .ok) (batchId : ℤ) :
    (¬Ready env job.self ∧ ∃ self', Trains ml batch job.self self' ∧
      process ml env batch batchId job = env.reach .unpersist ⟨self', job.sinks⟩) ∨
    (Ready env job.self ∧ ∃ nlp km c, Trains ml batch job.self ⟨some nlp, some km, c, true⟩ ∧
      process ml env batch batchId job = (do
        env.reach .select
        onSinks (writeSinks env (labelRows ml nlp km c batch) batchId)
        env.reach .unpersist : Code (Job Nlp Km) Unit)
          ⟨⟨some nlp, some km, c, true⟩, job.sinks⟩) := by
  obtain ⟨self, sinks⟩ := job
  rw [process_eq hne hcount hcache, bind_apply]
  rcases htrained : self.trained with _ | _
  · -- an untrained processor: training it succeeds where its call goes through
    rcases Decidable.em (env.signal .train = .ok) with htrain | htrain
    · obtain ⟨⟨nlp, km, c⟩, hmodel⟩ := Option.isSome_iff_exists.mp
        (trainModel_isSome hne : (trainModel ml enrichedColumns batch).isSome)
      have hself : Trains ml batch self ⟨some nlp, some km, c, true⟩ :=
        Or.inr ⟨htrained, nlp, km, c, hmodel, rfl⟩
      rw [trainStep_of_untrained htrained htrain hmodel]
      rcases Decidable.em (env.signal .transform = .ok) with htransform | htransform
      · refine Or.inr ⟨⟨fun _ => htrain, fun h => ?_, htransform⟩, nlp, km, c, hself, ?_⟩
        · rw [htrained] at h
          exact nomatch h
        · exact inferAndWrite_of_models htransform rfl rfl batchId
      · refine Or.inl ⟨fun h => htransform h.2.2, _, hself, ?_⟩
        exact inferAndWrite_of_error (Or.inl (signal_eq_error hk htransform)) batchId
    · refine Or.inl ⟨fun h => htrain (h.1 htrained), self, Or.inl rfl, ?_⟩
      rw [trainStep_of_error htrained (signal_eq_error hk htrain), bind_apply]
      rcases hr : (env.reach .unpersist : Code (Job Nlp Km) Unit) ⟨self, sinks⟩
        with ⟨_ | _ | _, job'⟩ <;> rfl
  · -- a trained one: inference raises where its call does, or where a model is missing
    rw [trainStep_of_trained htrained]
    rcases Decidable.em (env.signal .transform = .ok) with htransform | htransform
    swap
    · refine Or.inl ⟨fun h => htransform h.2.2, self, Or.inl rfl, ?_⟩
      exact inferAndWrite_of_error (Or.inl (signal_eq_error hk htransform)) batchId
    rcases hnlp : self.nlpModel with _ | nlp
    · refine Or.inl ⟨fun h => ?_, self, Or.inl rfl, ?_⟩
      · have hsome := (h.2.1 htrained).1
        rw [hnlp] at hsome
        exact nomatch hsome
      · exact inferAndWrite_of_error (Or.inr ⟨htransform, Or.inl hnlp⟩) batchId
    rcases hkm : self.kmModel with _ | km
    · refine Or.inl ⟨fun h => ?_, self, Or.inl rfl, ?_⟩
      · have hsome := (h.2.1 htrained).2
        rw [hkm] at hsome
        exact nomatch hsome
      · exact inferAndWrite_of_error (Or.inr ⟨htransform, Or.inr hkm⟩) batchId
    obtain ⟨nlpModel, kmModel, c, trained⟩ := self
    obtain rfl : nlpModel = some nlp := hnlp
    obtain rfl : kmModel = some km := hkm
    obtain rfl : trained = true := htrained
    refine Or.inr ⟨⟨nofun, fun _ => ⟨rfl, rfl⟩, htransform⟩, nlp, km, c, Or.inl rfl, ?_⟩
    exact inferAndWrite_of_models htransform rfl rfl batchId

end Steps

end AiopsLog
