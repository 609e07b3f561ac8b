import AiopsLog.Runs

/-!
# A call that can be killed anywhere

The process of the job can be killed inside any call of the handler, at any of the places where
it waits for something. What is left then is what the calls before have done: the processor is as
it was or holds the models of the batch, and `processed_logs` has not changed or has got the rows
of the batch, labelled by the models that are in place (`AiopsLog.Left`).

A handler that returns without having appended its rows has met with an error in the training,
in the inference or in the append, and has logged it (`AiopsLog.Env.RowsSafe`).
-/

namespace AiopsLog

open Py Py.Code

variable {Nlp Km Features : Type}

/-! ### The writes after the append -/

section Writes

variable {env : Env} {L : List (ProcessedRow × Uuid)}

theorem keeps_reach {σ : Type} {I : σ → Prop} (site : Site) : Keeps I (env.reach site) := by
  rw [Env.reach]
  cases env.signal site with
  | ok => exact Keeps.pure
  | error => exact Keeps.raise
  | kill => exact Keeps.halt

theorem keeps_publishAlerts (anomalies : List ProcessedRow) :
    Keeps (fun s => s.processedLogs = L) (publishAlerts env anomalies) := by
  rw [publishAlerts]
  cases env.signal .publish with
  | ok => exact Keeps.update fun _ h => h
  | error => exact Keeps.bind (Keeps.update fun _ h => h) fun _ => Keeps.raise
  | kill => exact Keeps.halt

theorem keeps_writePostgres (df : List ProcessedRow) :
    Keeps (fun s => s.processedLogs = L) (writePostgres env df) := by
  refine (keeps_reach _).bind fun _ => Keeps.exceptException ?_ Keeps.pure
  refine (keeps_reach _).bind fun _ => ?_
  rw [appendMetrics]
  split
  · exact Keeps.update fun _ h => h
  · exact Keeps.bind (Keeps.update fun _ h => h) fun _ => Keeps.raise

theorem keeps_raises (site : Site) :
    Keeps (fun s : Sinks => s.processedLogs = L) (env.raises site) := by
  rw [Env.raises]
  cases env.signal site with
  | ok | error => exact Keeps.pure
  | kill => exact Keeps.halt

theorem keeps_insertAlertRows : ∀ rows acc,
    Keeps (fun s => s.processedLogs = L) (insertAlertRows env rows acc)
  | [], _ => Keeps.pure
  | (row, i) :: rows, (txn, inserted) => by
    refine Keeps.read.bind fun alertId => Keeps.bind (Keeps.update fun _ h => h) fun _ => ?_
    refine (keeps_raises _).bind fun unsent => ?_
    split
    · exact keeps_insertAlertRows rows _
    · exact (keeps_raises _).bind fun rejected => keeps_insertAlertRows rows _

theorem keeps_writeAnomalyAlertsPg (anomalies : List ProcessedRow) :
    Keeps (fun s => s.processedLogs = L) (writeAnomalyAlertsPg env anomalies) := by
  refine (keeps_reach _).bind fun _ => ?_
  split
  · exact Keeps.pure
  · refine Keeps.exceptException ?_ Keeps.pure
    refine (keeps_reach _).bind fun _ => Keeps.read.bind fun table => ?_
    refine (keeps_insertAlertRows _ _).bind fun acc => ?_
    exact (keeps_reach _).bind fun _ => Keeps.update fun _ h => h

theorem keeps_upsertHealthRows : ∀ rows txn,
    Keeps (fun s => s.processedLogs = L) (upsertHealthRows env rows txn)
  | [], _ => Keeps.pure
  | (_, _) :: rows, _ => (keeps_reach _).bind fun _ => keeps_upsertHealthRows rows _

theorem keeps_updateComponentHealth (df : List ProcessedRow) :
    Keeps (fun s => s.processedLogs = L) (updateComponentHealth env df) := by
  refine (keeps_reach _).bind fun _ => ?_
  dsimp only
  split
  · exact Keeps.pure
  · refine Keeps.exceptException ?_ Keeps.pure
    refine (keeps_reach _).bind fun _ => Keeps.read.bind fun table => ?_
    refine (keeps_upsertHealthRows _ _).bind fun txn => ?_
    exact (keeps_reach _).bind fun _ => Keeps.update fun _ h => h

theorem keeps_writeModelMetrics (processed : List ProcessedRow) (batchId : ℤ) :
    Keeps (fun s => s.processedLogs = L) (writeModelMetrics env processed batchId) := by
  refine (keeps_reach _).bind fun _ => ?_
  split
  · exact Keeps.pure
  · refine (keeps_reach _).bind fun _ => ?_
    split
    · exact Keeps.raise
    · refine Keeps.exceptException ((keeps_reach _).bind fun _ => ?_) Keeps.pure
      refine (keeps_reach _).bind fun _ => (keeps_reach _).bind fun _ => ?_
      exact Keeps.update fun _ h => h

variable (env) in
/-- The writes after the append leave `processed_logs` alone. -/
theorem keeps_afterDelta (processed : List ProcessedRow) (batchId : ℤ) :
    Keeps (fun s => s.processedLogs = L) (do
      logged (do
        env.reach .alertCount
        if (anomaliesOf processed).length > 0 then publishAlerts env (anomaliesOf processed))
      logged (writePostgres env processed)
      logged (writeAnomalyAlertsPg env (anomaliesOf processed))
      logged (updateComponentHealth env processed)
      logged (writeModelMetrics env processed batchId) : Code Sinks Unit) := by
  have hlogged : ∀ step : Code Sinks Unit, Keeps (fun s => s.processedLogs = L) step →
      Keeps (fun s => s.processedLogs = L) (logged step) :=
    fun step hstep => hstep.exceptException Keeps.pure
  refine (hlogged _ ?_).bind fun _ => (hlogged _ (keeps_writePostgres _)).bind fun _ =>
    (hlogged _ (keeps_writeAnomalyAlertsPg _)).bind fun _ =>
    (hlogged _ (keeps_updateComponentHealth _)).bind fun _ =>
    hlogged _ (keeps_writeModelMetrics _ _)
  refine (keeps_reach _).bind fun _ => ?_
  split
  · exact keeps_publishAlerts _
  · exact Keeps.pure

variable (env) in
/-- **The append decides what `processed_logs` holds**, wherever the writes are killed; and
where it has not been made and the writes return, it has raised. -/
theorem processedLogs_writeSinks (processed : List ProcessedRow) (batchId : ℤ) (s : Sinks) :
    (writeSinks env processed batchId s).2.processedLogs
        = s.processedLogs ++ (if env.signal .delta = .ok then processed.zipIdx s.uuids else []) ∧
      ((writeSinks env processed batchId s).1 = .done () → env.signal .delta ≠ .kill) := by
  cases hdelta : env.signal .delta with
  | ok =>
    have hfirst : logged (writeDelta env processed) s = (.done (), s.appendLogs processed) := by
      refine exceptException_done ?_
      rw [writeDelta, reach_bind_ok hdelta]
      rfl
    rw [writeSinks, bind_done hfirst]
    exact ⟨keeps_afterDelta env processed batchId _ rfl, fun _ => Signal.noConfusion⟩
  | error =>
    have hfirst : logged (writeDelta env processed) s = (.done (), s) := by
      refine (exceptException_error ?_).trans (pure_apply _)
      rw [writeDelta, reach_bind_error hdelta]
    rw [writeSinks, bind_done hfirst]
    refine ⟨(keeps_afterDelta env processed batchId s rfl).trans ?_, fun _ => Signal.noConfusion⟩
    rw [if_neg Signal.noConfusion, List.append_nil]
  | kill =>
    have hfirst : logged (writeDelta env processed) s = (.halted, s) := by
      refine exceptException_halted (bind_halted ?_)
      rw [Env.reach, hdelta]
      rfl
    rw [writeSinks, bind_halted hfirst, if_neg Signal.noConfusion, List.append_nil]
    exact ⟨rfl, fun h => absurd h Ending.halted_ne_done⟩

end Writes

/-! ### What a call leaves -/

/-- No step raises whose exception is logged before the rows are written. -/
def Env.RowsSafe (env : Env) : Prop :=
  env.signal .train ≠ .error ∧ env.signal .transform ≠ .error ∧ env.signal .delta ≠ .error

/-- What a call leaves, however it ends. -/
inductive Left (ml : SparkML Nlp Km Features) (env : Env) (batch : List LogRow) (job : Job Nlp Km)
    (result : Ending Unit × Job Nlp Km) : Prop where
  /-- Nothing in `processed_logs`. Where it has returned although there are rows, an error has
  been logged. -/
  | unwritten : Trains ml batch job.self result.2.self →
      result.2.sinks.processedLogs = job.sinks.processedLogs →
      (result.1 = .done () → batch ≠ [] → ¬env.RowsSafe) → Left ml env batch job result
  /-- The rows, labelled by the models that are in place. -/
  | written (nlp : Nlp) (km : Km) (c n : ℕ) :
      Trains ml batch job.self result.2.self → result.2.self = ⟨some nlp, some km, c, true⟩ →
      result.2.sinks.processedLogs
        = job.sinks.processedLogs ++ (labelRows ml nlp km c batch).zipIdx n →
      Left ml env batch job result

section Process

variable {ml : SparkML Nlp Km Features} {env : Env} {batch : List LogRow} {batchId : ℤ}
  {job : Job Nlp Km}

/-- A block before a place that is reached last. -/
theorem bind_reach_snd {σ : Type} (c : Code σ Unit) (site : Site) (s : σ) :
    ((c >>= fun _ => env.reach site) s).2 = (c s).2 := by
  rw [bind_apply]
  rcases c s with ⟨_ | _ | _, s'⟩
  · exact reach_snd site s'
  · rfl
  · rfl

theorem done_of_bind_reach {σ : Type} {c : Code σ Unit} {site : Site} {s : σ}
    (h : ((c >>= fun _ => env.reach site) s).1 = .done ()) : (c s).1 = .done () := by
  rw [bind_apply] at h
  rcases hc : c s with ⟨_ | _ | _, s'⟩
  · rfl
  · rw [hc] at h
    exact nomatch h
  · rw [hc] at h
    exact nomatch h

/-- A call that is stopped before it has done anything. -/
theorem Left.of_reach {site : Site} (h : env.signal site ≠ .ok)
    (f : Unit → Code (Job Nlp Km) Unit) :
    Left ml env batch job ((env.reach site >>= f) job) := by
  refine Left.unwritten ?_ ?_ fun hdone => absurd hdone (reach_bind_ne_done h f job ())
  · rw [reach_bind_snd h]
    exact Or.inl rfl
  · rw [reach_bind_snd h]

/-- **From the inference on**, with models in place. -/
theorem left_inferAndWrite {nlp : Nlp} {km : Km} {c : ℕ}
    (htrains : Trains ml batch job.self ⟨some nlp, some km, c, true⟩) :
    Left ml env batch job
      (inferAndWrite ml env batch batchId ⟨⟨some nlp, some km, c, true⟩, job.sinks⟩) := by
  cases htransform : env.signal .transform with
  | kill =>
    have hinfer : inferStep ml env batch ⟨⟨some nlp, some km, c, true⟩, job.sinks⟩
        = (.halted, ⟨⟨some nlp, some km, c, true⟩, job.sinks⟩) := by
      refine (bind_done (read_apply _)).trans (exceptException_halted (bind_halted ?_))
      rw [Env.reach, htransform]
      rfl
    rw [inferAndWrite, bind_halted hinfer]
    exact Left.unwritten htrains rfl fun h => absurd h Ending.halted_ne_done
  | error =>
    rw [inferAndWrite_of_error (Or.inl htransform)]
    refine Left.unwritten ?_ ?_ fun _ _ hsafe => hsafe.2.1 htransform
    · rw [reach_snd]
      exact htrains
    · rw [reach_snd]
  | ok =>
    rw [inferAndWrite_of_models htransform rfl rfl]
    by_cases hselect : env.signal .select = .ok
    swap
    · refine Left.unwritten ?_ ?_ fun hdone => absurd hdone (reach_bind_ne_done hselect _ _ ())
      · rw [reach_bind_snd hselect]
        exact htrains
      · rw [reach_bind_snd hselect]
    rw [reach_bind_ok hselect]
    obtain ⟨hlogs, hkill⟩ :=
      processedLogs_writeSinks env (labelRows ml nlp km c batch) batchId job.sinks
    by_cases hdelta : env.signal .delta = .ok
    · rw [if_pos hdelta] at hlogs
      refine Left.written nlp km c job.sinks.uuids ?_ ?_ ?_
      · rw [bind_reach_snd]
        exact htrains
      · rw [bind_reach_snd]
        rfl
      · rw [bind_reach_snd]
        exact hlogs
    · rw [if_neg hdelta, List.append_nil] at hlogs
      refine Left.unwritten ?_ ?_ fun hdone _ hsafe => ?_
      · rw [bind_reach_snd]
        exact htrains
      · rw [bind_reach_snd]
        exact hlogs
      · -- the append has not gone through, and has neither raised nor been killed
        have hreturned := done_of_bind_reach hdone
        have hkill := hkill hreturned
        cases hsignal : env.signal .delta with
        | ok => exact hdelta hsignal
        | error => exact hsafe.2.2 hsignal
        | kill => exact hkill hsignal

/-- **What a call leaves**, wherever it raises or is killed. -/
theorem left_process (hself : job.self.HasModels) :
    Left ml env batch job (process ml env batch batchId job) := by
  by_cases hcount : env.signal .count = .ok
  swap
  · exact Left.of_reach hcount _
  by_cases hne : batch = []
  · subst hne
    rw [process_nil hcount]
    exact Left.unwritten (Or.inl rfl) rfl fun _ hne => absurd rfl hne
  by_cases hcache : env.signal .cache = .ok
  swap
  · have hlen : batch.length ≠ 0 := fun h => hne (List.length_eq_zero_iff.mp h)
    rw [process, reach_bind_ok hcount, if_neg hlen]
    exact Left.of_reach hcache _
  rw [process_eq hne hcount hcache]
  obtain ⟨self, sinks⟩ := job
  cases htrained : self.trained with
  | true =>
    obtain ⟨hnlp, hkm⟩ := hself htrained
    obtain ⟨nlp, hnlp⟩ := Option.isSome_iff_exists.mp hnlp
    obtain ⟨km, hkm⟩ := Option.isSome_iff_exists.mp hkm
    obtain ⟨nlpModel, kmModel, c, trained⟩ := self
    obtain rfl : nlpModel = some nlp := hnlp
    obtain rfl : kmModel = some km := hkm
    obtain rfl : trained = true := htrained
    rw [bind_done (trainStep_of_trained rfl)]
    exact left_inferAndWrite (Or.inl rfl)
  | false =>
    cases htrain : env.signal .train with
    | ok =>
      obtain ⟨⟨nlp, km, c⟩, hmodel⟩ := Option.isSome_iff_exists.mp
        (trainModel_isSome hne : (trainModel ml enrichedColumns batch).isSome)
      rw [bind_done (trainStep_of_untrained htrained htrain hmodel)]
      exact left_inferAndWrite (Or.inr ⟨htrained, nlp, km, c, hmodel, rfl⟩)
    | error =>
      have hstep : trainStep ml env batch ⟨self, sinks⟩ = _ := trainStep_of_error htrained htrain
      have hrest : (do
          if ← trainStep ml env batch then inferAndWrite ml env batch batchId
          else pure () : Code (Job Nlp Km) Unit) ⟨self, sinks⟩
            = env.reach .unpersist ⟨self, sinks⟩ := by
        rw [bind_apply, hstep, bind_apply]
        rcases hr : (env.reach .unpersist : Code (Job Nlp Km) Unit) ⟨self, sinks⟩
          with ⟨_ | _ | _, job'⟩ <;> rfl
      rw [hrest]
      refine Left.unwritten ?_ ?_ fun _ _ hsafe => hsafe.1 htrain
      · rw [reach_snd]
        exact Or.inl rfl
      · rw [reach_snd]
    | kill =>
      have hstep : trainStep ml env batch ⟨self, sinks⟩ = (.halted, ⟨self, sinks⟩) := by
        refine (bind_done (read_apply _)).trans ?_
        rw [if_neg (by rw [htrained]; exact Bool.false_ne_true)]
        refine exceptException_halted (bind_halted ?_)
        rw [Env.reach, htrain]
        rfl
      rw [bind_halted hstep]
      exact Left.unwritten (Or.inl rfl) rfl fun h => absurd h Ending.halted_ne_done

end Process

end AiopsLog
