import AiopsLog.RowIsolation

/-!
# What a sink write leaves alone

Each write touches its own table – and the counter of identifiers, where it draws some.
So an assertion that does not speak of that table survives the write, and under an
environment that kills nothing the write either returns or raises an error. Both are
said at once, for any assertion `I` the updates of the table keep.

The consequence drawn here is `AiopsLog.writeSinks_spec`: whatever fails, the writes
return, and what `processed_logs` holds in the end is decided by the Delta append alone.
-/

namespace AiopsLog

open Py Py.Code

variable {env : Env} {I : Sinks → Prop}

section Mild

variable (hk : env.NoKill)

include hk

theorem mild_publishAlerts {anomalies : List ProcessedRow}
    (hI : ∀ s alerts, (∀ a ∈ alerts, a ∈ anomalies.map (alertJson env.castString)) → I s →
      I { s with criticalAlerts := s.criticalAlerts ++ alerts }) :
    Mild I (publishAlerts env anomalies) := by
  rw [publishAlerts]
  cases h : env.signal .publish with
  | ok => exact Mild.update fun s hs => hI s _ (fun _ h => h) hs
  | error =>
    -- the alerts that got out are some of them
    refine (Mild.update fun s hs => hI s _ (fun _ h => ?_) hs).bind fun _ => Mild.raise
    exact List.mem_of_mem_take h
  | kill => exact absurd h (hk _)

theorem mild_writePostgres (hI : ∀ s metrics, I s → I { s with batchMetrics := metrics })
    (df : List ProcessedRow) : Mild I (writePostgres env df) := by
  refine (mild_reach hk _).bind fun _ => Mild.exceptException ?_
  refine (mild_reach hk _).bind fun _ => ?_
  rw [appendMetrics]
  split
  · exact Mild.update fun s hs => hI s _ hs
  · exact (Mild.update fun s hs => hI s _ hs).bind fun _ => Mild.raise

theorem mild_writeAnomalyAlertsPg {anomalies : List ProcessedRow}
    (hI : ∀ s n, I s → I { s with uuids := n })
    (hI' : ∀ s s' rows, Sql.Extends (fun r => ∃ alertId, ∃ row ∈ anomalies,
        r = sparkAlertRow alertId row) s.anomalyAlertsPg rows → I s → I s' →
      I { s' with anomalyAlertsPg := rows }) :
    Mild I (writeAnomalyAlertsPg env anomalies) := by
  refine (mild_reach hk _).bind fun _ => ?_
  split
  · exact Mild.pure
  · refine Mild.exceptException ?_
    refine (mild_reach hk _).bind fun _ => Mild.read_bind fun s hs => ?_
    -- what the loop commits extends the table that was read
    have hcommit : ∀ uuids : Uuid, Sql.Extends
        (fun r => ∃ alertId, ∃ row ∈ anomalies, r = sparkAlertRow alertId row) s.anomalyAlertsPg
        (Sql.Txn.insertEach (·.alertId) (attempts env anomalies.zipIdx uuids)
          (Sql.Txn.start s.anomalyAlertsPg, 0)).1.commit :=
      fun uuids => Sql.Txn.extends_commit_insertEach fun r hr => exists_of_mem_attempts hr
    intro s' hs'
    rw [bind_done (insertAlertRows_eq (fun i => hk _) (fun i => hk _) _ _ s')]
    have hrest := (mild_reach hk .alertCommit).bind fun _ =>
      Mild.update fun s'' hs'' => hI' s s'' _ (hcommit s'.uuids) hs hs''
    exact hrest _ (hI s' _ hs')

theorem mild_upsertHealthRows : ∀ rows txn, Mild I (upsertHealthRows env rows txn)
  | [], _ => Mild.pure
  | (_, _) :: rows, _ => (mild_reach hk _).bind fun _ => mild_upsertHealthRows rows _

theorem mild_updateComponentHealth (hI : ∀ s rows, I s → I { s with componentHealth := rows })
    (df : List ProcessedRow) : Mild I (updateComponentHealth env df) := by
  refine (mild_reach hk _).bind fun _ => ?_
  dsimp only
  split
  · exact Mild.pure
  · refine Mild.exceptException ?_
    refine (mild_reach hk _).bind fun _ => Mild.read.bind fun table => ?_
    refine (mild_upsertHealthRows hk _ _).bind fun txn => ?_
    exact (mild_reach hk _).bind fun _ => Mild.update fun s hs => hI s _ hs

theorem mild_writeModelMetrics (hI : ∀ s rows, I s → I { s with modelMetrics := rows })
    (processed : List ProcessedRow) (batchId : ℤ) :
    Mild I (writeModelMetrics env processed batchId) := by
  refine (mild_reach hk _).bind fun _ => ?_
  split
  · exact Mild.pure
  · refine (mild_reach hk _).bind fun _ => ?_
    split
    · exact Mild.raise
    · refine Mild.exceptException ((mild_reach hk _).bind fun _ => ?_)
      refine (mild_reach hk _).bind fun _ => (mild_reach hk _).bind fun _ => ?_
      exact Mild.update fun s hs => hI s _ hs

/-! ### The Delta append decides -/

/-- What `processed_logs` holds after a Delta append. -/
theorem logged_writeDelta (df : List ProcessedRow) (s : Sinks) :
    (logged (writeDelta env df) s).1 = .done () ∧
      (logged (writeDelta env df) s).2.processedLogs
        = s.processedLogs ++ if env.signal .delta = .ok then df.zipIdx s.uuids else [] := by
  rw [logged, writeDelta]
  cases h : env.signal .delta with
  | ok =>
    rw [reach_ok h]
    exact ⟨rfl, by simp [exceptException, tryExcept, bind_apply]⟩
  | error =>
    rw [reach_error h]
    exact ⟨rfl, by simp [exceptException, tryExcept, bind_apply]⟩
  | kill => exact absurd h (hk _)

/-- **The writes return, and the Delta append alone decides what `processed_logs`
holds.** -/
theorem writeSinks_spec (processed : List ProcessedRow) (batchId : ℤ) (s : Sinks) :
    (writeSinks env processed batchId s).1 = .done () ∧
      (writeSinks env processed batchId s).2.processedLogs
        = s.processedLogs ++ if env.signal .delta = .ok then processed.zipIdx s.uuids else [] := by
  obtain ⟨hdone, hlogs⟩ := logged_writeDelta hk processed s
  -- the other writes keep whatever the append has left
  have hrest : ∀ step : Code Sinks Unit, ∀ L, Mild (fun s => s.processedLogs = L) step →
      Ensures (fun s => s.processedLogs = L) (logged step)
        fun e s => e = .done () ∧ s.processedLogs = L :=
    fun step L hstep => Mild.exceptException_returns hstep
  generalize hL : s.processedLogs ++ (if env.signal .delta = .ok then processed.zipIdx s.uuids
    else []) = L at hlogs ⊢
  have hfirst : Ensures (fun s' => s' = s) (logged (writeDelta env processed))
      fun e s => e = .done () ∧ s.processedLogs = L := by
    rintro s' rfl
    exact ⟨hdone, hlogs⟩
  -- from write to write; what is left of each is that it is mild
  refine hfirst.returns_bind ((hrest _ L ?_).returns_bind ((hrest _ L ?_).returns_bind
    ((hrest _ L ?_).returns_bind ((hrest _ L ?_).returns_bind (hrest _ L ?_))))) s rfl
  · refine (mild_reach hk _).bind fun _ => ?_
    split
    · exact mild_publishAlerts hk fun _ _ _ h => h
    · exact Mild.pure
  · exact mild_writePostgres hk (fun _ _ h => h) _
  · exact mild_writeAnomalyAlertsPg hk (fun _ _ h => h) fun _ _ _ _ _ h => h
  · exact mild_updateComponentHealth hk (fun _ _ h => h) _
  · exact mild_writeModelMetrics hk (fun _ _ h => h) _ _

/-! ### Assertions all six writes keep -/

/-- An assertion that survives whatever the writes of these rows may leave of them in
their tables. -/
structure KeptByWrites (env : Env) (processed : List ProcessedRow) (I : Sinks → Prop) : Prop where
  uuids : ∀ s n, I s → I { s with uuids := n }
  logs : ∀ s n, I s → I { s with processedLogs := s.processedLogs ++ processed.zipIdx n }
  alerts : ∀ s alerts, (∀ a ∈ alerts, a ∈ (anomaliesOf processed).map (alertJson env.castString)) →
    I s → I { s with criticalAlerts := s.criticalAlerts ++ alerts }
  metrics : ∀ s metrics, I s → I { s with batchMetrics := metrics }
  alertRows : ∀ s s' rows, Sql.Extends (fun r => ∃ alertId, ∃ row ∈ anomaliesOf processed,
    r = sparkAlertRow alertId row) s.anomalyAlertsPg rows → I s → I s' →
    I { s' with anomalyAlertsPg := rows }
  health : ∀ s rows, I s → I { s with componentHealth := rows }
  models : ∀ s rows, I s → I { s with modelMetrics := rows }

/-- **The writes return, and keep what each of them keeps.** -/
theorem KeptByWrites.returns_writeSinks {processed : List ProcessedRow}
    (h : KeptByWrites env processed I) (batchId : ℤ) :
    Ensures I (writeSinks env processed batchId) fun e s => e = .done () ∧ I s := by
  have hlogged : ∀ step : Code Sinks Unit, Mild I step →
      Ensures I (logged step) fun e s => e = .done () ∧ I s :=
    fun step hstep => Mild.exceptException_returns hstep
  refine (hlogged _ ?_).returns_bind ((hlogged _ ?_).returns_bind ((hlogged _ ?_).returns_bind
    ((hlogged _ ?_).returns_bind ((hlogged _ ?_).returns_bind (hlogged _ ?_)))))
  · refine (mild_reach hk _).bind fun _ => Mild.update fun s hs => ?_
    exact h.uuids _ _ (h.logs s s.uuids hs)
  · refine (mild_reach hk _).bind fun _ => ?_
    split
    · exact mild_publishAlerts hk h.alerts
    · exact Mild.pure
  · exact mild_writePostgres hk h.metrics _
  · exact mild_writeAnomalyAlertsPg hk h.uuids h.alertRows
  · exact mild_updateComponentHealth hk h.health _
  · exact mild_writeModelMetrics hk h.models _ _

end Mild

end AiopsLog
