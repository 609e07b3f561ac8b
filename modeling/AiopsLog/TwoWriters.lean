import AiopsLog.Lib.Run
import AiopsLog.SinkEffects

/-!
# Two writers of one table

The streaming job inserts its anomalous rows into `anomaly_alerts_pg` itself, and it also
publishes them; the gateway inserts every alert it consumes into the same table. Each
draws a fresh `alert_id` for its insert, so `ON CONFLICT DO NOTHING` never finds a
conflict between them, and nothing else stands in the way of a row being there twice –
except that asyncpg refuses the gateway's insert of an alert with a timestamp.

The two are here the parties of one system (`AiopsLog.writerStep`): batches, statements
and commits of the job, and consumptions of the gateway, in any order. Every row of the
table remembers which occurrence of an anomalous row it stands for. As long as every
anomalous row has an event time, no occurrence is there twice
(`AiopsLog.atMostOnce_of_timed`); a row without one is, as soon as both writers have
got to it (`AiopsLog.consume_inserts`).
-/

namespace AiopsLog

/-- Spark's rendering of a timestamp as a string, which is never empty. -/
structure Rendering where
  text : Timestamp → String
  text_ne : ∀ t, text t ≠ ""

/-! ### The system -/

/-- The state of the two writers. The occurrences of anomalous rows are numbered as they
come; the number is what a row, an alert or an insert carries besides its content. -/
structure Writers where
  uuids : ℕ
  /-- How many occurrences there have been. -/
  seen : ℕ
  /-- The rows the job has still to insert. -/
  toInsert : List (ProcessedRow × ℕ)
  /-- The rows of the job's open transaction. -/
  work : List (AlertRow × ℕ)
  /-- Whether a statement of the transaction has failed. -/
  failed : Bool
  /-- The alerts published and not yet consumed. -/
  topic : List (Json × ℕ)
  /-- `anomaly_alerts_pg`. -/
  table : List (AlertRow × ℕ)

/-- The writers as they start. -/
def Writers.start : Writers := ⟨0, 0, [], [], false, [], []⟩

/-- What the two writers do. -/
inductive WriterAction where
  /-- The job comes to the anomalous rows of a batch and publishes the first of them. -/
  | batch : List ProcessedRow → ℕ → WriterAction
  /-- The job executes the next insert, which the server rejects or not. -/
  | insert : Bool → WriterAction
  /-- The job commits its transaction. -/
  | commit : WriterAction
  /-- The job gives its transaction up: the connection or the commit fails. -/
  | abandon : WriterAction
  /-- The gateway consumes an alert at some time; the server accepts its insert or not. -/
  | consume : ℕ → String → Bool → WriterAction

section System

variable (spark : Rendering) (pydantic : Pydantic) (asyncpg : Asyncpg)

/-- The identifiers a statement of the job's transaction sees. -/
def Writers.visibleIds (w : Writers) : List Uuid := (w.table ++ w.work).map (·.1.alertId)

/-- The writers when the anomalous rows of a batch have come, and the first of them have
been published. -/
def Writers.arrive (anomalies : List ProcessedRow) (published : ℕ) (w : Writers) : Writers :=
  { w with
    seen := w.seen + anomalies.length
    toInsert := anomalies.zipIdx w.seen
    topic := w.topic ++ ((anomalies.zipIdx w.seen).take published).map
      fun r => (alertJson spark.text r.1, r.2) }

/-- A step of one of the writers. -/
def writerStep (w : Writers) : WriterAction → Option Writers
  | .batch anomalies published =>
    if w.toInsert = [] ∧ w.work = [] ∧ w.failed = false then
      some (w.arrive spark anomalies published)
    else none
  | .insert rejected => match w.toInsert with
    | [] => none
    | (row, n) :: rest =>
      let w' := { w with uuids := w.uuids + 1, toInsert := rest }
      -- a failed transaction rejects whatever follows in it
      if w.failed then some w'
      else if rejected then some { w' with failed := true }
      -- `ON CONFLICT DO NOTHING`
      else if w.uuids ∈ w.visibleIds then some w'
      else some { w' with work := w.work ++ [(sparkAlertRow w.uuids row, n)] }
  | .commit =>
    if w.toInsert = [] then
      some { w with
        table := if w.failed then w.table else w.table ++ w.work
        work := []
        failed := false }
    else none
  | .abandon => some { w with toInsert := [], work := [], failed := false }
  | .consume i receivedAt accepted => match w.topic[i]? with
    | none => none
    | some (alert, n) =>
      let w' := { w with topic := w.topic.eraseIdx i }
      match alertEvent pydantic receivedAt alert with
      | none => some w'
      -- the driver refuses a parameter when the identifier has been drawn
      | some event => match gatewayAlertRow asyncpg w.uuids event with
        | none => some { w' with uuids := w.uuids + 1 }
        | some row => some { w' with
            uuids := w.uuids + 1
            table := if accepted then
                Sql.insertOrIgnore (fun r : AlertRow × ℕ => r.1.alertId) (row, n) w.table
              else w.table }

/-- **No occurrence is in the table twice.** -/
def Writers.AtMostOnce (w : Writers) : Prop := ∀ n, w.table.countP (·.2 = n) ≤ 1

/-- Every anomalous row the action brings has an event time. -/
def WriterAction.Timed : WriterAction → Prop
  | .batch anomalies _ => ∀ row ∈ anomalies, row.eventTime.isSome
  | _ => True

end System

/-! ### What the gateway does with an alert -/

section Gateway

variable {spark : Rendering} (pydantic : Pydantic) (asyncpg : Asyncpg)

/-- An alert with a timestamp is refused by the driver. -/
theorem gateway_refuses {row : ProcessedRow} (h : row.eventTime.isSome) (id : Uuid)
    (receivedAt : String) :
    ∃ event, alertEvent pydantic receivedAt (alertJson spark.text row) = some event ∧
      gatewayAlertRow asyncpg id event = none := by
  obtain ⟨t, ht⟩ := Option.isSome_iff_exists.mp h
  refine ⟨_, alertEvent_alertJson pydantic receivedAt spark.text_ne row, ?_⟩
  refine gatewayAlertRow_of_timestamp asyncpg (t := spark.text t) ?_
  simp [ht]

/-- An alert without a timestamp is accepted by the driver. -/
theorem gateway_accepts {row : ProcessedRow} (h : row.eventTime = none)
    (hcluster : row.cluster < 2 ^ 31) (id : Uuid) (receivedAt : String) :
    ∃ event, alertEvent pydantic receivedAt (alertJson spark.text row) = some event ∧
      gatewayAlertRow asyncpg id event = some (sparkAlertRow id row) := by
  refine ⟨_, alertEvent_alertJson pydantic receivedAt spark.text_ne row, ?_⟩
  have hlt : row.cluster < 2147483648 := by omega
  simp [gatewayAlertRow, asyncpg.timestamp_none, asyncpg.integer_some, sparkAlertRow, h, hlt]

end Gateway

/-! ### The invariant -/

section Invariant

variable {spark : Rendering} {pydantic : Pydantic} {asyncpg : Asyncpg} {w w' : Writers}

/-- The occurrences the job has inserted or is about to. -/
def Writers.occurrences (w : Writers) : List ℕ :=
  (w.table ++ w.work).map Prod.snd ++ w.toInsert.map Prod.snd

/-- **What every step keeps**: every occurrence is in one place – the table, the open
transaction, or the rows still to insert – and every alert on its way has a timestamp. -/
structure Separate (spark : Rendering) (w : Writers) : Prop where
  nodup : w.occurrences.Nodup
  lt_seen : ∀ n ∈ w.occurrences, n < w.seen
  timed : ∀ alert ∈ w.topic, ∃ row : ProcessedRow, alert.1 = alertJson spark.text row ∧
    row.eventTime.isSome

theorem separate_start : Separate spark Writers.start :=
  ⟨List.nodup_nil, nofun, nofun⟩

theorem Separate.of_sublist (h : Separate spark w) (hsub : w'.occurrences.Sublist w.occurrences)
    (hseen : w'.seen = w.seen) (htopic : ∀ alert ∈ w'.topic, alert ∈ w.topic) :
    Separate spark w' :=
  ⟨h.nodup.sublist hsub, fun n hn => hseen ▸ h.lt_seen n (hsub.subset hn),
    fun alert halert => h.timed alert (htopic alert halert)⟩

theorem separate_batch {anomalies : List ProcessedRow} {published : ℕ} (h : Separate spark w)
    (htimed : ∀ row ∈ anomalies, row.eventTime.isSome)
    (hstep : writerStep spark pydantic asyncpg w (.batch anomalies published) = some w') :
    Separate spark w' := by
  simp only [writerStep] at hstep
  split at hstep
  swap
  · exact nomatch hstep
  next hidle =>
  obtain rfl := Option.some.inj hstep
  obtain ⟨hnone, hwork, -⟩ := hidle
  have hocc : w.occurrences = (w.table ++ w.work).map Prod.snd := by
    rw [Writers.occurrences, hnone, List.map_nil, List.append_nil]
  -- the new occurrences are numbered from `seen` on, where the old ones end
  have hnew : ∀ n, n ∈ (anomalies.zipIdx w.seen).map Prod.snd → w.seen ≤ n := by
    intro n hn
    obtain ⟨r, hr, rfl⟩ := List.mem_map.mp hn
    exact List.le_snd_of_mem_zipIdx hr
  refine ⟨?_, ?_, ?_⟩
  · refine List.nodup_append.mpr ⟨hocc ▸ h.nodup, ?_, ?_⟩
    · rw [Writers.arrive, List.zipIdx_map_snd]
      exact List.nodup_range'
    · intro n hn m hm heq
      have hlt := h.lt_seen n (hocc ▸ hn)
      have hge := hnew m hm
      omega
  · intro n hn
    rcases List.mem_append.mp hn with hn | hn
    · exact Nat.lt_add_right _ (h.lt_seen n (hocc ▸ hn))
    · obtain ⟨r, hr, rfl⟩ := List.mem_map.mp hn
      exact List.snd_lt_add_of_mem_zipIdx hr
  · intro alert halert
    rcases List.mem_append.mp halert with halert | halert
    · exact h.timed alert halert
    · obtain ⟨r, hr, rfl⟩ := List.mem_map.mp halert
      have hmem : r.1 ∈ anomalies := List.fst_mem_of_mem_zipIdx (List.mem_of_mem_take hr)
      exact ⟨r.1, rfl, htimed r.1 hmem⟩

theorem separate_insert {rejected : Bool} (h : Separate spark w)
    (hstep : writerStep spark pydantic asyncpg w (.insert rejected) = some w') :
    Separate spark w' := by
  simp only [writerStep] at hstep
  split at hstep
  · exact nomatch hstep
  next row n rest hrows =>
  -- the row leaves the rows to insert; at most it goes to the end of the transaction
  have hocc : w.occurrences = (w.table ++ w.work).map Prod.snd ++ n :: rest.map Prod.snd := by
    rw [Writers.occurrences, hrows]
    rfl
  have hdropped : ∀ b, Separate spark
      { w with uuids := w.uuids + 1, toInsert := rest, failed := b } := by
    intro b
    refine h.of_sublist ?_ rfl fun _ halert => halert
    rw [hocc]
    exact (List.Sublist.refl _).append (List.sublist_cons_self _ _)
  split at hstep
  · exact Option.some.inj hstep ▸ hdropped w.failed
  split at hstep
  · exact Option.some.inj hstep ▸ hdropped true
  split at hstep
  · exact Option.some.inj hstep ▸ hdropped w.failed
  · obtain rfl := Option.some.inj hstep
    refine h.of_sublist ?_ rfl fun _ halert => halert
    rw [hocc, Writers.occurrences]
    simp

theorem separate_consume {i : ℕ} {receivedAt : String} {accepted : Bool} (h : Separate spark w)
    (hstep : writerStep spark pydantic asyncpg w (.consume i receivedAt accepted) = some w') :
    Separate spark w' := by
  simp only [writerStep] at hstep
  split at hstep
  · cases hstep
  next alert n halert =>
  -- the alert has a timestamp, so the driver refuses the insert
  obtain ⟨row, hjson, htime⟩ := h.timed (alert, n) (List.mem_of_getElem? halert)
  obtain rfl : alert = alertJson spark.text row := hjson
  obtain ⟨event, hevent, hrefused⟩ := gateway_refuses pydantic asyncpg htime w.uuids receivedAt
  rw [hevent] at hstep
  simp only [hrefused] at hstep
  obtain rfl := Option.some.inj hstep
  exact h.of_sublist (List.Sublist.refl _) rfl fun _ hmem => List.mem_of_mem_eraseIdx hmem

/-- **The step lemma.** -/
theorem separate_step {a : WriterAction} (h : Separate spark w) (ha : a.Timed)
    (hstep : writerStep spark pydantic asyncpg w a = some w') : Separate spark w' := by
  cases a with
  | batch anomalies published => exact separate_batch h ha hstep
  | insert rejected => exact separate_insert h hstep
  | commit =>
    simp only [writerStep] at hstep
    split at hstep
    swap
    · exact nomatch hstep
    next hnone =>
    obtain rfl := Option.some.inj hstep
    refine h.of_sublist ?_ rfl fun _ halert => halert
    simp only [Writers.occurrences, hnone]
    split
    · simp
    · simp
  | abandon =>
    obtain rfl := Option.some.inj hstep
    refine h.of_sublist ?_ rfl fun _ halert => halert
    simp only [Writers.occurrences, List.append_nil, List.map_nil, List.map_append]
    rw [List.append_assoc]
    exact List.sublist_append_left _ _
  | consume i receivedAt accepted => exact separate_consume h hstep

/-- Occurrences kept apart are in the table at most once. -/
theorem atMostOnce_of_separate (h : Separate spark w) : w.AtMostOnce := by
  intro n
  have htable : (w.table.map Prod.snd).Nodup := by
    refine h.nodup.sublist ?_
    rw [Writers.occurrences, List.map_append, List.append_assoc]
    exact List.sublist_append_left _ _
  have hcount : w.table.countP (·.2 = n) = (w.table.map Prod.snd).count n := by
    rw [List.count, List.countP_map]
    refine List.countP_congr fun r _ => ?_
    simp
  rw [hcount]
  exact List.nodup_iff_count_le_one.mp htable n

end Invariant

/-! ### Runs -/

section Runs

variable {spark : Rendering} {pydantic : Pydantic} {asyncpg : Asyncpg} {w w' : Writers}

/-- **Two writers, one row each**: in every run in which every anomalous row has an event
time, no occurrence of an anomalous row is in the table twice. -/
theorem atMostOnce_of_timed {actions : List WriterAction}
    (hrun : Lts.run (writerStep spark pydantic asyncpg) actions Writers.start = some w)
    (htimed : ∀ a ∈ actions, a.Timed) : w.AtMostOnce := by
  have hseparate : Separate spark w :=
    Lts.run_invariant (fun _ _ _ h ha hstep => separate_step h ha hstep) separate_start
      htimed hrun
  exact atMostOnce_of_separate hseparate

/-- **A row without an event time is inserted again** when the gateway consumes its
alert, whatever the table holds already. -/
theorem consume_inserts {i n : ℕ} {row : ProcessedRow} (receivedAt : String)
    (halert : w.topic[i]? = some (alertJson spark.text row, n)) (hnull : row.eventTime = none)
    (hcluster : row.cluster < 2 ^ 31) (hfresh : ∀ r ∈ w.table, r.1.alertId < w.uuids) :
    ∃ w', writerStep spark pydantic asyncpg w (.consume i receivedAt true) = some w' ∧
      w'.table = w.table ++ [(sparkAlertRow w.uuids row, n)] := by
  obtain ⟨event, hevent, hrow⟩ := gateway_accepts pydantic asyncpg hnull hcluster w.uuids receivedAt
  have hstep : writerStep spark pydantic asyncpg w (.consume i receivedAt true) = some { w with
      uuids := w.uuids + 1
      topic := w.topic.eraseIdx i
      table := Sql.insertOrIgnore (fun r : AlertRow × ℕ => r.1.alertId)
        (sparkAlertRow w.uuids row, n) w.table } := by
    simp only [writerStep, halert]
    rw [hevent]
    simp only [hrow, if_true]
  exact ⟨_, hstep, Sql.insertOrIgnore_of_lt hfresh⟩

/-- The job's statements, none of them rejected. -/
theorem run_inserts (rows : List (ProcessedRow × ℕ)) {w : Writers} (hrows : w.toInsert = rows)
    (hok : w.failed = false) (hfresh : ∀ id ∈ w.visibleIds, id < w.uuids) :
    Lts.run (writerStep spark pydantic asyncpg) (List.replicate rows.length (.insert false)) w
      = some { w with
          uuids := w.uuids + rows.length
          toInsert := []
          work := w.work
            ++ (rows.zipIdx w.uuids).map fun r => (sparkAlertRow r.2 r.1.1, r.1.2) } := by
  induction rows generalizing w with
  | nil =>
    obtain ⟨uuids, seen, toInsert, work, failed, topic, table⟩ := w
    obtain rfl : toInsert = [] := hrows
    simp
  | cons r rows ih =>
    obtain ⟨row, n⟩ := r
    have hnot : w.uuids ∉ w.visibleIds := fun hmem => Nat.lt_irrefl _ (hfresh _ hmem)
    have hstep : writerStep spark pydantic asyncpg w (.insert false) = some { w with
        uuids := w.uuids + 1
        toInsert := rows
        work := w.work ++ [(sparkAlertRow w.uuids row, n)] } := by
      simp [writerStep, hrows, hok, hnot]
    have hnext : ∀ id ∈ w.visibleIds ++ [w.uuids], id < w.uuids + 1 := by
      intro id hid
      rcases List.mem_append.mp hid with hid | hid
      · exact Nat.lt_succ_of_lt (hfresh id hid)
      · rw [List.mem_singleton.mp hid]
        exact Nat.lt_succ_self _
    have hrest := @ih { w with
        uuids := w.uuids + 1
        toInsert := rows
        work := w.work ++ [(sparkAlertRow w.uuids row, n)] } rfl hok (by
      rw [Writers.visibleIds, ← List.append_assoc, List.map_append]
      exact hnext)
    rw [List.length_cons, List.replicate_succ, Lts.run_cons hstep, hrest]
    simp only [List.zipIdx_cons, List.map_cons, List.append_assoc, List.singleton_append]
    rw [Nat.add_assoc, Nat.add_comm 1]

/-- **Alone, the job's steps are its write**: a batch, its statements and their commit
leave in the table what `_write_anomaly_alerts_pg` leaves in it. -/
theorem run_job_alone (anomalies : List ProcessedRow) (published : ℕ) (hrows : w.toInsert = [])
    (hwork : w.work = []) (hok : w.failed = false)
    (hfresh : ∀ r ∈ w.table, r.1.alertId < w.uuids) :
    ∃ w', Lts.run (writerStep spark pydantic asyncpg) (.batch anomalies published ::
        (List.replicate anomalies.length (.insert false) ++ [.commit])) w = some w' ∧
      w'.uuids = w.uuids + anomalies.length ∧
      w'.table.map Prod.fst
        = insertAlerts (anomalies.zipIdx w.uuids) (w.table.map Prod.fst) := by
  have hbatch : writerStep spark pydantic asyncpg w (.batch anomalies published)
      = some (w.arrive spark anomalies published) := by
    simp [writerStep, hrows, hwork, hok]
  have hids : ∀ id ∈ (w.arrive spark anomalies published).visibleIds, id < w.uuids := by
    intro id hid
    simp only [Writers.arrive, Writers.visibleIds, hwork, List.append_nil] at hid
    obtain ⟨r, hr, rfl⟩ := List.mem_map.mp hid
    exact hfresh r hr
  obtain ⟨v, hv, hnone, hvok, hvuuids, hvtable, hvwork⟩ : ∃ v,
      Lts.run (writerStep spark pydantic asyncpg) (List.replicate anomalies.length (.insert false))
        (w.arrive spark anomalies published) = some v ∧ v.toInsert = [] ∧ v.failed = false ∧
      v.uuids = w.uuids + anomalies.length ∧ v.table = w.table ∧
      v.work = ((anomalies.zipIdx w.seen).zipIdx w.uuids).map
        fun r => (sparkAlertRow r.2 r.1.1, r.1.2) := by
    have hinserts := @run_inserts spark pydantic asyncpg (anomalies.zipIdx w.seen)
      (w.arrive spark anomalies published) rfl hok hids
    rw [List.length_zipIdx] at hinserts
    refine ⟨_, hinserts, rfl, hok, rfl, rfl, ?_⟩
    simp only [Writers.arrive, hwork, List.nil_append]
  have hcommit : writerStep spark pydantic asyncpg v .commit
      = some { v with table := v.table ++ v.work, work := [], failed := false } := by
    simp [writerStep, hnone, hvok]
  refine ⟨{ v with table := v.table ++ v.work, work := [], failed := false }, ?_, hvuuids, ?_⟩
  · rw [Lts.run_cons hbatch, Lts.run_append, hv, Option.bind_some, Lts.run_cons hcommit,
      Lts.run_nil]
  · have hrowIds : ∀ row ∈ w.table.map Prod.fst, row.alertId < w.uuids := by
      intro row hrow
      obtain ⟨r, hr, rfl⟩ := List.mem_map.mp hrow
      exact hfresh r hr
    have hrows : anomalies.zipIdx w.uuids
        = ((anomalies.zipIdx w.seen).zipIdx w.uuids).map fun r => (r.1.1, r.2) := by
      conv_lhs => rw [← List.zipIdx_map_fst w.seen anomalies, List.zipIdx_map]
      rfl
    rw [insertAlerts_of_fresh anomalies hrowIds, hrows, hvtable, hvwork, List.map_append,
      List.map_map, List.map_map]
    rfl

/-! ### A row without an event time

One anomalous row without an event time: the job inserts it, and the gateway inserts
its alert. -/

/-- The rendering of the epoch. -/
def epochRendering : Rendering := ⟨fun _ => "1970-01-01 00:00:00", fun _ => by decide⟩

/-- A batch of one anomalous row, inserted by the job and consumed by the gateway. -/
def oneRowActions (row : LogRow) : List WriterAction :=
  [.batch [processedRow 1 row 1] 1, .insert false, .commit, .consume 0 "2025-06-03T00:00:00Z" true]

/-- **The row is there twice.** -/
theorem not_atMostOnce_null_event_time :
    ∃ w, Lts.run (writerStep epochRendering numericPydantic plainAsyncpg)
        (oneRowActions (bareRow "KERNEL")) Writers.start = some w ∧ ¬w.AtMostOnce :=
  ⟨_, rfl, fun h => absurd (h 0) (by decide)⟩

/-- The same run with an event time, with the hypotheses discharged. -/
theorem atMostOnce_of_timed_epoch :
    ∃ w, Lts.run (writerStep epochRendering numericPydantic plainAsyncpg)
      (oneRowActions { bareRow "KERNEL" with eventTime := some 0 }) Writers.start = some w ∧
        w.AtMostOnce := by
  refine ⟨_, rfl, @atMostOnce_of_timed epochRendering numericPydantic plainAsyncpg _
    (oneRowActions { bareRow "KERNEL" with eventTime := some 0 }) rfl ?_⟩
  intro a ha
  simp only [oneRowActions, List.mem_cons, List.not_mem_nil, or_false] at ha
  rcases ha with rfl | rfl | rfl | rfl
  · intro row hrow
    rw [List.mem_singleton.mp hrow]
    rfl
  · trivial
  · trivial
  · trivial

end Runs

end AiopsLog
