import AiopsLog.Process
import AiopsLog.Text

/-!
# A `try` around each row

Two programs insert alert rows into `anomaly_alerts_pg` one by one, each statement in a
`try` of its own, and commit once at the end: `_write_anomaly_alerts_pg` for the
anomalies of a batch, and the script `insert_alerts` for the lines of a file. The `try`
looks as if it kept a bad row from the others.

It does not, because all rows share one transaction. Each program's loop is reduced here
to `Sql.Txn.insertEach` on the rows it sends (`AiopsLog.attempts` and
`AiopsLog.Script.attempts`), where a row the server rejects is `none`; what is committed
and reported follows from the library.

A row or a line that raises before a statement is sent – a text that psycopg2 cannot render, no
JSON, a score that is no number – does no harm: the transaction never hears of it.
-/

namespace AiopsLog

open Py Py.Code

/-! ### Rows with fresh identifiers -/

/-- The rows that are not rejected carry identifiers drawn one after the other, from `n`
on. -/
structure DrawnFrom (n : Uuid) (rows : List (Option AlertRow)) : Prop where
  increasing : ((rows.filterMap id).map (·.alertId)).Pairwise (· < ·)
  ge : ∀ row ∈ rows.filterMap id, n ≤ row.alertId

namespace DrawnFrom

variable {n : Uuid} {rows : List (Option AlertRow)} {table : List AlertRow}

theorem nil : DrawnFrom n [] := ⟨List.Pairwise.nil, fun _ h => absurd h List.not_mem_nil⟩

theorem of_succ (h : DrawnFrom (n + 1) rows) : DrawnFrom n rows :=
  ⟨h.increasing, fun row hrow => Nat.le_of_succ_le (h.ge row hrow)⟩

theorem cons {row : Option AlertRow} (hrow : ∀ r, row = some r → r.alertId = n)
    (h : DrawnFrom (n + 1) rows) : DrawnFrom n (row :: rows) := by
  rcases row with _ | row
  · exact ⟨h.increasing, h.of_succ.ge⟩
  · have hid : row.alertId = n := hrow row rfl
    constructor
    · refine List.pairwise_cons.mpr ⟨fun k hk => ?_, h.increasing⟩
      obtain ⟨r, hr, rfl⟩ := List.mem_map.mp hk
      show row.alertId < r.alertId
      rw [hid]
      exact h.ge r hr
    · intro r hr
      rcases List.mem_cons.mp hr with rfl | hr
      · exact hid.ge
      · exact h.of_succ.ge r hr

/-- **A loop over freshly drawn rows** isolates them exactly where all are accepted, or
none. -/
theorem gainedExactly_iff (h : DrawnFrom n rows) (hfresh : ∀ row ∈ table, row.alertId < n) :
    Sql.Txn.GainedExactly rows table
        (Sql.Txn.insertEach (·.alertId) rows (Sql.Txn.start table, 0)).1.commit
        (Sql.Txn.insertEach (·.alertId) rows (Sql.Txn.start table, 0)).2
      ↔ none ∉ rows ∨ ∀ row ∈ rows, row = none := by
  refine Sql.Txn.gainedExactly_insertEach_iff ?_ fun row hrow hmem => ?_
  · exact h.increasing.imp fun hlt => hlt.ne
  · obtain ⟨r, hr, hid⟩ := List.mem_map.mp hmem
    have hid : r.alertId = row.alertId := hid
    have hlt : r.alertId < n := hfresh r hr
    exact Nat.not_lt.mpr (h.ge row hrow) (hid ▸ hlt)

end DrawnFrom

/-! ### The anomalies of a batch -/

section Batch

variable (env : Env)

/-- The rows of the loop a statement is sent for, with the identifiers drawn for them, none
where the server rejects it. -/
def attempts : List (ProcessedRow × ℕ) → Uuid → List (Option AlertRow)
  | [], _ => []
  | (row, i) :: rows, n =>
    if env.signal (.alertAdapt i) = .ok then
      (if env.signal (.alertInsert i) = .ok then some (sparkAlertRow n row) else none)
        :: attempts rows (n + 1)
    else attempts rows (n + 1)

variable {env} {rows : List (ProcessedRow × ℕ)} {n : Uuid}

theorem drawnFrom_attempts : DrawnFrom n (attempts env rows n) := by
  induction rows generalizing n with
  | nil => exact DrawnFrom.nil
  | cons r rows ih =>
    rw [attempts]
    split
    · refine DrawnFrom.cons (fun row hrow => ?_) ih
      split at hrow
      · exact Option.some_injective _ hrow ▸ rfl
      · exact nomatch hrow
    · exact ih.of_succ

/-- A row that is not rejected is that of an anomaly. -/
theorem exists_of_mem_attempts {anomalies : List ProcessedRow} {r : AlertRow}
    (h : some r ∈ attempts env anomalies.zipIdx n) :
    ∃ alertId, ∃ row ∈ anomalies, r = sparkAlertRow alertId row := by
  have hgeneral : ∀ (rows : List (ProcessedRow × ℕ)) n, some r ∈ attempts env rows n →
      ∃ alertId, ∃ x ∈ rows, r = sparkAlertRow alertId x.1 := by
    intro rows
    induction rows with
    | nil => exact fun _ h => absurd h List.not_mem_nil
    | cons x rows ih =>
      intro n h
      have hlater : some r ∈ attempts env rows (n + 1) →
          ∃ alertId, ∃ y ∈ x :: rows, r = sparkAlertRow alertId y.1 := fun h => by
        obtain ⟨alertId, y, hy, hr⟩ := ih (n + 1) h
        exact ⟨alertId, y, List.mem_cons_of_mem _ hy, hr⟩
      rw [attempts] at h
      split at h
      · rcases List.mem_cons.mp h with h | h
        · split at h
          · exact ⟨n, x, List.mem_cons_self, Option.some_injective _ h⟩
          · exact nomatch h
        · exact hlater h
      · exact hlater h
  obtain ⟨alertId, x, hx, hr⟩ := hgeneral _ n h
  exact ⟨alertId, x.1, List.fst_mem_of_mem_zipIdx hx, hr⟩

theorem none_not_mem_attempts :
    none ∉ attempts env rows n ↔ ∀ r ∈ rows, env.signal (.alertAdapt r.2) = .ok →
      env.signal (.alertInsert r.2) = .ok := by
  induction rows generalizing n with
  | nil => exact iff_of_true List.not_mem_nil fun _ h => absurd h List.not_mem_nil
  | cons r rows ih =>
    rw [attempts, List.forall_mem_cons]
    split
    · rw [List.mem_cons, not_or, ih]
      refine and_congr_left fun _ => ?_
      split <;> simp [*]
    · next hunsent => exact ih.trans (and_iff_right fun hsent => absurd hsent hunsent).symm

theorem forall_attempts_eq_none :
    (∀ row ∈ attempts env rows n, row = none) ↔
      ∀ r ∈ rows, env.signal (.alertAdapt r.2) = .ok → env.signal (.alertInsert r.2) ≠ .ok := by
  induction rows generalizing n with
  | nil => exact iff_of_true (fun _ h => absurd h List.not_mem_nil) fun _ h =>
      absurd h List.not_mem_nil
  | cons r rows ih =>
    rw [attempts, List.forall_mem_cons]
    split
    · rw [List.forall_mem_cons, ih]
      refine and_congr_left fun _ => ?_
      split <;> simp [*]
    · next hunsent => exact ih.trans (and_iff_right fun hsent => absurd hsent hunsent).symm

/-- **The row loop inserts the attempted rows**, as long as nothing kills it. -/
theorem insertAlertRows_eq (hadapt : ∀ i, env.signal (.alertAdapt i) ≠ .kill)
    (hinsert : ∀ i, env.signal (.alertInsert i) ≠ .kill) :
    ∀ (rows : List (ProcessedRow × ℕ)) (acc : Sql.Txn (List AlertRow) × ℕ) (s : Sinks),
      insertAlertRows env rows acc s
        = (.done (Sql.Txn.insertEach (·.alertId) (attempts env rows s.uuids) acc),
            { s with uuids := s.uuids + rows.length })
  | [], acc, s => rfl
  | (row, i) :: rows, (txn, inserted), s => by
    have hnext : ∀ (acc : Sql.Txn (List AlertRow) × ℕ),
        insertAlertRows env rows acc { s with uuids := s.uuids + 1 }
          = (.done (Sql.Txn.insertEach (·.alertId) (attempts env rows (s.uuids + 1)) acc),
              { s with uuids := s.uuids + (rows.length + 1) }) := by
      intro acc
      rw [insertAlertRows_eq hadapt hinsert rows acc, Nat.add_assoc, Nat.add_comm 1]
    rw [insertAlertRows, bind_apply, read_apply]
    dsimp only
    rw [bind_apply, update_apply]
    dsimp only
    cases hsent : env.signal (.alertAdapt i) with
    | ok =>
      rw [raises_ok hsent, attempts, if_pos hsent]
      cases hsignal : env.signal (.alertInsert i) with
      | ok =>
        rw [raises_ok hsignal, if_pos rfl]
        exact hnext _
      | error =>
        rw [raises_error hsignal, if_neg nofun]
        exact hnext _
      | kill => exact absurd hsignal (hinsert i)
    | error =>
      have hunsent : env.signal (.alertAdapt i) ≠ .ok := by
        simp [hsent]
      rw [raises_error hsent, attempts, if_neg hunsent]
      exact hnext _
    | kill => exact absurd hsent (hadapt i)

/-- Only the statements of the row loop may fail. -/
structure Env.OnlyInsertsFail (env : Env) : Prop where
  alertRows : env.signal .alertRows = .ok
  alertConnect : env.signal .alertConnect = .ok
  alertAdapt : ∀ i, env.signal (.alertAdapt i) ≠ .kill
  alertInsert : ∀ i, env.signal (.alertInsert i) ≠ .kill
  alertCommit : env.signal .alertCommit = .ok

/-- What `_write_anomaly_alerts_pg` leaves. -/
theorem writeAnomalyAlertsPg_eq (henv : env.OnlyInsertsFail) (anomalies : List ProcessedRow)
    (s : Sinks) :
    writeAnomalyAlertsPg env anomalies s = (.done (), { s with
      uuids := s.uuids + anomalies.length
      anomalyAlertsPg := (Sql.Txn.insertEach (·.alertId) (attempts env anomalies.zipIdx s.uuids)
        (Sql.Txn.start s.anomalyAlertsPg, 0)).1.commit }) := by
  rw [writeAnomalyAlertsPg, reach_bind_ok henv.alertRows]
  split
  · next hnil =>
    rw [hnil]
    rfl
  · refine exceptException_done ?_
    rw [reach_bind_ok henv.alertConnect, bind_apply, read_apply]
    dsimp only
    rw [bind_done (insertAlertRows_eq henv.alertAdapt henv.alertInsert _ _ _),
      reach_bind_ok henv.alertCommit, update_apply, List.length_zipIdx]

/-- The row loop of `_write_anomaly_alerts_pg` and its commit keep the rows apart: the
table gains the rows that are sent and not rejected, and `inserted` counts them. -/
def RowsIsolated (env : Env) (anomalies : List ProcessedRow) (s : Sinks) : Prop :=
  ∃ txn inserted s',
    insertAlertRows env anomalies.zipIdx (Sql.Txn.start s.anomalyAlertsPg, 0) s
        = (.done (txn, inserted), s') ∧
      (writeAnomalyAlertsPg env anomalies s).2.anomalyAlertsPg = txn.commit ∧
      Sql.Txn.GainedExactly (attempts env anomalies.zipIdx s.uuids) s.anomalyAlertsPg txn.commit
        inserted

theorem rowsIsolated_iff_gainedExactly (henv : env.OnlyInsertsFail) {anomalies : List ProcessedRow}
    {s : Sinks} :
    RowsIsolated env anomalies s ↔
      Sql.Txn.GainedExactly (attempts env anomalies.zipIdx s.uuids) s.anomalyAlertsPg
        (Sql.Txn.insertEach (·.alertId) (attempts env anomalies.zipIdx s.uuids)
          (Sql.Txn.start s.anomalyAlertsPg, 0)).1.commit
        (Sql.Txn.insertEach (·.alertId) (attempts env anomalies.zipIdx s.uuids)
          (Sql.Txn.start s.anomalyAlertsPg, 0)).2 := by
  constructor
  · rintro ⟨txn, inserted, s', hrun, -, hgained⟩
    rw [insertAlertRows_eq henv.alertAdapt henv.alertInsert] at hrun
    obtain ⟨hacc, -⟩ := Prod.ext_iff.mp hrun
    obtain ⟨rfl, rfl⟩ := Prod.ext_iff.mp (Ending.done.inj hacc)
    exact hgained
  · intro hgained
    refine ⟨_, _, _, insertAlertRows_eq henv.alertAdapt henv.alertInsert _ _ _, ?_, hgained⟩
    rw [writeAnomalyAlertsPg_eq henv]

end Batch

/-! ### The lines of a file -/

/-- The parameters of the script's statement, all but the identifier. -/
structure AlertParams where
  timestamp : Json
  component : Json
  severity : Json
  message : Json
  host : Json
  anomalyScore : Option ℚ
  clusterId : Option ℤ

/-- What the script calls: Python's parsers, psycopg2 and the server. -/
structure Script where
  /-- `json.loads`; none where it raises. -/
  loads : String → Option Json
  /-- `float` of a string. -/
  toFloat : String → Option ℚ
  /-- `int` of a string. -/
  toInt : String → Option ℤ
  /-- Whether psycopg2 can render the parameters; where it cannot, `execute` raises before
  anything is sent. -/
  adapts : AlertParams → Bool
  /-- The row the server makes of a statement; none where it rejects the statement. -/
  store : Uuid → AlertParams → Option AlertRow
  store_id : ∀ alertId params row, store alertId params = some row → row.alertId = alertId

namespace Script

variable (script : Script)

/-- `float(value)`. -/
def float : Json → Option ℚ
  | .bool b => some (if b then 1 else 0)
  | .int n => some n
  | .float q => some q
  | .str s => script.toFloat s
  | _ => none

/-- `int(value)`, which truncates. -/
def int : Json → Option ℤ
  | .bool b => some (if b then 1 else 0)
  | .int n => some n
  | .float q => some (q.num.tdiv q.den)
  | .str s => script.toInt s
  | _ => none

/-- `convert(value) if value is not None else None`. -/
def unlessNone {β : Type} (convert : Json → Option β) : Json → Option (Option β)
  | .null => some none
  | value => (convert value).map some

/-- The parameters a parsed line is sent with; none where building them raises. -/
def params (alert : Json) : Option AlertParams := do
  return {
    timestamp := ← alert.get "timestamp"
    component := ← alert.get "component"
    severity := ← alert.get "severity"
    message := ← alert.get "message"
    host := ← alert.get "host"
    anomalyScore := ← unlessNone script.float (← alert.get "anomaly_score")
    clusterId := ← unlessNone script.int (← alert.get "cluster_id") }

/-- What becomes of a line. -/
inductive Line where
  /-- It is passed over, or is no JSON. -/
  | skipped : Line
  /-- An identifier is drawn, and then something raises before a statement is sent. -/
  | raised : Line
  /-- A statement is sent. -/
  | sent : AlertParams → Line

/-- One line, up to the statement. -/
def readLine (line : String) : Line :=
  let line := strip line
  if line.toList.head? ≠ some '\x7b' then .skipped
  else match script.loads line with
    | none => .skipped
    | some alert => match script.params alert with
      | none => .raised
      | some params => if script.adapts params then .sent params else .raised

/-- The row loop of `main`: the transaction, `count` and the identifiers drawn so far. -/
def insertLines : List String → Uuid → Sql.Txn (List AlertRow) × ℕ → Sql.Txn (List AlertRow) × ℕ
  | [], _, acc => acc
  | line :: lines, uuids, (txn, count) =>
    match script.readLine line with
    | .skipped => insertLines lines uuids (txn, count)
    | .raised => insertLines lines (uuids + 1) (txn, count)
    | .sent params =>
      let (accepted, txn) := txn.execute fun table =>
        (script.store uuids params).map (Sql.insertOrIgnore (·.alertId) · table)
      insertLines lines (uuids + 1) (txn, if accepted then count + 1 else count)

/-- The rows of the lines a statement is sent for, none where the server rejects it. -/
def attempts : List String → Uuid → List (Option AlertRow)
  | [], _ => []
  | line :: lines, uuids =>
    match script.readLine line with
    | .skipped => attempts lines uuids
    | .raised => attempts lines (uuids + 1)
    | .sent params => script.store uuids params :: attempts lines (uuids + 1)

variable {script} {lines : List String} {uuids : Uuid}

theorem drawnFrom_attempts : DrawnFrom uuids (script.attempts lines uuids) := by
  induction lines generalizing uuids with
  | nil => exact DrawnFrom.nil
  | cons line lines ih =>
    rw [attempts]
    split
    · exact ih
    · exact ih.of_succ
    · exact DrawnFrom.cons (fun row => script.store_id uuids _ row) ih

/-- **The row loop inserts the attempted rows**: the other lines leave the transaction
alone. -/
theorem insertLines_eq (acc : Sql.Txn (List AlertRow) × ℕ) :
    script.insertLines lines uuids acc
      = Sql.Txn.insertEach (·.alertId) (script.attempts lines uuids) acc := by
  induction lines generalizing uuids acc with
  | nil => rfl
  | cons line lines ih =>
    obtain ⟨txn, count⟩ := acc
    rw [insertLines, attempts]
    split
    · exact ih _
    · exact ih _
    · exact ih _

/-- The row loop of `main` and its commit keep the lines apart: the table gains the rows
of the lines that are sent and not rejected, and `count` counts them. -/
def LinesIsolated (script : Script) (lines : List String) (uuids : Uuid) (table : List AlertRow) :
    Prop :=
  Sql.Txn.GainedExactly (script.attempts lines uuids) table
    (script.insertLines lines uuids (Sql.Txn.start table, 0)).1.commit
    (script.insertLines lines uuids (Sql.Txn.start table, 0)).2

end Script

/-! ### What it takes -/

/-- **When a bad row does not lose the others**: in both programs, whatever rows the
server rejects, the table gains the others and the count is right if and only if no row that is
sent is rejected or all are. -/
theorem isolated_iff {table : List AlertRow} {uuids : Uuid}
    (hfresh : ∀ row ∈ table, row.alertId < uuids) :
    (∀ env : Env, env.OnlyInsertsFail → ∀ anomalies (s : Sinks), s.anomalyAlertsPg = table →
      s.uuids = uuids →
        (RowsIsolated env anomalies s ↔
          (∀ r ∈ anomalies.zipIdx, env.signal (.alertAdapt r.2) = .ok →
              env.signal (.alertInsert r.2) = .ok) ∨
            ∀ r ∈ anomalies.zipIdx, env.signal (.alertAdapt r.2) = .ok →
              env.signal (.alertInsert r.2) ≠ .ok)) ∧
      ∀ (script : Script) lines,
        (script.LinesIsolated lines uuids table ↔
          none ∉ script.attempts lines uuids ∨
            ∀ row ∈ script.attempts lines uuids, row = none) := by
  constructor
  · rintro env henv anomalies s rfl rfl
    rw [rowsIsolated_iff_gainedExactly henv, drawnFrom_attempts.gainedExactly_iff hfresh,
      none_not_mem_attempts, forall_attempts_eq_none]
  · intro script lines
    rw [Script.LinesIsolated, Script.insertLines_eq]
    exact Script.drawnFrom_attempts.gainedExactly_iff hfresh

/-! ### Two rows, the second of them bad -/

/-- A batch of two anomalies. -/
def twoAnomalies : List ProcessedRow :=
  [processedRow 0 (bareRow "KERNEL") 0, processedRow 0 (bareRow "APP") 0]

/-- The texts of two lines: a cluster that fits a column of 32 bits, and one that does
not. -/
def twoLines : List String :=
  ["\x7b\"cluster_id\": 1\x7d", "\x7b\"cluster_id\": 4294967296\x7d"]

/-- Python and Postgres on these lines. -/
def clusterScript : Script where
  loads text :=
    if text = "\x7b\"cluster_id\": 1\x7d" then some (.obj [("cluster_id", .int 1)])
    else if text = "\x7b\"cluster_id\": 4294967296\x7d" then
      some (.obj [("cluster_id", .int 4294967296)])
    else none
  toFloat _ := none
  toInt _ := none
  adapts _ := true
  store alertId params :=
    if ∀ n ∈ params.clusterId, -2 ^ 31 ≤ n ∧ n < 2 ^ 31 then
      some ⟨alertId, none, none, none, none, none, params.anomalyScore, params.clusterId⟩
    else none
  store_id alertId params row h := by
    split at h
    · exact Option.some_injective _ h ▸ rfl
    · exact nomatch h

/-- **One bad row loses the other**: in both programs the first row is accepted, counted
and rolled back. -/
theorem not_isolated_second_row :
    ¬RowsIsolated (Env.failing (.alertInsert 1)) twoAnomalies Sinks.initial ∧
      ¬clusterScript.LinesIsolated twoLines 0 [] := by
  constructor
  · rintro ⟨txn, inserted, s', hrun, -, gained, htable, hperm, hinserted⟩
    have hloop : (insertAlertRows (Env.failing (.alertInsert 1)) twoAnomalies.zipIdx
        (Sql.Txn.start Sinks.initial.anomalyAlertsPg, 0) Sinks.initial).1
          = .done (⟨[], [sparkAlertRow 0 (processedRow 0 (bareRow "KERNEL") 0)], true⟩, 1) := rfl
    rw [hrun] at hloop
    obtain ⟨rfl, rfl⟩ := Prod.ext_iff.mp (Ending.done.inj hloop)
    have hnil : gained = [] := htable.symm
    rw [hnil] at hinserted
    exact absurd hinserted (by decide)
  · rintro ⟨gained, htable, hperm, hcount⟩
    have hcommit : (clusterScript.insertLines twoLines 0 (Sql.Txn.start [], 0)).1.commit = [] := by
      decide +kernel
    have hone : (clusterScript.insertLines twoLines 0 (Sql.Txn.start [], 0)).2 = 1 := by
      decide +kernel
    rw [hcommit] at htable
    have hnil : gained = [] := htable.symm
    rw [hone, hnil] at hcount
    exact absurd hcount (by decide)

/-- The criterion for these rows and lines. -/
theorem isolated_iff_second_row :
    (RowsIsolated (Env.failing (.alertInsert 1)) twoAnomalies Sinks.initial ↔
        (∀ r ∈ twoAnomalies.zipIdx, (Env.failing (.alertInsert 1)).signal (.alertAdapt r.2) = .ok →
            (Env.failing (.alertInsert 1)).signal (.alertInsert r.2) = .ok) ∨
          ∀ r ∈ twoAnomalies.zipIdx, (Env.failing (.alertInsert 1)).signal (.alertAdapt r.2) = .ok →
            (Env.failing (.alertInsert 1)).signal (.alertInsert r.2) ≠ .ok) ∧
      (clusterScript.LinesIsolated twoLines 0 [] ↔
        none ∉ clusterScript.attempts twoLines 0 ∨
          ∀ row ∈ clusterScript.attempts twoLines 0, row = none) := by
  have hfresh : ∀ row ∈ ([] : List AlertRow), row.alertId < 0 := fun _ h =>
    absurd h List.not_mem_nil
  have henv : (Env.failing (.alertInsert 1)).OnlyInsertsFail :=
    ⟨rfl, rfl, fun _ => noKill_failing _ _, fun _ => noKill_failing _ _, rfl⟩
  exact ⟨(isolated_iff hfresh).1 _ henv _ _ rfl rfl, (isolated_iff hfresh).2 _ _⟩

end AiopsLog
