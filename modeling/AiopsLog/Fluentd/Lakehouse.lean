import AiopsLog.Fluentd.BglLayout
import AiopsLog.Lifetime

/-!
# From the log file to the lakehouse

A line that is handed on is parsed, filtered and sent to the topic as JSON; the streaming job
reads the JSON with a schema of its own, enriches the row, labels it and appends it to
`processed_logs`. No stage drops a line in the layout of BGL, and what a column of the table
holds can be read off the line (`AiopsLog.Fluentd.BglLine.columns`): the label of an anomaly
is that of the alert code, while component, severity and message are the columns before
their own (`AiopsLog.Fluentd.lines_reach_lakehouse`).

The topic has several partitions, and the batches of the job cut it anywhere. So the rows come
in some order, in whatever batches; all that is asked is that each record is in one of them,
and that the calls for them go through.
-/

namespace AiopsLog

open Py Py.Code

/-! ### Calls that append -/

section Appends

variable {Nlp Km Features : Type} {ml : SparkML Nlp Km Features}

/-- The call appends its batch: what it does up to the append goes through. -/
def ProcessCall.Appends (call : ProcessCall) : Prop :=
  call.batch = [] ∨ call.env.signal .count = .ok ∧ call.env.signal .cache = .ok ∧
    call.env.signal .train = .ok ∧ call.env.signal .transform = .ok ∧
    call.env.signal .select = .ok ∧ call.env.signal .delta = .ok

/-- The columns of `processed_logs` that are taken over from the rows. -/
def Sinks.logColumns (s : Sinks) : List LogColumns := s.processedLogs.map (·.1.columns)

/-- **One call**: its rows are behind those that were there. -/
theorem logColumns_run {call : ProcessCall} {job : Job Nlp Km} (h : call.Appends)
    (hself : job.self.HasModels) :
    (call.run ml job).sinks.logColumns = job.sinks.logColumns ++ call.batch.map (·.columns) := by
  obtain ⟨env, batch, batchId, hk⟩ := call
  obtain ⟨self, sinks⟩ := job
  show (process ml env batch batchId ⟨self, sinks⟩).2.sinks.logColumns
    = sinks.logColumns ++ batch.map (·.columns)
  by_cases hne : batch = []
  · subst hne
    rw [List.map_nil, List.append_nil]
    by_cases hcount : env.signal .count = .ok
    · rw [process_nil hcount]
    · rw [process, reach_bind_snd hcount]
  · obtain ⟨hcount, hcache, htrain, htransform, hselect, hdelta⟩ := h.resolve_left hne
    rcases process_cases ml ⟨self, sinks⟩ hk hne hcount hcache batchId with
      ⟨hnot, -⟩ | ⟨-, nlp, km, c, -, heq⟩
    · exact absurd ⟨fun _ => htrain, hself, htransform⟩ hnot
    · obtain ⟨hdone, hlogs⟩ := writeSinks_spec hk (labelRows ml nlp km c batch) batchId sinks
      rw [if_pos hdelta] at hlogs
      rw [heq, reach_bind_ok hselect, bind_done (onSinks_done hdone), reach_snd, Sinks.logColumns,
        hlogs, List.map_append, ← map_columns_labelRows ml nlp km c batch]
      conv_rhs => rw [← List.zipIdx_map_fst sinks.uuids (labelRows ml nlp km c batch),
        List.map_map]
      rfl

/-- **Any number of calls.** -/
theorem logColumns_runCalls {calls : List ProcessCall} {job : Job Nlp Km}
    (h : ∀ call ∈ calls, call.Appends) (hself : job.self.HasModels) :
    (runCalls ml calls job).sinks.logColumns
      = job.sinks.logColumns ++ (calls.flatMap (·.batch)).map (·.columns) := by
  induction calls generalizing job with
  | nil => exact (List.append_nil _).symm
  | cons call calls ih =>
    have hself' : (call.run ml job).self.HasModels := by
      rw [ProcessCall.run, self_process call.noKill]
      split
      · exact hasModels_trainedBy hself
      · exact hself
    show (runCalls ml calls (call.run ml job)).sinks.logColumns = _
    rw [ih (fun c hc => h c (List.mem_cons_of_mem _ hc)) hself',
      logColumns_run (h call List.mem_cons_self) hself, List.flatMap_cons, List.map_append,
      List.append_assoc]

end Appends

namespace Fluentd

/-! ### From a record to a row -/

/-- A value in a column of strings: a number is its text. -/
def Value.asString : Value → Option String
  | .str text => some (String.ofList text)
  | .int n => some (toString n)
  | .nil => none

/-- A value in a column of 32-bit integers. -/
def Value.asInteger : Value → Option ℤ
  | .int n => if -2 ^ 31 ≤ n ∧ n < 2 ^ 31 then some n else none
  | .str _ | .nil => none

/-- `from_json` with `FLUENTD_SCHEMA`, of the object that is sent for a record. -/
def fromJson (record : Record) : FluentdRecord where
  alertCode := (record.lookup "alert_code").bind Value.asString
  epoch := (record.lookup "epoch").bind Value.asString
  dateStr := (record.lookup "date_str").bind Value.asString
  nodeId := (record.lookup "node_id").bind Value.asString
  timestamp := (record.lookup "timestamp").bind Value.asString
  component := (record.lookup "component").bind Value.asString
  severity := (record.lookup "severity").bind Value.asString
  message := (record.lookup "message").bind Value.asString
  isAnomaly := (record.lookup "is_anomaly").bind Value.asInteger
  ingestedAt := (record.lookup "ingested_at").bind Value.asString
  source := (record.lookup "source").bind Value.asString

section Rows

variable (spark : Parsers) (upcase : Text → Text)

/-- The records of the lines that are handed on, each at its time. -/
def records (clock : ℕ → Text) (lines : List Text) : List Record :=
  lines.zipIdx.filterMap fun (line, i) => emit upcase (clock i) line

/-- The columns of `processed_logs` for a line in the layout of BGL. -/
def BglLine.columns (ingestedAt : Text) (b : BglLine) : LogColumns where
  eventTime := spark.toEventTime (String.ofList b.timestamp.1)
  host := some (String.ofList b.node.1)
  component := String.ofList b.recordType.1
  severity := some (String.ofList (upcase b.component.1))
  message := String.ofList b.rest.1
  logDate := (spark.toEventTime (String.ofList b.timestamp.1)).map spark.toDate
  labelOriginal := some (if b.alertCode.1 = "-".toList then 0 else 1)
  ingestedAt := spark.toIngestedAt (String.ofList ingestedAt)

/-- **The row of a line.** -/
theorem exists_row (ingestedAt : Text) (b : BglLine) :
    ∃ record row, emit upcase ingestedAt b.text = some record ∧
      enrich spark (fromJson record) = some row ∧
      row.columns = b.columns spark upcase ingestedAt := by
  refine ⟨_, _, b.emit_text upcase ingestedAt, rfl, ?_⟩
  have hlabel : ((b.asLine.record upcase ingestedAt).lookup "is_anomaly").bind Value.asInteger
      = some (if b.alertCode.1 = "-".toList then 0 else 1) := by
    show Value.asInteger (.int (if b.alertCode.1 = "-".toList then 0 else 1)) = _
    split <;> rfl
  rw [BglLine.columns, ← hlabel]
  rfl

/-- The rows of the lines, one for each. -/
theorem map_columns_readKafkaStream (clock : ℕ → Text) (lines : List BglLine) :
    (readKafkaStream spark ((records upcase clock (lines.map BglLine.text)).map fromJson)).map
        (·.columns)
      = lines.zipIdx.map fun (b, i) => b.columns spark upcase (clock i) := by
  rw [readKafkaStream, records, List.zipIdx_map, List.filterMap_map, List.filterMap_map,
    List.map_filterMap, List.filterMap_filterMap, ← List.filterMap_eq_map']
  refine List.filterMap_congr fun ⟨b, i⟩ _ => ?_
  obtain ⟨record, row, hrecord, hrow, hcolumns⟩ := exists_row spark upcase (clock i) b
  show (emit upcase (clock i) b.text).bind
    (fun record => (enrich spark (fromJson record)).map (·.columns)) = _
  rw [hrecord, Option.bind_some, hrow, Option.map_some, hcolumns]

/-- **Every line reaches the lakehouse, and once**: where the batches hold the rows of the
records, in whatever order, and the calls for them append, `processed_logs` gains one row for
each line, of the columns that can be read off it. -/
theorem lines_reach_lakehouse {Nlp Km Features : Type} (ml : SparkML Nlp Km Features)
    (clock : ℕ → Text) (s₀ : Sinks) {lines : List BglLine} {calls : List ProcessCall}
    (hdelivered : (calls.flatMap (·.batch)).Perm
      (readKafkaStream spark ((records upcase clock (lines.map BglLine.text)).map fromJson)))
    (happends : ∀ call ∈ calls, call.Appends) :
    ((runCalls ml calls ⟨BatchProcessor.init, s₀⟩).sinks.logColumns).Perm
      (s₀.logColumns ++ lines.zipIdx.map fun (b, i) => b.columns spark upcase (clock i)) := by
  rw [logColumns_runCalls happends hasModels_init,
    ← map_columns_readKafkaStream spark upcase clock lines]
  exact (hdelivered.map _).append_left _

end Rows

/-! ### The example of the configuration -/

theorem year_of_example : 1 ≤ 2005 ∧ 2005 ≤ 9999 := ⟨by decide, by decide⟩

theorem month_of_example : 1 ≤ 6 ∧ 6 ≤ 12 := ⟨by decide, by decide⟩

theorem day_of_example : 1 ≤ 3 ∧ 3 ≤ 31 := ⟨by decide, by decide⟩

/-- Parsers that know its time. -/
def parsersOfExample : Parsers where
  toEventTime text := if text = "2005-06-03-15.42.50.675872" then some 1117813370675872 else none
  toIngestedAt _ := none
  toDate _ := ⟨2005, 6, 3, year_of_example, month_of_example, day_of_example⟩

/-- A line of an application that the corpus labels as an alert; its time is not known. -/
def readFailed : BglLine :=
  { parityError with
    alertCode := failedRead.alertCode
    timestamp := failedRead.timestamp
    component := failedRead.component
    level := failedRead.severity
    message := failedRead.message }

/-- The batch of the row of a line. -/
def batchOf (b : BglLine) : List LogRow :=
  readKafkaStream parsersOfExample
    ((records (·.map Char.toUpper) (fun _ => []) [b.text]).map fromJson)

/-- Its call. -/
def callOf (b : BglLine) : ProcessCall :=
  ⟨Env.serving, batchOf b, 0,
    fun site h => Signal.noConfusion (h.symm.trans (allOk_serving site))⟩

/-- **Each line in a batch of its own**, the second line first. -/
theorem delivered_pair (b b' : BglLine) :
    ([callOf b', callOf b].flatMap (·.batch)).Perm (readKafkaStream parsersOfExample
      ((records (·.map Char.toUpper) (fun _ => []) ([b, b'].map BglLine.text)).map fromJson)) := by
  have hrecords : records (·.map Char.toUpper) (fun _ => []) [b.text, b'.text]
      = records (·.map Char.toUpper) (fun _ => []) [b.text]
        ++ records (·.map Char.toUpper) (fun _ => []) [b'.text] := by
    show ([(b.text, 0)] ++ [(b'.text, 1)]).filterMap _ = _
    exact List.filterMap_append
  have hrows : readKafkaStream parsersOfExample
      ((records (·.map Char.toUpper) (fun _ => []) [b.text, b'.text]).map fromJson)
      = batchOf b ++ batchOf b' := by
    rw [hrecords, List.map_append]
    exact List.filterMap_append
  rw [List.flatMap_cons, List.flatMap_singleton, List.map_cons, List.map_singleton, hrows]
  exact List.perm_append_comm

/-- Two lines that reach the job in two batches, the second of them first. -/
theorem lines_reach_lakehouse_twoLines :
    ((runCalls (SparkML.ofRule fun _ => 0) [callOf readFailed, callOf parityError]
        ⟨BatchProcessor.init, Sinks.initial⟩).sinks.logColumns).Perm
      (Sinks.initial.logColumns ++ [parityError, readFailed].zipIdx.map fun (b, _) =>
        b.columns parsersOfExample (·.map Char.toUpper) []) := by
  refine lines_reach_lakehouse parsersOfExample (·.map Char.toUpper) (SparkML.ofRule fun _ => 0)
    (fun _ => []) Sinks.initial (delivered_pair parityError readFailed) fun call hcall => ?_
  rcases List.mem_pair.mp hcall with rfl | rfl
  · exact Or.inr ⟨rfl, rfl, rfl, rfl, rfl, rfl⟩
  · exact Or.inr ⟨rfl, rfl, rfl, rfl, rfl, rfl⟩

end Fluentd

end AiopsLog
