import Mathlib.Data.Int.Notation
import Mathlib.Data.Rat.Defs

/-!
# The records of the pipeline

What travels through it: the record Fluentd sends to the topic `system-logs`
(`AiopsLog.FluentdRecord`), the enriched row the streaming job reads
(`AiopsLog.LogRow`), and the scored row it hands to its sinks
(`AiopsLog.ProcessedRow`).

A column that a query tests for null is an `Option`. Two columns cannot be null once
a row is read, and their types say so: `component` is coalesced to `UNKNOWN`, and rows
without a `message` are filtered out.

Spark's timestamp parsers and `to_date` are parameters (`AiopsLog.Parsers`): nothing
below depends on which strings they accept, only on a string that is missing or
refused giving a null.
-/

namespace AiopsLog

/-! ### Times -/

/-- A timestamp, in microseconds since the epoch. -/
abbrev Timestamp := ℤ

/-- A calendar date of the years 1 to 9999, which both Spark and Postgres print as
`YYYY-MM-DD`. -/
structure Date where
  year : ℕ
  month : ℕ
  day : ℕ
  year_mem : 1 ≤ year ∧ year ≤ 9999
  month_mem : 1 ≤ month ∧ month ≤ 12
  day_mem : 1 ≤ day ∧ day ≤ 31
  deriving DecidableEq

/-- Universally unique identifiers. `uuid4` draws are numbered: two draws never
agree. -/
abbrev Uuid := ℕ

/-! ### From the topic to a row -/

/-- A record of `system-logs` after `from_json` with `FLUENTD_SCHEMA`: every field is
null where the JSON lacks it, and all are null where the JSON is malformed. -/
structure FluentdRecord where
  alertCode : Option String := none
  epoch : Option String := none
  dateStr : Option String := none
  nodeId : Option String := none
  timestamp : Option String := none
  component : Option String := none
  severity : Option String := none
  message : Option String := none
  isAnomaly : Option ℤ := none
  ingestedAt : Option String := none
  source : Option String := none
  deriving DecidableEq

/-- A row of the enriched stream. -/
structure LogRow where
  alertCode : String
  eventTime : Option Timestamp
  host : Option String
  component : String
  severity : Option String
  message : String
  labelOriginal : Option ℤ
  ingestedAt : Option Timestamp
  logDate : Option Date
  deriving DecidableEq

/-- A row of a component, with nothing in its other columns. -/
def bareRow (component : String) : LogRow where
  alertCode := "-"
  eventTime := none
  host := none
  component := component
  severity := none
  message := ""
  labelOriginal := none
  ingestedAt := none
  logDate := none

/-- Spark's parsers, as the job calls them. -/
structure Parsers where
  toEventTime : String → Option Timestamp
  toIngestedAt : String → Option Timestamp
  toDate : Timestamp → Date

/-- The columns of the enriched stream, in the order they are selected. -/
def enrichedColumns : List String :=
  ["alert_code", "event_time", "host", "component", "severity", "message", "label_original",
    "ingested_at", "log_date"]

/-- The enrichment of one record: none where the record has no message. -/
def enrich (spark : Parsers) (record : FluentdRecord) : Option LogRow :=
  record.message.map fun message => {
    alertCode := record.alertCode.getD "-"
    eventTime := record.timestamp.bind spark.toEventTime
    host := record.nodeId
    component := record.component.getD "UNKNOWN"
    severity := record.severity
    message := message
    labelOriginal := record.isAnomaly
    ingestedAt := record.ingestedAt.bind spark.toIngestedAt
    logDate := (record.timestamp.bind spark.toEventTime).map spark.toDate }

/-- The rows of a micro-batch of `system-logs`. -/
def readKafkaStream (spark : Parsers) (records : List FluentdRecord) : List LogRow :=
  records.filterMap (enrich spark)

/-- A row has a date exactly when it has an event time. -/
theorem logDate_isSome_of_mem_readKafkaStream {spark : Parsers} {records : List FluentdRecord}
    {row : LogRow} (h : row ∈ readKafkaStream spark records) :
    row.logDate.isSome = row.eventTime.isSome := by
  obtain ⟨record, -, henrich⟩ := List.mem_filterMap.mp h
  obtain ⟨message, -, rfl⟩ := Option.map_eq_some_iff.mp henrich
  exact Option.isSome_map

/-! ### Scored rows -/

/-- A row with its cluster and the label derived from it: the frame `processed`. The
identifier and the time it also carries are drawn when the frame is written. -/
structure ProcessedRow where
  eventTime : Option Timestamp
  host : Option String
  component : String
  severity : Option String
  message : String
  logDate : Option Date
  cluster : ℕ
  isAnomaly : ℕ
  anomalyScore : ℚ
  labelOriginal : Option ℤ
  ingestedAt : Option Timestamp
  deriving DecidableEq

/-- The row `processed` holds for a scored row. -/
def processedRow (anomalyCluster : ℕ) (row : LogRow) (cluster : ℕ) : ProcessedRow where
  eventTime := row.eventTime
  host := row.host
  component := row.component
  severity := row.severity
  message := row.message
  logDate := row.logDate
  cluster := cluster
  isAnomaly := if cluster = anomalyCluster then 1 else 0
  anomalyScore := if cluster = anomalyCluster then 1 else 0
  labelOriginal := row.labelOriginal
  ingestedAt := row.ingestedAt

/-- The rows the filter `is_anomaly == 1` keeps. -/
def anomaliesOf (processed : List ProcessedRow) : List ProcessedRow :=
  processed.filter (·.isAnomaly = 1)

/-- Every row is flagged or not. -/
def Scored (processed : List ProcessedRow) : Prop := ∀ row ∈ processed, row.isAnomaly ≤ 1

theorem scored_map (anomalyCluster : ℕ) (rows : List (LogRow × ℕ)) :
    Scored (rows.map fun r => processedRow anomalyCluster r.1 r.2) := by
  intro row hrow
  obtain ⟨r, -, rfl⟩ := List.mem_map.mp hrow
  simp only [processedRow]
  split <;> omega

end AiopsLog
