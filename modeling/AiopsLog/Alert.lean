import AiopsLog.Records
import Mathlib.Algebra.Group.Nat.Defs
import Mathlib.Algebra.Ring.Int.Defs

/-!
# Alerts on the wire

The streaming job writes an alert to the topic `critical-alerts` as the JSON text of
seven columns, and the gateway reads it back into an `AlertEvent`. A message is
modelled by the JSON value its text spells (`AiopsLog.Json`), which is what
`json.loads` makes of it; a text that spells none is wrapped by the gateway as
`{"raw": …}` before it goes any further.

Both ends insert alerts into the table `anomaly_alerts_pg`, and this is where they
part: psycopg2 sends the event time as text and lets the server cast it, while asyncpg
encodes a parameter by the type the server expects of it and refuses a string for a
`timestamp` (`AiopsLog.Asyncpg`).
-/

namespace AiopsLog

/-! ### JSON values -/

/-- The values `json.loads` returns. -/
inductive Json where
  | null : Json
  | bool : Bool → Json
  | int : ℤ → Json
  | float : ℚ → Json
  | str : String → Json
  | arr : List Json → Json
  | obj : List (String × Json) → Json

namespace Json

/-- `data.get(name)`: the value of a field, null where there is none. Only a
dictionary has the method; of equal names the last counts. -/
def get (name : String) : Json → Option Json
  | obj fields => some ((fields.reverse.lookup name).getD null)
  | _ => none

/-- Whether Python takes a value for true. -/
def truthy : Json → Bool
  | null => false
  | bool b => b
  | int n => n ≠ 0
  | float q => q ≠ 0
  | str s => s ≠ ""
  | arr items => !items.isEmpty
  | obj fields => !fields.isEmpty

end Json

/-! ### The encoder -/

/-- `to_json(struct(…))` of a row: null columns are left out. -/
def alertJson (castString : Timestamp → String) (row : ProcessedRow) : Json :=
  .obj (List.filterMap (fun field => field.2.map fun v => (field.1, v))
    [("timestamp", row.eventTime.map fun t => .str (castString t)),
      ("component", some (.str row.component)),
      ("severity", row.severity.map .str),
      ("message", some (.str row.message)),
      ("host", row.host.map .str),
      ("anomaly_score", some (.float row.anomalyScore)),
      ("cluster_id", some (.int row.cluster))])

/-! ### The decoder -/

/-- The gateway's alert event. -/
structure AlertEvent where
  timestamp : Option String
  component : Option String
  severity : Option String
  message : Option String
  host : Option String
  anomalyScore : Option ℚ
  clusterId : Option ℤ
  receivedAt : String
  deriving DecidableEq

/-- An integer that a 64-bit float holds: it has at most 1024 binary digits, and behind the first
53 of them only zeros. -/
def IsDouble (n : ℤ) : Prop := n.natAbs.log2 < 1024 ∧ 2 ^ (n.natAbs.log2 - 52) ∣ n.natAbs

instance (n : ℤ) : Decidable (IsDouble n) := inferInstanceAs (Decidable (_ ∧ _))

/-- pydantic's readings of a value as an `Optional[str]`, an `Optional[float]` and an
`Optional[int]`, none where the validation fails. A text is taken for itself and nothing else is
taken for it; a float and an integer are taken for themselves; and an integer becomes the float
of its value only where there is one. What is made of other values is left open: of the strings
and the truth values, of whole floats as integers, and of integers that a float rounds or does
not reach. -/
structure Pydantic where
  str : Json → Option (Option String)
  float : Json → Option (Option ℚ)
  int : Json → Option (Option ℤ)
  str_null : str .null = some none
  str_eq_some_some : ∀ value s, str value = some (some s) ↔ value = .str s
  float_null : float .null = some none
  float_float : ∀ q, float (.float q) = some (some q)
  float_int : ∀ n : ℤ, float (.int n) = some (some (n : ℚ)) ↔ IsDouble n
  int_null : int .null = some none
  int_int : ∀ n, int (.int n) = some (some n)

theorem Pydantic.str_str (pydantic : Pydantic) (s : String) :
    pydantic.str (.str s) = some (some s) :=
  (pydantic.str_eq_some_some _ s).mpr rfl

/-- The `AlertEvent` the gateway builds of a JSON value, none where building it
raises: the value is no dictionary, or a field has the wrong type. -/
def alertEvent (pydantic : Pydantic) (receivedAt : String) (data : Json) : Option AlertEvent := do
  let timestamp ← data.get "timestamp"
  let eventTime ← data.get "event_time"
  -- an empty text is no timestamp: `event_time` is read in its place
  return {
    timestamp := ← pydantic.str (if timestamp.truthy then timestamp else eventTime)
    component := ← pydantic.str (← data.get "component")
    severity := ← pydantic.str (← data.get "severity")
    message := ← pydantic.str (← data.get "message")
    host := ← pydantic.str (← data.get "host")
    anomalyScore := ← pydantic.float (← data.get "anomaly_score")
    clusterId := ← pydantic.int (← data.get "cluster_id")
    receivedAt := receivedAt }

/-- **The decoder inverts the encoder**, as long as no rendered time is empty: each
column comes back as it was, null exactly where it was null. -/
theorem alertEvent_alertJson (pydantic : Pydantic) (receivedAt : String)
    {castString : Timestamp → String} (hne : ∀ t, castString t ≠ "") (row : ProcessedRow) :
    alertEvent pydantic receivedAt (alertJson castString row) = some {
      timestamp := row.eventTime.map castString
      component := some row.component
      severity := row.severity
      message := some row.message
      host := row.host
      anomalyScore := some row.anomalyScore
      clusterId := some (row.cluster : ℤ)
      receivedAt := receivedAt } := by
  obtain ⟨eventTime, host, component, severity, message, logDate, cluster, isAnomaly, score, label,
    ingestedAt⟩ := row
  cases eventTime with
  | none =>
    cases host <;> cases severity <;>
      simp [alertEvent, alertJson, Json.get, Json.truthy, List.lookup_cons, pydantic.str_null,
        pydantic.str_str, pydantic.float_float, pydantic.int_int]
  | some t =>
    -- the rendered time is not empty, so it is not passed over
    have htruthy : (Json.str (castString t)).truthy = true := decide_eq_true (hne t)
    cases host <;> cases severity <;>
      simp [alertEvent, alertJson, Json.get, List.lookup_cons, htruthy, pydantic.str_null,
        pydantic.str_str, pydantic.float_float, pydantic.int_int]

/-! ### The table both ends write -/

/-- A row of `anomaly_alerts_pg`; of its columns only `alert_id` is `NOT NULL`. -/
structure AlertRow where
  alertId : Uuid
  eventTime : Option Timestamp
  component : Option String
  severity : Option String
  message : Option String
  host : Option String
  anomalyScore : Option ℚ
  clusterId : Option ℤ
  deriving DecidableEq

/-- The row the streaming job inserts. The event time travels as text and is cast back
by the server, in the time zone it was rendered in. -/
def sparkAlertRow (alertId : Uuid) (row : ProcessedRow) : AlertRow where
  alertId := alertId
  eventTime := row.eventTime
  component := some row.component
  severity := row.severity
  message := some row.message
  host := row.host
  anomalyScore := some row.anomalyScore
  clusterId := some row.cluster

/-- asyncpg's encodings of parameters, none where it raises `DataError`: the codec of `timestamp`
takes a `datetime` or `None` and no string, that of an `INTEGER` takes 32 bits. -/
structure Asyncpg where
  timestamp : Option String → Option (Option Timestamp)
  integer : Option ℤ → Option (Option ℤ)
  timestamp_none : timestamp none = some none
  timestamp_some : ∀ t, timestamp (some t) = none
  integer_none : integer none = some none
  integer_some : ∀ n, integer (some n) = if -2 ^ 31 ≤ n ∧ n < 2 ^ 31 then some (some n) else none

/-- The row the gateway inserts, none where asyncpg refuses a parameter. -/
def gatewayAlertRow (asyncpg : Asyncpg) (alertId : Uuid) (alert : AlertEvent) :
    Option AlertRow := do
  let eventTime ← asyncpg.timestamp alert.timestamp
  let clusterId ← asyncpg.integer alert.clusterId
  return {
    alertId := alertId
    eventTime := eventTime
    component := alert.component
    severity := alert.severity
    message := alert.message
    host := alert.host
    anomalyScore := alert.anomalyScore
    clusterId := clusterId }

/-- **A row with an event time is refused by the gateway's driver.** -/
theorem gatewayAlertRow_of_timestamp (asyncpg : Asyncpg) {alertId : Uuid} {alert : AlertEvent}
    {t : String} (h : alert.timestamp = some t) : gatewayAlertRow asyncpg alertId alert = none := by
  simp [gatewayAlertRow, h, asyncpg.timestamp_some]

/-! ### The libraries on plain values -/

/-- pydantic, where it converts no value but an integer to a float. -/
def numericPydantic : Pydantic where
  str
    | .null => some none
    | .str s => some (some s)
    | _ => none
  float
    | .null => some none
    | .float q => some (some q)
    | .int n => if IsDouble n then some (some n) else none
    | _ => none
  int
    | .null => some none
    | .int n => some (some n)
    | _ => none
  str_null := rfl
  str_eq_some_some value s := by cases value <;> simp
  float_null := rfl
  float_float _ := rfl
  float_int n := by
    by_cases h : IsDouble n
    · exact iff_of_true (if_pos h) h
    · exact iff_of_false (fun heq => nomatch (if_neg h).symm.trans heq) h
  int_null := rfl
  int_int _ := rfl

/-- asyncpg, as its laws have it. -/
def plainAsyncpg : Asyncpg where
  timestamp
    | none => some none
    | some _ => none
  integer
    | none => some none
    | some n => if -2 ^ 31 ≤ n ∧ n < 2 ^ 31 then some (some n) else none
  timestamp_none := rfl
  timestamp_some _ := rfl
  integer_none := rfl
  integer_some _ := rfl

end AiopsLog
