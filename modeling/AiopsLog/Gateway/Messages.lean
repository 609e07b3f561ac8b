import AiopsLog.Lib.Code
import AiopsLog.Lib.Table
import AiopsLog.TwoWriters

/-!
# From a message to a broadcast

`kafka_consumer_loop` handles the values of the topic `critical-alerts` one by one: it
parses the text, builds an `AlertEvent`, inserts it into `anomaly_alerts_pg` and
broadcasts it. Where a consumer may be suspended is the matter of
`AiopsLog.Gateway.KafkaConsumer`; here it is what becomes of the content.

For the alerts the streaming job publishes the answer is: nothing is lost. The event has
the seven columns of the row, null exactly where they were, and the same values are bound
to the `INSERT` (`AiopsLog.alertOfText_published`).

For other texts the gateway means to fall back to the raw string. A text that is no JSON
is indeed wrapped as `{"raw": …}` – but no field of the event is read from `raw`, so an
empty event is broadcast; and a JSON value that is no object, or has a field of the wrong
type, raises and is not broadcast at all. So does a text that `json.loads` refuses otherwise;
and an `anomaly_score` that is an integer is delivered only where a float can hold it
(`AiopsLog.delivered_iff`).

Not every value of Python has its like here: a text whose numbers are `NaN` or beyond the floats,
or whose strings hold half of a surrogate pair, is not among those considered.
-/

namespace AiopsLog

open Py Py.Code

/-! ### Parsing -/

/-- What `json.loads` raises. -/
inductive LoadsError where
  /-- A `JSONDecodeError`. -/
  | decode : LoadsError
  /-- Anything else: the nesting is too deep, or a number has too many digits. -/
  | other : LoadsError
  deriving DecidableEq, Repr

/-- `json.loads`. All that is known of it is that a string stands in the text with its
quotes. -/
structure JsonParser where
  loads : String → Except LoadsError Json
  length_lt : ∀ text fields name s, loads text = .ok (.obj fields) → (name, Json.str s) ∈ fields →
    s.length < text.length

/-- `data`: the parsed text, or `{"raw": raw}`; none where parsing raises otherwise. -/
def JsonParser.data (parser : JsonParser) (raw : String) : Option Json :=
  match parser.loads raw with
  | .ok data => some data
  | .error .decode => some (.obj [("raw", .str raw)])
  | .error .other => none

/-- The alert the loop makes of a value, none where that raises. -/
def alertOfText (parser : JsonParser) (pydantic : Pydantic) (receivedAt raw : String) :
    Option AlertEvent :=
  (parser.data raw).bind (alertEvent pydantic receivedAt)

/-! ### The fields of an object -/

/-- The value of a field of an object, null where there is none. -/
def fieldOf (fields : List (String × Json)) (name : String) : Json :=
  (fields.reverse.lookup name).getD .null

/-- Reading an alert off a value: `timestamp` chooses between the two names of the time,
and texts and numbers are read by their own validators. -/
def readAlert (timestamp : Json → Json → Json) (str : Json → Option (Option String))
    (float : Json → Option (Option ℚ)) (int : Json → Option (Option ℤ)) (receivedAt : String)
    (data : Json) : Option AlertEvent := do
  let time ← data.get "timestamp"
  let eventTime ← data.get "event_time"
  return {
    timestamp := ← str (timestamp time eventTime)
    component := ← str (← data.get "component")
    severity := ← str (← data.get "severity")
    message := ← str (← data.get "message")
    host := ← str (← data.get "host")
    anomalyScore := ← float (← data.get "anomaly_score")
    clusterId := ← int (← data.get "cluster_id")
    receivedAt := receivedAt }

theorem alertEvent_eq_readAlert (pydantic : Pydantic) (receivedAt : String) (data : Json) :
    alertEvent pydantic receivedAt data
      = readAlert (fun time eventTime => if time.truthy then time else eventTime)
          pydantic.str pydantic.float pydantic.int receivedAt data :=
  rfl

/-- **Reading an alert, field by field.** -/
theorem readAlert_eq_some_iff {timestamp : Json → Json → Json}
    {str : Json → Option (Option String)} {float : Json → Option (Option ℚ)}
    {int : Json → Option (Option ℤ)} {receivedAt : String} {data : Json} {alert : AlertEvent} :
    readAlert timestamp str float int receivedAt data = some alert ↔
      ∃ fields, data = .obj fields ∧
        str (timestamp (fieldOf fields "timestamp") (fieldOf fields "event_time"))
          = some alert.timestamp ∧
        str (fieldOf fields "component") = some alert.component ∧
        str (fieldOf fields "severity") = some alert.severity ∧
        str (fieldOf fields "message") = some alert.message ∧
        str (fieldOf fields "host") = some alert.host ∧
        float (fieldOf fields "anomaly_score") = some alert.anomalyScore ∧
        int (fieldOf fields "cluster_id") = some alert.clusterId ∧
        alert.receivedAt = receivedAt := by
  have hobj : ∀ fields name, (Json.obj fields).get name = some (fieldOf fields name) :=
    fun _ _ => rfl
  constructor
  · intro h
    rcases data with _ | _ | _ | _ | _ | _ | fields
    case obj =>
      simp only [readAlert, hobj, Option.bind_eq_bind, Option.bind_some,
        Option.bind_eq_some_iff] at h
      obtain ⟨time, htime, component, hcomponent, severity, hseverity, message, hmessage, host,
        hhost, score, hscore, cluster, hcluster, heq⟩ := h
      obtain rfl := Option.some_injective _ heq
      exact ⟨fields, rfl, htime, hcomponent, hseverity, hmessage, hhost, hscore, hcluster, rfl⟩
    all_goals exact nomatch h
  · rintro ⟨fields, rfl, htime, hcomponent, hseverity, hmessage, hhost, hscore, hcluster, rfl⟩
    simp only [readAlert, hobj, htime, hcomponent, hseverity, hmessage, hhost, hscore, hcluster,
      Option.bind_eq_bind, Option.bind_some]
    rfl

/-! ### The parameters of the insert -/

/-- The values asyncpg is handed. -/
inductive SqlArg where
  | id : Uuid → SqlArg
  | text : Option String → SqlArg
  | float : Option ℚ → SqlArg
  | int : Option ℤ → SqlArg
  deriving DecidableEq

/-- The columns of the `INSERT`, in the order of its placeholders. -/
def insertColumns : List String :=
  ["alert_id", "event_time", "component", "severity", "message", "host", "anomaly_score",
    "cluster_id"]

/-- The arguments of `conn.execute`. `float` and `int` change nothing: the event has
been validated. -/
def insertArgs (alertId : Uuid) (alert : AlertEvent) : List SqlArg :=
  [.id alertId, .text alert.timestamp, .text alert.component, .text alert.severity,
    .text alert.message, .text alert.host, .float alert.anomalyScore, .int alert.clusterId]

/-- The row of the table the arguments spell, none where asyncpg refuses one. -/
def encodeArgs (asyncpg : Asyncpg) : List SqlArg → Option AlertRow
  | [.id alertId, .text eventTime, .text component, .text severity, .text message, .text host,
      .float anomalyScore, .int clusterId] => do
    let eventTime ← asyncpg.timestamp eventTime
    let clusterId ← asyncpg.integer clusterId
    return ⟨alertId, eventTime, component, severity, message, host, anomalyScore, clusterId⟩
  | _ => none

/-- The row the gateway inserts is that of its arguments. -/
theorem gatewayAlertRow_eq (asyncpg : Asyncpg) (alertId : Uuid) (alert : AlertEvent) :
    gatewayAlertRow asyncpg alertId alert = encodeArgs asyncpg (insertArgs alertId alert) :=
  rfl

/-! ### The alerts of the streaming job -/

/-- **An alert has the columns of a row**, and hands them to the insert, null where they
are. -/
structure DecodedFrom (spark : Rendering) (row : ProcessedRow) (alert : AlertEvent) : Prop where
  timestamp : alert.timestamp = row.eventTime.map spark.text
  component : alert.component = some row.component
  severity : alert.severity = row.severity
  message : alert.message = some row.message
  host : alert.host = row.host
  anomalyScore : alert.anomalyScore = some row.anomalyScore
  clusterId : alert.clusterId = some (row.cluster : ℤ)
  args : ∀ alertId, insertColumns.zip (insertArgs alertId alert) =
    [("alert_id", .id alertId),
      ("event_time", .text (row.eventTime.map spark.text)),
      ("component", .text (some row.component)),
      ("severity", .text row.severity),
      ("message", .text (some row.message)),
      ("host", .text row.host),
      ("anomaly_score", .float (some row.anomalyScore)),
      ("cluster_id", .int (some row.cluster))]

/-- A text of the alert of a row is decoded into its columns. -/
theorem alertOfText_alertJson {parser : JsonParser} (pydantic : Pydantic) (spark : Rendering)
    (receivedAt : String) {row : ProcessedRow} {text : String}
    (h : parser.loads text = .ok (alertJson spark.text row)) :
    ∃ alert, alertOfText parser pydantic receivedAt text = some alert ∧
      DecodedFrom spark row alert := by
  have hdata : alertOfText parser pydantic receivedAt text
      = alertEvent pydantic receivedAt (alertJson spark.text row) := by
    rw [alertOfText, JsonParser.data, h]
    rfl
  have halert := hdata.trans (alertEvent_alertJson pydantic receivedAt spark.text_ne row)
  exact ⟨_, halert, ⟨rfl, rfl, rfl, rfl, rfl, rfl, rfl, fun _ => rfl⟩⟩

/-- No two times are rendered alike: so it is in a time zone that never sets its clocks back, as
the UTC of the containers. -/
def Rendering.Unambiguous (spark : Rendering) : Prop := Function.Injective spark.text

/-- Rows that differ in a column; the times have to differ as they are rendered. -/
structure Distinguishes (spark : Rendering) (row row' : ProcessedRow) (alert alert' : AlertEvent) :
    Prop where
  timestamp : row.eventTime.map spark.text ≠ row'.eventTime.map spark.text →
    alert.timestamp ≠ alert'.timestamp
  component : row.component ≠ row'.component → alert.component ≠ alert'.component
  severity : row.severity ≠ row'.severity → alert.severity ≠ alert'.severity
  message : row.message ≠ row'.message → alert.message ≠ alert'.message
  host : row.host ≠ row'.host → alert.host ≠ alert'.host
  anomalyScore : row.anomalyScore ≠ row'.anomalyScore → alert.anomalyScore ≠ alert'.anomalyScore
  clusterId : row.cluster ≠ row'.cluster → alert.clusterId ≠ alert'.clusterId

theorem DecodedFrom.distinguishes {spark : Rendering} {row row' : ProcessedRow}
    {alert alert' : AlertEvent} (h : DecodedFrom spark row alert)
    (h' : DecodedFrom spark row' alert') : Distinguishes spark row row' alert alert' where
  timestamp hne := by rwa [h.timestamp, h'.timestamp]
  component hne := by
    rw [h.component, h'.component]
    exact (Option.some_injective _).ne hne
  severity hne := by rwa [h.severity, h'.severity]
  message hne := by
    rw [h.message, h'.message]
    exact (Option.some_injective _).ne hne
  host hne := by rwa [h.host, h'.host]
  anomalyScore hne := by
    rw [h.anomalyScore, h'.anomalyScore]
    exact (Option.some_injective _).ne hne
  clusterId hne := by
    rw [h.clusterId, h'.clusterId]
    exact (Option.some_injective _).ne (Nat.cast_injective.ne hne)

/-- **The decoder inverts the encoder**: of any two rows, whichever of their columns are
null, empty or zero, the texts the streaming job publishes become alerts with just their
columns, and with different ones where the rows differ; two different times are told apart where
the rendering is unambiguous. -/
theorem alertOfText_published (parser : JsonParser) (pydantic : Pydantic) (spark : Rendering)
    (receivedAt receivedAt' : String) {row row' : ProcessedRow} {text text' : String}
    (h : parser.loads text = .ok (alertJson spark.text row))
    (h' : parser.loads text' = .ok (alertJson spark.text row')) :
    ∃ alert alert', alertOfText parser pydantic receivedAt text = some alert ∧
      alertOfText parser pydantic receivedAt' text' = some alert' ∧
      DecodedFrom spark row alert ∧ DecodedFrom spark row' alert' ∧
      Distinguishes spark row row' alert alert' ∧
      (spark.Unambiguous → row.eventTime ≠ row'.eventTime →
        alert.timestamp ≠ alert'.timestamp) := by
  obtain ⟨alert, halert, hdecoded⟩ := alertOfText_alertJson pydantic spark receivedAt h
  obtain ⟨alert', halert', hdecoded'⟩ := alertOfText_alertJson pydantic spark receivedAt' h'
  have hdistinguishes := hdecoded.distinguishes hdecoded'
  refine ⟨alert, alert', halert, halert', hdecoded, hdecoded', hdistinguishes, fun hutc hne => ?_⟩
  exact hdistinguishes.timestamp ((Option.map_injective hutc).ne hne)

/-! ### The messages of a consumer -/

/-- The state the handling of messages leaves: the identifiers drawn, the table, and the
alerts broadcast. A payload is the dump of its alert, and stands for it here. -/
structure Feed where
  uuids : Uuid
  anomalyAlertsPg : List AlertRow
  broadcasts : List AlertEvent

namespace Feed

/-- The insert of an alert. It raises where the database fails, and where asyncpg refuses
an argument. -/
def insertAlert (asyncpg : Asyncpg) (fails : Bool) (alert : AlertEvent) : Code Feed Unit := do
  let alertId ← read (·.uuids)
  update fun s => { s with uuids := s.uuids + 1 }
  if fails then raise .error
  else match encodeArgs asyncpg (insertArgs alertId alert) with
    | none => raise .error
    | some row => update fun s =>
      { s with anomalyAlertsPg := Sql.insertOrIgnore (·.alertId) row s.anomalyAlertsPg }

/-- What the world outside does to the message of a number. -/
structure Surroundings where
  parser : JsonParser
  pydantic : Pydantic
  asyncpg : Asyncpg
  /-- `datetime.utcnow().isoformat() + "Z"`. -/
  now : ℕ → String
  /-- Whether there is a pool. -/
  dbPool : Bool
  /-- Whether the insert of the message fails. -/
  fails : ℕ → Bool

variable (env : Surroundings)

/-- The alert made of a message. -/
def alertOf (msg : String × ℕ) : Option AlertEvent :=
  alertOfText env.parser env.pydantic (env.now msg.2) msg.1

/-- The handling of a message. -/
def handleMessage (msg : String × ℕ) : Code Feed Unit :=
  exceptException (do
    match alertOf env msg with
    | none => raise .error
    | some alert => do
      if env.dbPool then exceptException (insertAlert env.asyncpg (env.fails msg.2) alert) (pure ())
      update fun s => { s with broadcasts := s.broadcasts ++ [alert] }) (pure ())

/-- `async for msg in state.kafka_consumer`, over the values of the messages. -/
def consume (values : List String) : Code Feed Unit :=
  forEach (handleMessage env) values.zipIdx

/-- An insert does not broadcast, and what it raises goes no further. -/
theorem mild_insertAlert (asyncpg : Asyncpg) (fails : Bool) (alert : AlertEvent)
    (sent : List AlertEvent) :
    Mild (fun s => s.broadcasts = sent) (insertAlert asyncpg fails alert) := by
  refine Mild.read.bind fun alertId => Mild.bind (Mild.update ?_) fun _ => ?_
  · exact fun _ h => h
  · split
    · exact Mild.raise
    · split
      · exact Mild.raise
      · exact Mild.update fun _ h => h

/-- The step: a message is broadcast if an alert can be made of it. -/
theorem ensures_handleMessage (msg : String × ℕ) (sent : List AlertEvent) :
    Ensures (fun s => s.broadcasts = sent) (handleMessage env msg)
      fun e s => e = .done () ∧ s.broadcasts = sent ++ (alertOf env msg).toList := by
  have hbody : Ensures (fun s => s.broadcasts = sent) (do
      match alertOf env msg with
      | none => raise .error
      | some alert => do
        if env.dbPool then
          exceptException (insertAlert env.asyncpg (env.fails msg.2) alert) (pure ())
        update fun s => { s with broadcasts := s.broadcasts ++ [alert] } : Code Feed Unit)
      fun e s => e.Mild ∧ s.broadcasts = sent ++ (alertOf env msg).toList := by
    cases alertOf env msg with
    | none => exact Ensures.raise fun s h => ⟨rfl, h.trans (List.append_nil sent).symm⟩
    | some alert =>
      have hsend : Ensures (fun s : Feed => s.broadcasts = sent)
          (update fun s => { s with broadcasts := s.broadcasts ++ [alert] })
          fun e s => e.Mild ∧ s.broadcasts = sent ++ [alert] :=
        Ensures.update fun s h => ⟨trivial, congrArg (· ++ [alert]) h⟩
      cases env.dbPool with
      | false => exact hsend
      | true =>
        refine (mild_insertAlert _ _ _ sent).exceptException_returns.bind ?_ ?_ ?_
        · exact fun _ _ h => nomatch h.1
        · exact fun _ h => nomatch h.1
        · exact fun _ => hsend.weaken (fun _ h => h.2) fun _ _ h => h
  refine Ensures.exceptException hbody ?_ ?_ ?_ ?_
  · exact fun _ _ h => ⟨rfl, h.2⟩
  · exact fun _ h => h.1.elim
  · exact fun _ h => nomatch h.1
  · exact Ensures.pure fun _ h => ⟨rfl, h.2⟩

/-- The run: **what is broadcast are the alerts that can be made**, in order, whatever the
inserts do. -/
theorem consume_spec (values : List String) (s : Feed) :
    (consume env values s).1 = .done () ∧
      (consume env values s).2.broadcasts
        = s.broadcasts ++ values.zipIdx.filterMap (alertOf env) := by
  have hrun : ∀ (msgs : List (String × ℕ)) (s : Feed),
      (forEach (handleMessage env) msgs s).1 = .done () ∧
        (forEach (handleMessage env) msgs s).2.broadcasts
          = s.broadcasts ++ msgs.filterMap (alertOf env) := by
    intro msgs
    induction msgs with
    | nil => exact fun s => ⟨rfl, (List.append_nil _).symm⟩
    | cons msg msgs ih =>
      intro s
      obtain ⟨hdone, hsent⟩ := ensures_handleMessage env msg s.broadcasts s rfl
      obtain ⟨hdone', hsent'⟩ := ih (handleMessage env msg s).2
      have hstep : forEach (handleMessage env) (msg :: msgs) s
          = forEach (handleMessage env) msgs (handleMessage env msg s).2 :=
        bind_done (Prod.ext hdone rfl)
      rw [hstep]
      refine ⟨hdone', hsent'.trans ?_⟩
      rw [hsent, List.append_assoc]
      cases halert : alertOf env msg with
      | none => rw [List.filterMap_cons_none halert]; rfl
      | some alert => rw [List.filterMap_cons_some halert]; rfl
  exact hrun values.zipIdx s

end Feed

/-! ### What the clients are to get -/

/-- A text, as the types of the textual fields have it. -/
def typedStr : Json → Option (Option String)
  | .null => some none
  | .str s => some (some s)
  | _ => none

/-- A number, as the type of `anomaly_score` has it. -/
def typedFloat : Json → Option (Option ℚ)
  | .null => some none
  | .int n => some (some n)
  | .float q => some (some q)
  | _ => none

/-- An integer, as the type of `cluster_id` has it. -/
def typedInt : Json → Option (Option ℤ)
  | .null => some none
  | .int n => some (some n)
  | _ => none

/-- The time of an alert: `timestamp`, or `event_time` where that is null. -/
def timeOf : Json → Json → Json
  | .null, eventTime => eventTime
  | time, _ => time

/-- The alert an object stands for whose fields have the types of `AlertEvent`; none for
any other value. -/
def typedAlert (data : Json) : Option AlertEvent :=
  readAlert timeOf typedStr typedFloat typedInt "" data

/-- The alert a text stands for. -/
def JsonParser.typedAlert (parser : JsonParser) (raw : String) : Option AlertEvent :=
  match parser.loads raw with
  | .ok data => AiopsLog.typedAlert data
  | .error _ => none

/-- The fields of an alert that are texts, but for the stamp of the gateway. -/
def AlertEvent.texts (alert : AlertEvent) : List (Option String) :=
  [alert.timestamp, alert.component, alert.severity, alert.message, alert.host]

/-- **A payload carries the content of its value**: the fields of the alert the value
stands for, or the raw text where it stands for none. -/
def Carries (parser : JsonParser) (raw : String) (alert : AlertEvent) : Prop :=
  match parser.typedAlert raw with
  | some typed => { alert with receivedAt := "" } = typed
  | none => some raw ∈ alert.texts

/-- What it takes: `json.loads` reads the text as an object whose fields have the types of
`AlertEvent`, its `anomaly_score` is not an integer that a float would round or not reach, and
its `timestamp` is not an empty text that the fallback to `event_time` would replace. -/
def Faithful (parser : JsonParser) (raw : String) : Prop :=
  ∃ fields typed, parser.loads raw = .ok (.obj fields) ∧ typedAlert (.obj fields) = some typed ∧
    (∀ n, fieldOf fields "anomaly_score" = .int n → IsDouble n) ∧
    (fieldOf fields "timestamp" = .str "" → fieldOf fields "event_time" = .str "")

/-! ### Which values get through -/

/-- A field that is a text stands in the object. -/
theorem exists_of_fieldOf_eq_str {fields : List (String × Json)} {name s : String}
    (h : fieldOf fields name = .str s) : ∃ name', (name', Json.str s) ∈ fields := by
  rw [fieldOf] at h
  rcases hlookup : fields.reverse.lookup name with _ | value
  · rw [hlookup] at h
    exact nomatch h
  · rw [hlookup] at h
    obtain rfl : value = .str s := h
    obtain ⟨l, l', heq, -⟩ := List.lookup_eq_some_iff.mp hlookup
    refine ⟨name, List.mem_reverse.mp ?_⟩
    rw [heq]
    exact List.mem_append_right _ List.mem_cons_self

/-- The texts of an alert are texts of the object it is read off. -/
theorem exists_of_mem_texts {timestamp : Json → Json → Json} {float : Json → Option (Option ℚ)}
    {int : Json → Option (Option ℤ)} {receivedAt s : String} {fields : List (String × Json)}
    {alert : AlertEvent} (pydantic : Pydantic)
    (htimestamp : ∀ a b, timestamp a b = a ∨ timestamp a b = b)
    (h : readAlert timestamp pydantic.str float int receivedAt (.obj fields) = some alert)
    (hs : some s ∈ alert.texts) : ∃ name, (name, Json.str s) ∈ fields := by
  obtain ⟨_, hobj, htime, hcomponent, hseverity, hmessage, hhost, -⟩ := readAlert_eq_some_iff.mp h
  obtain rfl := Json.obj.inj hobj
  have hfield : ∀ {name : String} {read : Option String},
      pydantic.str (fieldOf fields name) = some read → some s = read →
      ∃ name, (name, Json.str s) ∈ fields := fun hread heq =>
    exists_of_fieldOf_eq_str ((pydantic.str_eq_some_some _ s).mp (heq ▸ hread))
  simp only [AlertEvent.texts, List.mem_cons, List.not_mem_nil, or_false] at hs
  rcases hs with hs | hs | hs | hs | hs
  · rcases htimestamp (fieldOf fields "timestamp") (fieldOf fields "event_time") with heq | heq
    · exact hfield (heq ▸ htime) hs
    · exact hfield (heq ▸ htime) hs
  · exact hfield hcomponent hs
  · exact hfield hseverity hs
  · exact hfield hmessage hs
  · exact hfield hhost hs

section Values

variable {parser : JsonParser} {pydantic : Pydantic} {receivedAt raw : String} {alert : AlertEvent}

/-- What has the type of a field passes its validation unchanged. -/
theorem str_of_typed {value : Json} {v : Option String} (h : typedStr value = some v) :
    pydantic.str value = some v := by
  cases value with
  | null => exact pydantic.str_null.trans h
  | str s => exact (pydantic.str_str s).trans h
  | bool | int | float | arr | obj => exact nomatch h

theorem float_of_typed {value : Json} {v : Option ℚ} (h : typedFloat value = some v)
    (hdouble : ∀ n, value = .int n → IsDouble n) : pydantic.float value = some v := by
  cases value with
  | null => exact pydantic.float_null.trans h
  | float q => exact (pydantic.float_float q).trans h
  | int n => exact ((pydantic.float_int n).mpr (hdouble n rfl)).trans h
  | bool | str | arr | obj => exact nomatch h

theorem int_of_typed {value : Json} {v : Option ℤ} (h : typedInt value = some v) :
    pydantic.int value = some v := by
  cases value with
  | null => exact pydantic.int_null.trans h
  | int n => exact (pydantic.int_int n).trans h
  | float | bool | str | arr | obj => exact nomatch h

/-- The wrapped text has none of the fields, and the alert is empty. -/
theorem alertEvent_raw (pydantic : Pydantic) (receivedAt raw : String) :
    alertEvent pydantic receivedAt (.obj [("raw", .str raw)])
      = some ⟨none, none, none, none, none, none, none, receivedAt⟩ := by
  simp [alertEvent, Json.get, Json.truthy, List.lookup_cons, pydantic.str_null,
    pydantic.float_null, pydantic.int_null]

/-- A faithful value becomes an alert with its fields. -/
theorem exists_alert_of_faithful (pydantic : Pydantic) (receivedAt : String)
    (h : Faithful parser raw) :
    ∃ alert, alertOfText parser pydantic receivedAt raw = some alert ∧
      Carries parser raw alert := by
  obtain ⟨fields, typed, hloads, htyped, hdouble, hempty⟩ := h
  obtain ⟨_, hobj, htime, hcomponent, hseverity, hmessage, hhost, hscore, hcluster, hstamp⟩ :=
    readAlert_eq_some_iff.mp htyped
  obtain rfl := Json.obj.inj hobj
  -- the truth of the timestamp chooses as its being null does
  have hchoice : typedStr (if (fieldOf fields "timestamp").truthy then
      fieldOf fields "timestamp" else fieldOf fields "event_time") = some typed.timestamp := by
    cases htimestamp : fieldOf fields "timestamp" with
    | null =>
      rw [htimestamp] at htime
      exact htime
    | str s =>
      rw [htimestamp] at htime
      by_cases hs : s = ""
      · subst hs
        rw [if_neg (by decide), hempty htimestamp]
        exact htime
      · have htruthy : (Json.str s).truthy = true := decide_eq_true hs
        rw [if_pos htruthy]
        exact htime
    | bool | int | float | arr | obj =>
      rw [htimestamp] at htime
      exact nomatch htime
  refine ⟨{ typed with receivedAt := receivedAt }, ?_, ?_⟩
  · rw [alertOfText, JsonParser.data, hloads, Option.bind_some, alertEvent_eq_readAlert]
    exact readAlert_eq_some_iff.mpr ⟨fields, rfl, str_of_typed hchoice, str_of_typed hcomponent,
      str_of_typed hseverity, str_of_typed hmessage, str_of_typed hhost,
      float_of_typed hscore hdouble, int_of_typed hcluster, rfl⟩
  · rw [Carries, JsonParser.typedAlert, hloads]
    simp only [htyped]
    rw [← hstamp]

/-- **Only faithful values are carried.** -/
theorem faithful_of_carries (halert : alertOfText parser pydantic receivedAt raw = some alert)
    (h : Carries parser raw alert) : Faithful parser raw := by
  rw [alertOfText, JsonParser.data] at halert
  rw [Carries, JsonParser.typedAlert] at h
  rcases hloads : parser.loads raw with _ | data <;> rw [hloads] at halert h
  case error e =>
    cases e with
    | decode =>
      rw [Option.bind_some, alertEvent_raw] at halert
      obtain rfl := Option.some_injective _ halert
      exact absurd h (by simp [AlertEvent.texts])
    | other => exact nomatch halert
  case ok =>
    rw [Option.bind_some, alertEvent_eq_readAlert] at halert
    obtain ⟨fields, rfl, htime, -, -, -, -, hscore, -⟩ := readAlert_eq_some_iff.mp halert
    cases htyped : typedAlert (.obj fields) with
    | none =>
      -- the raw text would have to stand in itself
      simp only [htyped] at h
      obtain ⟨name, hmem⟩ := exists_of_mem_texts pydantic (fun a b => by split <;> simp) halert h
      exact absurd (parser.length_lt raw fields name raw hloads hmem) (lt_irrefl _)
    | some typed =>
      simp only [htyped] at h
      obtain ⟨_, hobj, htime', -, -, -, -, hscore', -⟩ := readAlert_eq_some_iff.mp htyped
      obtain rfl := Json.obj.inj hobj
      refine ⟨fields, typed, hloads, htyped, fun n hint => ?_, fun hempty => ?_⟩
      · have hsame : alert.anomalyScore = typed.anomalyScore := by rw [← h]
        rw [hint] at hscore hscore'
        have hn : typed.anomalyScore = some (n : ℚ) := (Option.some_injective _ hscore').symm
        rw [hsame, hn] at hscore
        exact (pydantic.float_int n).mp hscore
      · have hsame : alert.timestamp = typed.timestamp := by rw [← h]
        rw [hempty] at htime htime'
        have hnone : typed.timestamp = some "" := (Option.some_injective _ htime').symm
        rw [hsame, hnone] at htime
        exact (pydantic.str_eq_some_some _ "").mp htime

end Values

/-- The alerts made of some values carry them one by one exactly where all are
faithful. -/
theorem forall₂_carries_iff (env : Feed.Surroundings) (values : List String) (n : ℕ) :
    List.Forall₂ (Carries env.parser) values ((values.zipIdx n).filterMap (Feed.alertOf env))
      ↔ ∀ raw ∈ values, Faithful env.parser raw := by
  induction values generalizing n with
  | nil => exact iff_of_true List.Forall₂.nil fun _ h => absurd h List.not_mem_nil
  | cons raw values ih =>
    rw [List.zipIdx_cons, List.forall_mem_cons, ← ih (n + 1)]
    cases halert : Feed.alertOf env (raw, n) with
    | none =>
      -- a value that is dropped leaves one broadcast too few
      rw [List.filterMap_cons_none halert]
      refine iff_of_false (fun hall => ?_) fun h => ?_
      · have hlength := hall.length_eq
        have hle := List.length_filterMap_le (Feed.alertOf env) (values.zipIdx (n + 1))
        rw [List.length_zipIdx] at hle
        rw [List.length_cons] at hlength
        omega
      · obtain ⟨alert, hsome, -⟩ := exists_alert_of_faithful env.pydantic (env.now n) h.1
        exact nomatch halert.symm.trans hsome
    | some alert =>
      rw [List.filterMap_cons_some halert, List.forall₂_cons]
      refine and_congr_left fun _ => ⟨faithful_of_carries halert, fun h => ?_⟩
      obtain ⟨alert', hsome, hcarries⟩ := exists_alert_of_faithful env.pydantic (env.now n) h
      exact Option.some_injective _ (halert.symm.trans hsome) ▸ hcarries

/-- **When every message reaches the clients**: one broadcast for each value, in order and
with its content, if and only if every value is faithful – an object whose fields have
the types of `AlertEvent`, with no empty `timestamp` that is replaced. -/
theorem delivered_iff (env : Feed.Surroundings) (values : List String) (s : Feed) :
    (∃ sent, (Feed.consume env values s).2.broadcasts = s.broadcasts ++ sent ∧
        List.Forall₂ (Carries env.parser) values sent)
      ↔ ∀ raw ∈ values, Faithful env.parser raw := by
  rw [(Feed.consume_spec env values s).2, ← forall₂_carries_iff env values 0]
  constructor
  · rintro ⟨sent, heq, hall⟩
    exact List.append_cancel_left heq ▸ hall
  · exact fun hall => ⟨_, rfl, hall⟩

/-! ### Objects without nesting -/

/-- A value as it is written in JSON, where it is no list and no object with fields, its text needs
no escape, and a float is whole. -/
def Json.scalar : Json → String
  | .null => "null"
  | .bool b => toString b
  | .int n => toString n
  | .float q => toString q.num ++ ".0"
  | .str s => "\"" ++ s ++ "\""
  | .arr _ => "[]"
  | .obj _ => "\x7b\x7d"

/-- A field with its value, behind what separates it from what comes before. -/
def fieldText (separator : String) (field : String × Json) : String :=
  separator ++ "\"" ++ field.1 ++ "\": " ++ field.2.scalar

/-- The fields behind the first one, and the closing brace. -/
def restText : List (String × Json) → String
  | [] => "\x7d"
  | field :: fields => fieldText ", " field ++ restText fields

/-- An object of such values. -/
def objectText : List (String × Json) → String
  | [] => "\x7b\x7d"
  | field :: fields => fieldText "\x7b" field ++ restText fields

theorem length_lt_fieldText (separator name s : String) :
    s.length < (fieldText separator (name, .str s)).length := by
  have hquote : 0 < "\"".length := by decide
  simp only [fieldText, Json.scalar, String.length_append]
  omega

theorem length_lt_restText {name s : String} {fields : List (String × Json)}
    (h : (name, Json.str s) ∈ fields) : s.length < (restText fields).length := by
  induction fields with
  | nil => exact absurd h List.not_mem_nil
  | cons field fields ih =>
    rw [restText, String.length_append]
    rcases List.mem_cons.mp h with rfl | h
    · exact Nat.lt_add_right _ (length_lt_fieldText _ name s)
    · exact Nat.lt_add_left _ (ih h)

/-- A text in an object is shorter than the text of the object. -/
theorem length_lt_objectText {name s : String} {fields : List (String × Json)}
    (h : (name, Json.str s) ∈ fields) : s.length < (objectText fields).length := by
  cases fields with
  | nil => exact absurd h List.not_mem_nil
  | cons field fields =>
    rw [objectText, String.length_append]
    rcases List.mem_cons.mp h with rfl | h
    · exact Nat.lt_add_right _ (length_lt_fieldText _ name s)
    · exact Nat.lt_add_left _ (length_lt_restText h)

/-- `json.loads` on the texts of some objects, and on a number. -/
def JsonParser.ofObjects (objects : List (List (String × Json))) : JsonParser where
  loads text := match objects.find? fun fields => text = objectText fields with
    | some fields => .ok (.obj fields)
    | none => if text = "5" then .ok (.int 5) else .error .decode
  length_lt text fields' name s h hmem := by
    split at h
    · next fields hfind =>
      obtain rfl := Json.obj.inj (Except.ok.inj h)
      have htext := List.find?_some hfind
      exact of_decide_eq_true htext ▸ length_lt_objectText hmem
    · split at h <;> exact nomatch h

theorem loads_objectText_single (fields : List (String × Json)) :
    (JsonParser.ofObjects [fields]).loads (objectText fields) = .ok (.obj fields) := by
  simp only [JsonParser.ofObjects, List.find?_cons, decide_true]

/-! ### Some texts -/

/-- The anomaly of a component, with nothing in its other columns. -/
def anomalyIn (component : String) : ProcessedRow := processedRow 0 (bareRow component) 0

/-- Its fields. -/
def anomalyFields (component : String) : List (String × Json) :=
  [("component", .str component), ("message", .str ""), ("anomaly_score", .float 1),
    ("cluster_id", .int 0)]

/-- An anomaly of a component with a time, a severity and a host. -/
def timedAnomaly (t : Timestamp) (component : String) : ProcessedRow :=
  { anomalyIn component with eventTime := some t, severity := some "INFO", host := some "R02" }

/-- Its fields, with the time as it is rendered. -/
def timedFields (time component : String) : List (String × Json) :=
  [("timestamp", .str time), ("component", .str component), ("severity", .str "INFO"),
    ("message", .str ""), ("host", .str "R02"), ("anomaly_score", .float 1), ("cluster_id", .int 0)]

/-- A number that tells the times apart, zero for the second second of the epoch. -/
def delay (t : ℤ) : ℕ := 2 * (t - 1000000).natAbs + if t < 1000000 then 1 else 0

theorem eq_of_delay_eq {t t' : ℤ} (h : delay t = delay t') : t = t' := by
  unfold delay at h
  split at h <;> split at h <;> omega

/-- A rendering that is right on the first two seconds of the epoch, and tells the other times
apart by the length. -/
def secondsRendering : Rendering where
  text t :=
    if t = 0 then "1970-01-01 00:00:00"
    else "1970-01-01 00:00:01" ++ String.ofList (List.replicate (delay t) '0')
  text_ne t := by
    split
    · decide
    · intro h
      have hlength := congrArg String.length h
      rw [String.length_append] at hlength
      have hsecond : "1970-01-01 00:00:01".length = 19 := by decide
      rw [hsecond, String.length_empty] at hlength
      omega

theorem length_secondsRendering {t : Timestamp} (h : t ≠ 0) :
    (secondsRendering.text t).length = 19 + delay t := by
  have hsecond : "1970-01-01 00:00:01".length = 19 := by decide
  simp only [secondsRendering, if_neg h]
  rw [String.length_append, hsecond, String.length_ofList, List.length_replicate]

theorem unambiguous_secondsRendering : secondsRendering.Unambiguous := by
  have hzero : ∀ {t : ℤ}, t ≠ 0 → secondsRendering.text 0 ≠ secondsRendering.text t := by
    intro t ht heq
    have hfirst : (secondsRendering.text 0).length = 19 := by decide
    have hlength := congrArg String.length heq
    rw [hfirst, length_secondsRendering ht, delay] at hlength
    -- of the others only the second second is as short
    obtain rfl : t = 1000000 := by split at hlength <;> omega
    exact absurd heq (by decide)
  intro t t' h
  by_cases ht : t = 0 <;> by_cases ht' : t' = 0
  · rw [ht, ht']
  · exact absurd (ht ▸ h) (hzero ht')
  · exact absurd (ht' ▸ h).symm (hzero ht)
  · have hlength := congrArg String.length h
    rw [length_secondsRendering ht, length_secondsRendering ht'] at hlength
    exact eq_of_delay_eq (Nat.add_left_cancel hlength)

/-- `json.loads` on the alerts of the anomalies. -/
def sampleParser : JsonParser :=
  .ofObjects [anomalyFields "KERNEL", anomalyFields "APP",
    timedFields "1970-01-01 00:00:00" "KERNEL", timedFields "1970-01-01 00:00:01" "APP"]

set_option maxRecDepth 4000 in
/-- Two alerts of the streaming job, decoded; their times differ. -/
theorem alertOfText_published_anomalies :
    ∃ alert alert',
      alertOfText sampleParser numericPydantic ""
        (objectText (timedFields "1970-01-01 00:00:00" "KERNEL")) = some alert ∧
      alertOfText sampleParser numericPydantic ""
        (objectText (timedFields "1970-01-01 00:00:01" "APP")) = some alert' ∧
      DecodedFrom secondsRendering (timedAnomaly 0 "KERNEL") alert ∧
      DecodedFrom secondsRendering (timedAnomaly 1000000 "APP") alert' ∧
      Distinguishes secondsRendering (timedAnomaly 0 "KERNEL") (timedAnomaly 1000000 "APP")
        alert alert' ∧
      alert.timestamp ≠ alert'.timestamp := by
  have hkernel : sampleParser.loads (objectText (timedFields "1970-01-01 00:00:00" "KERNEL"))
      = .ok (alertJson secondsRendering.text (timedAnomaly 0 "KERNEL")) := rfl
  have happ : sampleParser.loads (objectText (timedFields "1970-01-01 00:00:01" "APP"))
      = .ok (alertJson secondsRendering.text (timedAnomaly 1000000 "APP")) := rfl
  obtain ⟨alert, alert', h, h', hdecoded, hdecoded', hdistinguishes, htimes⟩ :=
    alertOfText_published sampleParser numericPydantic secondsRendering "" "" hkernel happ
  refine ⟨alert, alert', h, h', hdecoded, hdecoded', hdistinguishes, ?_⟩
  exact htimes unambiguous_secondsRendering (by decide)

/-- A gateway whose inserts go through. -/
def sampleGateway : Feed.Surroundings :=
  ⟨sampleParser, numericPydantic, plainAsyncpg, fun _ => "", true, fun _ => false⟩

set_option maxRecDepth 4000 in
/-- **A plain text is broadcast as an empty alert, and a number not at all.** -/
theorem not_delivered_plain_text :
    (Feed.consume sampleGateway ["disk failure", "5"] ⟨0, [], []⟩).2.broadcasts
        = [⟨none, none, none, none, none, none, none, ""⟩] ∧
      ¬∃ sent, (Feed.consume sampleGateway ["disk failure", "5"] ⟨0, [], []⟩).2.broadcasts
          = [] ++ sent ∧
        List.Forall₂ (Carries sampleGateway.parser) ["disk failure", "5"] sent := by
  have hsent : (Feed.consume sampleGateway ["disk failure", "5"] ⟨0, [], []⟩).2.broadcasts
      = [⟨none, none, none, none, none, none, none, ""⟩] := rfl
  refine ⟨hsent, ?_⟩
  rintro ⟨sent, heq, hall⟩
  rw [hsent] at heq
  have hlength := hall.length_eq
  rw [← List.nil_append sent, ← heq] at hlength
  exact absurd hlength (by decide)

end AiopsLog
