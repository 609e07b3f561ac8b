import AiopsLog.Fluentd.Lakehouse
import AiopsLog.Gateway.AlertPath

/-!
# From the log file to the page

A line of the log file is taken apart by the collector, becomes a row of a batch of the job, is
found to be an anomaly, published, read by the gateway, broadcast, and shown by a page. What the
page shows of it can be read off the line (`AiopsLog.EndToEnd.page_shows_lines`).

The two figures of the page are the number of the lines shown and of those that count as fatal.
What decides the second is not the level of a line: the collector takes the column before it for
the severity. So for lines of components none of which is called `FATAL` or `ERROR` the second
figure stays at zero, whatever their levels are.
-/

namespace AiopsLog

open DemoStream AlertPath Fluentd

namespace EndToEnd

variable {Nlp Km Features : Type} {ml : SparkML Nlp Km Features} {env : Texts} {spark : Rendering}
  {parsers : Parsers} {upcase : Text → Text} {clock : ℕ → Text} {lines : List BglLine}

/-- What an alert shows of a line. -/
structure ShownAs (spark : Rendering) (parsers : Parsers) (upcase : Text → Text) (b : BglLine)
    (alert : AlertEvent) : Prop where
  timestamp : alert.timestamp
    = (parsers.toEventTime (String.ofList b.timestamp.1)).map spark.text
  host : alert.host = some (String.ofList b.node.1)
  component : alert.component = some (String.ofList b.recordType.1)
  severity : alert.severity = some (String.ofList (upcase b.component.1))
  message : alert.message = some (String.ofList b.rest.1)
  anomalyScore : alert.anomalyScore = some 1

/-- The line counts as fatal: its component is taken for its severity. -/
def CountsAsFatal (upper : String → String) (upcase : Text → Text) (b : BglLine) : Prop :=
  upper (DemoPage.orElse (some (String.ofList (upcase b.component.1))) "INFO")
    ∈ ["FATAL", "ERROR"]

instance (upper : String → String) (upcase : Text → Text) :
    DecidablePred (CountsAsFatal upper upcase) := fun _ =>
  inferInstanceAs (Decidable (_ ∈ _))

theorem ShownAs.isFatal_iff {b : BglLine} {alert : AlertEvent}
    (h : ShownAs spark parsers upcase b alert) (upper : String → String) :
    DemoPage.IsFatal upper alert ↔ CountsAsFatal upper upcase b := by
  rw [DemoPage.IsFatal, DemoPage.severity, h.severity, CountsAsFatal]
  simp only [List.mem_cons, List.not_mem_nil, or_false]

/-- The batches of some calls hold rows of these lines only. -/
def BatchesOf (parsers : Parsers) (upcase : Text → Text) (clock : ℕ → Text)
    (lines : List BglLine) (calls : List ProcessCall) : Prop :=
  ∀ call ∈ calls, ∀ row ∈ call.batch,
    row ∈ readKafkaStream parsers ((records upcase clock (lines.map BglLine.text)).map fromJson)

/-- **An anomaly that is found is a line**, with its columns. -/
theorem exists_line_of_found {calls : List ProcessCall}
    (hbatches : BatchesOf parsers upcase clock lines calls) {anomaly : ProcessedRow}
    (h : Found ml calls anomaly) :
    ∃ b ∈ lines, ∃ ingestedAt, anomaly.columns = b.columns parsers upcase ingestedAt ∧
      anomaly.anomalyScore = 1 := by
  obtain ⟨nlp, km, c, -, batch, hbatch, row, hrow, hcluster, hlabelled⟩ := h
  obtain ⟨call, hcall, rfl⟩ := List.mem_map.mp hbatch
  have hcolumns := List.mem_map_of_mem (hbatches call hcall row hrow)
    (f := fun row : LogRow => row.columns)
  rw [map_columns_readKafkaStream] at hcolumns
  obtain ⟨⟨b, i⟩, hb, heq⟩ := List.mem_map.mp hcolumns
  refine ⟨b, List.fst_mem_of_mem_zipIdx hb, clock i, hlabelled.columns.trans heq.symm, ?_⟩
  rw [hlabelled.anomalyScore, if_pos hcluster]

theorem shownAs_of_decoded {b : BglLine} {ingestedAt : Text} {anomaly : ProcessedRow}
    {alert : AlertEvent} (hcolumns : anomaly.columns = b.columns parsers upcase ingestedAt)
    (hscore : anomaly.anomalyScore = 1) (h : DecodedFrom spark anomaly alert) :
    ShownAs spark parsers upcase b alert := by
  obtain ⟨htime, hhost, hcomponent, hseverity, hmessage, -⟩ := LogColumns.mk.inj hcolumns
  exact ⟨by rw [h.timestamp, htime], h.host.trans hhost, by rw [h.component, hcomponent],
    h.severity.trans hseverity, by rw [h.message, hmessage], by rw [h.anomalyScore, hscore]⟩

theorem exists_of_mem_left {α β : Type} {R : α → β → Prop} {l : List α} {l' : List β}
    (h : List.Forall₂ R l l') {a : α} (ha : a ∈ l) : ∃ b, R a b := by
  induction h with
  | nil => exact absurd ha List.not_mem_nil
  | cons hab _ ih =>
    rcases List.mem_cons.mp ha with rfl | ha
    · exact ⟨_, hab⟩
    · exact ih ha

/-- Lines for the payloads, one by one, and the fatal ones among them. -/
theorem exists_lines (upper : String → String) {parse : String → AlertEvent}
    {payloads : List String}
    (h : ∀ payload ∈ payloads, ∃ b ∈ lines, ShownAs spark parsers upcase b (parse payload)) :
    ∃ shown, List.Forall₂ (fun payload b => b ∈ lines ∧
        ShownAs spark parsers upcase b (parse payload)) payloads shown ∧
      (payloads.countP fun payload => DemoPage.IsFatal upper (parse payload))
        = shown.countP (CountsAsFatal upper upcase) := by
  induction payloads with
  | nil => exact ⟨[], List.Forall₂.nil, rfl⟩
  | cons payload payloads ih =>
    obtain ⟨b, hb, hshown⟩ := h payload List.mem_cons_self
    obtain ⟨shown, hall, hcount⟩ := ih fun p hp => h p (List.mem_cons_of_mem _ hp)
    refine ⟨b :: shown, List.Forall₂.cons ⟨hb, hshown⟩ hall, ?_⟩
    rw [List.countP_cons, List.countP_cons, hcount]
    simp only [decide_eq_true_eq, hshown.isFatal_iff upper]

/-- **What the page shows are lines of the file**: whatever the interleaving of the job, the
consumer, the clients and the page, every alert that the page counts is a line that was handed
on, with its time, its node and its message, the column before the component for its component
and the component for its severity; and the figure of the fatal alerts is the number of those
shown whose component is called `FATAL` or `ERROR`, so that it is zero where no line has such a
component. -/
theorem page_shows_lines {ws : WebSocket} {actions : List AlertPath.Action} {s : System}
    (hrun : Lts.run (AlertPath.step ml env) actions (AlertPath.start ws) = some s)
    (hreadable : s.Readable ml env spark)
    (hparse : ∀ alert, env.modelDumpJson alert ∈ broadcasts s.stream.gateway.manager.log →
      env.parse (env.modelDumpJson alert) = alert)
    (hbatches : BatchesOf parsers upcase clock lines s.calls) :
    ∃ shown, List.Forall₂ (fun payload b => b ∈ lines ∧
        ShownAs spark parsers upcase b (env.parse payload)) s.stream.seen shown ∧
      s.stream.page.statTotal = shown.length ∧
      s.stream.page.statFatal = shown.countP (CountsAsFatal env.upper upcase) ∧
      ((∀ b ∈ lines, ¬CountsAsFatal env.upper upcase b) → s.stream.page.statFatal = 0) := by
  have h := AlertPath.sound_run hrun hreadable
  obtain ⟨offsets, hshows, -⟩ := exists_shows h hreadable hparse
  obtain ⟨htotal, hfatal⟩ := figures_eq h
  have hlines : ∀ payload ∈ s.stream.seen, ∃ b ∈ lines,
      ShownAs spark parsers upcase b (env.parse payload) := by
    intro payload hpayload
    obtain ⟨offset, anomaly, -, hfound, hdecoded⟩ := exists_of_mem_left hshows hpayload
    obtain ⟨b, hb, ingestedAt, hcolumns, hscore⟩ := exists_line_of_found hbatches hfound
    exact ⟨b, hb, shownAs_of_decoded hcolumns hscore hdecoded⟩
  obtain ⟨shown, hall, hcount⟩ := exists_lines env.upper hlines
  have hfigure := hfatal.trans hcount
  refine ⟨shown, hall, htotal.trans hall.length_eq, hfigure, fun hnone => ?_⟩
  rw [hfigure, List.countP_eq_zero]
  intro b hb hcounts
  obtain ⟨payload, hline, -⟩ := exists_of_mem_left hall.flip hb
  exact hnone b hline (of_decide_eq_true hcounts)

/-! ### The example of the configuration -/

/-- Its time, as Spark writes it. -/
def renderingOfExample : Rendering := ⟨fun _ => "2005-06-03 15:42:50.675872", fun _ => by decide⟩

/-- The row of its record. -/
def exampleRow : LogRow :=
  (enrich parsersOfExample (fromJson (parityError.asLine.record (·.map Char.toUpper) []))).getD
    (bareRow "")

/-- The call for it, in which it is found to be an anomaly. -/
def exampleAnomalyCall : ProcessCall where
  env := { Env.serving with castString := renderingOfExample.text }
  batch := [exampleRow]
  batchId := 0
  noKill _ := Signal.noConfusion

/-- What is published then. -/
def exampleAlerts : List Json :=
  (anomaliesOf (labels (SparkML.ofRule fun _ => 0) .init [exampleRow])).map
    (alertJson renderingOfExample.text)

/-- The fields of it. -/
def exampleFields : List (String × Json) :=
  match exampleAlerts with
  | [.obj fields] => fields
  | _ => []

theorem topic_example :
    topic (SparkML.ofRule fun _ => 0) [exampleAnomalyCall] = [.obj exampleFields] := by
  have hok : exampleAnomalyCall.env.AllOk := fun _ => rfl
  exact (topic_singleton (SparkML.ofRule fun _ => 0) hok).trans
    (rfl : exampleAlerts = [.obj exampleFields])

/-- The alert that is made of it. -/
def exampleAlert : AlertEvent where
  timestamp := some "2005-06-03 15:42:50.675872"
  component := some (String.ofList "RAS".toList)
  severity := some (String.ofList ("KERNEL".toList.map Char.toUpper))
  message := some (String.ofList parityError.rest.1)
  host := some (String.ofList "R02-M1-N0-C:J12-U11".toList)
  anomalyScore := some 1
  clusterId := some 0
  receivedAt := ""

def examplePayload : String :=
  objectText [("timestamp", .str "2005-06-03 15:42:50.675872"), ("component", .str "RAS"),
    ("severity", .str "KERNEL"),
    ("message", .str "INFO instruction cache parity error corrected"),
    ("host", .str "R02-M1-N0-C:J12-U11"), ("anomaly_score", .float 1), ("cluster_id", .int 0),
    ("received_at", .str "")]

def exampleTexts : Texts where
  toJson _ := objectText exampleFields
  parser := .ofObjects [exampleFields]
  pydantic := numericPydantic
  modelDumpJson alert := if alert = exampleAlert then examplePayload else ""
  parse _ := exampleAlert
  upper := id

theorem loads_example :
    exampleTexts.parser.loads (objectText exampleFields) = .ok (.obj exampleFields) := by
  have hparser : exampleTexts.parser = .ofObjects [exampleFields] := rfl
  rw [hparser]
  exact loads_objectText_single exampleFields

theorem alertOfText_example : alertOfText exampleTexts.parser exampleTexts.pydantic ""
    (objectText exampleFields) = some exampleAlert := by
  rw [alertOfText, JsonParser.data, loads_example]
  rfl

/-- Before the consumer gets the alert. -/
def exampleBefore : List AlertPath.Action :=
  [.stream (.gateway (.arrive 1)), .stream (.gateway (.handler 1 .ok)), .stream (.onopen 1),
    .process exampleAnomalyCall]

/-- And after it. -/
def exampleAfter : List AlertPath.Action :=
  [.broadcast, .stream (.gateway (.consumer .ok)), .stream (.deliver 1), .stream (.deliver 1)]

/-- The line goes all the way. -/
theorem run_example :
    ∃ s, Lts.run (AlertPath.step (SparkML.ofRule fun _ => 0) exampleTexts)
        (exampleBefore ++ .receive "" :: exampleAfter) (AlertPath.start 1) = some s ∧
      s.calls = [exampleAnomalyCall] ∧
      broadcasts s.stream.gateway.manager.log = [exampleTexts.modelDumpJson exampleAlert] ∧
      s.stream.page.statTotal = 1 := by
  obtain ⟨s, hbefore, hwaits, htopic, hafter⟩ : ∃ s : System,
      Lts.run (AlertPath.step (SparkML.ofRule fun _ => 0) exampleTexts) exampleBefore
        (AlertPath.start 1) = some s ∧ s.Waits = true ∧
      (topic (SparkML.ofRule fun _ => 0) s.calls)[s.cursor.position]? = some (.obj exampleFields) ∧
      ∃ s', Lts.run (AlertPath.step (SparkML.ofRule fun _ => 0) exampleTexts) exampleAfter
          { s with
            cursor := s.cursor.advance
            inHand := some (s.cursor.position, exampleAlert) } = some s' ∧
        s'.calls = [exampleAnomalyCall] ∧
        broadcasts s'.stream.gateway.manager.log = [exampleTexts.modelDumpJson exampleAlert] ∧
        s'.stream.page.statTotal = 1 := by
    refine ⟨_, rfl, rfl, ?_, _, rfl, rfl, rfl, rfl⟩
    exact congrArg (fun topic : List Json => topic[0]?) topic_example
  obtain ⟨s', hrun, hrest⟩ := hafter
  refine ⟨s', ?_, hrest⟩
  have hreceive : AlertPath.step (SparkML.ofRule fun _ => 0) exampleTexts s (.receive "")
      = some { s with
          cursor := s.cursor.advance
          inHand := some (s.cursor.position, exampleAlert) } := by
    rw [AlertPath.step, if_pos hwaits, htopic]
    exact congrArg (fun alert : Option AlertEvent => some { s with
      cursor := s.cursor.advance
      inHand := alert.map fun alert => (s.cursor.position, alert) }) alertOfText_example
  rw [Lts.run_append, hbefore, Option.bind_some, Lts.run_cons hreceive]
  exact hrun

theorem batchesOf_example : BatchesOf parsersOfExample (·.map Char.toUpper) (fun _ => [])
    [parityError] [exampleAnomalyCall] := by
  intro call hcall row hrow
  rw [List.mem_singleton.mp hcall] at hrow
  obtain rfl : row = exampleRow := List.mem_singleton.mp hrow
  have hrecords : records (·.map Char.toUpper) (fun _ => []) [parityError.text]
      = [parityError.asLine.record (·.map Char.toUpper) []] := by
    have hemit := parityError.emit_text (·.map Char.toUpper) []
    show (emit (·.map Char.toUpper) [] parityError.text).toList = _
    rw [hemit]
    rfl
  rw [List.map_singleton, hrecords]
  exact List.mem_singleton_self _

theorem readable_example {s : System} (h : s.calls = [exampleAnomalyCall]) :
    s.Readable (SparkML.ofRule fun _ => 0) exampleTexts renderingOfExample where
  cast call hcall := by
    rw [h] at hcall
    rw [List.mem_singleton.mp hcall]
    rfl
  loads json hjson := by
    rw [h, topic_example] at hjson
    obtain rfl := List.mem_singleton.mp hjson
    have htext : exampleTexts.toJson (.obj exampleFields) = objectText exampleFields := rfl
    rw [htext]
    exact loads_example

theorem parse_example {log : List Event}
    (h : broadcasts log = [exampleTexts.modelDumpJson exampleAlert]) (alert : AlertEvent)
    (halert : exampleTexts.modelDumpJson alert ∈ broadcasts log) :
    exampleTexts.parse (exampleTexts.modelDumpJson alert) = alert := by
  by_cases heq : alert = exampleAlert
  · exact heq.symm
  · have hempty : exampleTexts.modelDumpJson alert = "" := if_neg heq
    have hpayload : exampleTexts.modelDumpJson exampleAlert = examplePayload := by
      show (if exampleAlert = exampleAlert then examplePayload else "") = examplePayload
      rw [if_pos rfl]
    have hlength : 0 < examplePayload.length :=
      Nat.zero_lt_of_lt (length_lt_objectText List.mem_cons_self)
    rw [h, hempty, hpayload] at halert
    exact absurd (congrArg String.length (List.mem_singleton.mp halert)) hlength.ne

/-- The line of the configuration is on the page, and does not count as fatal there. -/
theorem page_shows_lines_example :
    ∃ s, Lts.run (AlertPath.step (SparkML.ofRule fun _ => 0) exampleTexts)
        (exampleBefore ++ .receive "" :: exampleAfter) (AlertPath.start 1) = some s ∧
      s.stream.page.statTotal = 1 ∧ s.stream.page.statFatal = 0 := by
  obtain ⟨s, hrun, hcalls, hlog, htotal⟩ := run_example
  obtain ⟨_, -, -, -, hnone⟩ :=
    page_shows_lines hrun (readable_example hcalls) (parse_example hlog)
      (hcalls ▸ batchesOf_example)
  refine ⟨s, hrun, htotal, hnone fun b hb => ?_⟩
  rw [List.mem_singleton.mp hb]
  decide

end EndToEnd

end AiopsLog
