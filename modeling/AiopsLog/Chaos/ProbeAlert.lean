import AiopsLog.Chaos.ProbeInjection
import AiopsLog.Gateway.PersistedAlerts

/-!
# The probe on the topic

Beside its line in the log, the latency probe publishes an alert of its own to
`critical-alerts`, to test the gateway without the streaming job. It waits for a message on the
WebSocket, and then asks `GET /api/v1/alerts/recent` up to three times, so that the consumer has
time to persist the alert.

The consumer broadcasts the alert, but does not persist it: the probe has a time, and an alert
that has one is refused. However often the probe is run, and however long it waits, its alerts
leave no row; on a table that was empty before, its last check fails, and with it the scenario
(`AiopsLog.LatencyProbe.probes_leave_no_row`).
-/

namespace AiopsLog

namespace LatencyProbe

/-! ### The alert of the probe -/

/-- What `_inject_probe_kafka` publishes: the time, as `strftime` writes it, and the identifier
of the probe. -/
structure ProbeMessage where
  timestamp : String
  timestamp_ne : timestamp ≠ ""
  probeId : ProbeId

/-- The message of the alert. -/
def ProbeMessage.message (probe : ProbeMessage) : String :=
  "CHAOS_PROBE_ID=" ++ String.ofList probe.probeId.text ++ " latency_test=1"

/-- The fields of its `payload`. -/
def ProbeMessage.fields (probe : ProbeMessage) : List (String × Json) :=
  [("timestamp", .str probe.timestamp), ("component", .str "CHAOS_PROBE"),
    ("severity", .str "WARNING"), ("message", .str probe.message), ("is_anomaly", .int 1),
    ("cluster", .int 0)]

/-- The `payload` of `_inject_probe_kafka`, before `json.dumps`. -/
def ProbeMessage.payload (probe : ProbeMessage) : Json := .obj probe.fields

/-- The alert the gateway makes of it. The cluster is not in it: the gateway reads
`cluster_id`. -/
def ProbeMessage.alert (probe : ProbeMessage) (receivedAt : String) : AlertEvent where
  timestamp := some probe.timestamp
  component := some "CHAOS_PROBE"
  severity := some "WARNING"
  message := some probe.message
  host := none
  anomalyScore := none
  clusterId := none
  receivedAt := receivedAt

theorem alertEvent_payload (pydantic : Pydantic) (receivedAt : String) (probe : ProbeMessage) :
    alertEvent pydantic receivedAt probe.payload = some (probe.alert receivedAt) := by
  have htruthy : (Json.str probe.timestamp).truthy = true := decide_eq_true probe.timestamp_ne
  simp [alertEvent, ProbeMessage.payload, ProbeMessage.fields, ProbeMessage.alert, Json.get,
    List.lookup_cons, htruthy, pydantic.str_null, pydantic.str_str, pydantic.float_null,
    pydantic.int_null]

theorem not_insertable_alert (probe : ProbeMessage) (receivedAt : String) :
    ¬(probe.alert receivedAt).Insertable :=
  fun h => Option.some_ne_none _ h.1

/-! ### What the consumer makes of it -/

section Consumer

variable {env : Feed.Surroundings} {probe : ProbeMessage} {text : String}

theorem alertOf_probe (hloads : env.parser.loads text = .ok probe.payload) (n : ℕ) :
    Feed.alertOf env (text, n) = some (probe.alert (env.now n)) := by
  show alertOfText env.parser env.pydantic (env.now n) text = _
  rw [alertOfText, JsonParser.data, hloads]
  exact alertEvent_payload _ _ _

/-- The alert of a probe is not stored. -/
theorem stored_probe (hloads : env.parser.loads text = .ok probe.payload) (n : ℕ) :
    Feed.stored env (text, n) = none := by
  rw [Feed.stored, alertOf_probe hloads, Option.filter_some,
    decide_eq_false (not_insertable_alert probe (env.now n)), Bool.and_false]
  rfl

variable {probes : List (ProbeMessage × String)}
  (hloads : ∀ p ∈ probes, env.parser.loads p.2 = .ok p.1.payload)

include hloads

theorem filterMap_alertOf_probes :
    (probes.map Prod.snd).zipIdx.filterMap (Feed.alertOf env)
      = probes.zipIdx.map fun p => p.1.1.alert (env.now p.2) := by
  rw [List.zipIdx_map, List.filterMap_map, ← List.filterMap_eq_map]
  refine List.filterMap_congr fun p hp => ?_
  exact alertOf_probe (hloads p.1 (List.fst_mem_of_mem_zipIdx hp)) p.2

theorem filterMap_stored_probes :
    (probes.map Prod.snd).zipIdx.filterMap (Feed.stored env) = [] := by
  rw [List.zipIdx_map, List.filterMap_map, List.filterMap_eq_nil_iff]
  exact fun p hp => stored_probe (hloads p.1 (List.fst_mem_of_mem_zipIdx hp)) p.2

/-- The table stays as it is. -/
theorem anomalyAlertsPg_probes {s : Feed} (hfresh : s.Fresh) :
    (Feed.consume env (probes.map Prod.snd) s).2.anomalyAlertsPg = s.anomalyAlertsPg := by
  obtain ⟨ids, -, -, -, -, hrows⟩ :=
    (Feed.gains_forEach env (probes.map Prod.snd).zipIdx hfresh).2.rows
  rw [filterMap_stored_probes hloads, List.zipWith_nil_left, List.append_nil] at hrows
  exact hrows

end Consumer

/-! ### What the scenario finds -/

/-- The endpoint, asked for five alerts, each time when the consumer has handled some of the
texts: it answers with a number of alerts, or the attempt raises. -/
def AnswersDuring (env : Feed.Surroundings) (order : OrderBy RecentGe) (texts : List String)
    (s : Feed) (answers : ℕ → Option ℤ) : Prop :=
  ∀ attempt count, answers attempt = some count → ∃ n table alerts,
    table.map StoredAlert.toAlertRow = (Feed.consume env (texts.take n) s).2.anomalyAlertsPg ∧
      getRecentAlerts id order (some table) ⟨5, by decide⟩ none none = .ok alerts ∧
      count = (alerts.length : ℤ)

/-- Nothing is found on an empty table. -/
theorem checkFastapiAlerts_of_empty {env : Feed.Surroundings} {order : OrderBy RecentGe}
    {probes : List (ProbeMessage × String)}
    (hloads : ∀ p ∈ probes, env.parser.loads p.2 = .ok p.1.payload) {s : Feed}
    (hempty : s.anomalyAlertsPg = []) {answers : ℕ → Option ℤ}
    (hanswers : AnswersDuring env order (probes.map Prod.snd) s answers) :
    checkFastapiAlerts answers = false := by
  have hfresh : s.Fresh := by
    intro row hrow
    rw [hempty] at hrow
    exact absurd hrow List.not_mem_nil
  rw [checkFastapiAlerts, List.any_eq_false]
  intro attempt _
  rcases hanswer : answers attempt with _ | count
  · exact Bool.false_ne_true
  · obtain ⟨n, table, alerts, htable, halerts, rfl⟩ := hanswers attempt count hanswer
    have hsome : ∀ p ∈ probes.take n, env.parser.loads p.2 = .ok p.1.payload :=
      fun p hp => hloads p (List.mem_of_mem_take hp)
    rw [← List.map_take, anomalyAlertsPg_probes hsome hfresh, hempty] at htable
    obtain rfl := List.map_eq_nil_iff.mp htable
    have hsorted : order.sort (whereClause (wantedColumns id none none) []) = [] := by
      refine List.eq_nil_iff_forall_not_mem.mpr fun alert halert => ?_
      exact List.not_mem_nil (order.mem_sort.mp halert)
    rw [getRecentAlerts] at halerts
    simp only [fetch_recentQuery, hsorted, List.take_nil, List.map_nil] at halerts
    rw [← Except.ok.inj halerts]
    exact Bool.false_ne_true

/-- **The probe is seen, and not kept**: the consumer broadcasts an alert for each of the
probes, in their order, and stores none of them; so on a table that was empty before, the check
of the endpoint fails however often and whenever it is asked, the scenario does not pass, and
where nothing has come over the WebSocket the fallback does not help it. -/
theorem probes_leave_no_row (env : Feed.Surroundings) (order : OrderBy RecentGe)
    {probes : List (ProbeMessage × String)}
    (hloads : ∀ p ∈ probes, env.parser.loads p.2 = .ok p.1.payload) {s : Feed}
    (hfresh : s.Fresh) :
    (Feed.consume env (probes.map Prod.snd) s).2.broadcasts
        = s.broadcasts ++ (probes.zipIdx.map fun p => p.1.1.alert (env.now p.2)) ∧
      (Feed.consume env (probes.map Prod.snd) s).2.anomalyAlertsPg = s.anomalyAlertsPg ∧
      (s.anomalyAlertsPg = [] → ∀ (found : Findings) (tWs : Option Instant),
        AnswersDuring env order (probes.map Prod.snd) s found.rest →
        (run found tWs).checks.fastapiRestReturnsAlerts = false ∧ (run found tWs).passed = false ∧
        (AnswersDuring env order (probes.map Prod.snd) s found.fallback →
          (run found none).checks.websocketDeliveredMessage = false)) := by
  refine ⟨?_, anomalyAlertsPg_probes hloads hfresh, fun hempty found tWs hrest => ?_⟩
  · rw [(Feed.consume_spec env (probes.map Prod.snd) s).2, filterMap_alertOf_probes hloads]
  · have hcheck := checkFastapiAlerts_of_empty hloads hempty hrest
    refine ⟨hcheck, ?_, fun hfallback => checkFastapiAlerts_of_empty hloads hempty hfallback⟩
    show Checks.all _ = false
    rw [Checks.all]
    exact (congrArg _ hcheck).trans (Bool.and_false _)

/-! ### Two probes -/

/-- The probe of the line, on the topic. -/
def sampleMessage : ProbeMessage := ⟨"2025-01-01T00:00:00Z", by decide, sampleProbe⟩

theorem hex_later : ∀ c ∈ "4e5f6a7b".toList, isHexDigit c = true := by
  have hall : "4e5f6a7b".toList.all isHexDigit = true := by decide
  exact List.all_eq_true.mp hall

/-- Another identifier. -/
def laterProbe : ProbeId := ⟨"4e5f6a7b".toList, rfl, hex_later⟩

/-- Its probe, a minute later. -/
def laterMessage : ProbeMessage := ⟨"2025-01-01T00:01:00Z", by decide, laterProbe⟩

/-- The two with their texts. -/
def twoMessages : List (ProbeMessage × String) :=
  [(sampleMessage, objectText sampleMessage.fields), (laterMessage, objectText laterMessage.fields)]

/-- A gateway that can read them. -/
def probedGateway : Feed.Surroundings :=
  { sampleGateway with parser := .ofObjects [sampleMessage.fields, laterMessage.fields] }

set_option maxRecDepth 4000 in
theorem loads_twoMessages (p : ProbeMessage × String) (hp : p ∈ twoMessages) :
    probedGateway.parser.loads p.2 = .ok p.1.payload := by
  simp only [twoMessages, List.mem_cons, List.not_mem_nil, or_false] at hp
  rcases hp with rfl | rfl
  · rfl
  · rfl

/-- The endpoint answers with no alert, and the scenario fails. -/
theorem probes_leave_no_row_twoMessages :
    (Feed.consume probedGateway (twoMessages.map Prod.snd) ⟨0, [], []⟩).2.broadcasts
        = [sampleMessage.alert (probedGateway.now 0), laterMessage.alert (probedGateway.now 1)] ∧
      (Feed.consume probedGateway (twoMessages.map Prod.snd) ⟨0, [], []⟩).2.anomalyAlertsPg = [] ∧
      (run { silence with rest := fun _ => some 0 } none).passed = false := by
  have hfresh : Feed.Fresh ⟨0, [], []⟩ := fun row hrow => absurd hrow List.not_mem_nil
  obtain ⟨hsent, hkept, hrest⟩ :=
    probes_leave_no_row probedGateway byRecent loads_twoMessages hfresh
  refine ⟨hsent, hkept, (hrest rfl _ none fun attempt count hcount => ?_).2.1⟩
  obtain rfl : 0 = count := Option.some.inj hcount
  exact ⟨0, [], [], rfl, rfl, rfl⟩

end LatencyProbe

end AiopsLog
