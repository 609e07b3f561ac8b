import AiopsLog.Gateway.LiveAlerts
import AiopsLog.Lib.Rounding

/-!
# The latency probe

The probe publishes an alert, connects to `/ws/v1/live-alerts` and takes the first text
that arrives for the delivery of an alert. It runs beside the gateway, whose handlers and
broadcasts go on as they do for any client; the only thing the two share is the socket,
which delivers the texts in the order in which their sends have begun.

This order is the account of the client (`AiopsLog.Gateway.Sound.account`), and it begins
with the welcome. So the first text is never an alert: the probe counts the welcome
whenever it counts anything, and its verdict is right only where nothing arrives at all
(`AiopsLog.LatencyProbe.countsOnlyAlerts_iff`).
-/

namespace AiopsLog

namespace LatencyProbe

/-! ### The report -/

/-- A reading of `time.time()`. It is positive, so that a `found_time` that is not `None`
is true. -/
abbrev Instant := {t : ℚ // 0 < t}

/-- A metric: a latency, or `"timeout"`. -/
inductive Measured where
  | ms : ℚ → Measured
  | timeout : Measured

/-- The `checks` of `run`. -/
structure Checks where
  probeInjectedToLog : Bool
  probeFoundInKafka : Bool
  kafkaProbePublishedToAlerts : Bool
  websocketDeliveredMessage : Bool
  websocketLatencyWithinTarget : Bool
  fastapiRestReturnsAlerts : Bool

/-- `all(checks.values())`. -/
def Checks.all (checks : Checks) : Bool :=
  checks.probeInjectedToLog && checks.probeFoundInKafka && checks.kafkaProbePublishedToAlerts &&
    checks.websocketDeliveredMessage && checks.websocketLatencyWithinTarget &&
    checks.fastapiRestReturnsAlerts

/-- The `metrics` of `run`. -/
structure Metrics where
  probeId : String
  fluentdToKafkaMs : Measured
  kafkaToWebsocketMs : Measured
  totalE2eMs : Option ℚ

structure Report where
  passed : Bool
  checks : Checks
  metrics : Metrics

/-- What the scenario finds elsewhere than on the WebSocket: its injections, the scan of
Kafka, and what the REST endpoint answers to each attempt of the fallback and of step 5,
`none` where the attempt raises. -/
structure Findings where
  probeId : String
  tInject : Instant
  tKafka : Option Instant
  tKaInject : Instant
  fallback : ℕ → Option ℤ
  rest : ℕ → Option ℤ

/-- `TARGET_LATENCY_MS`. -/
def targetLatencyMs : ℚ := 5000

/-- `round((after - before) * 1000, 1)`. -/
def latencyMs (before after : Instant) : ℚ :=
  Rounding.toDigits Rounding.halfEven 1 ((after - before) * 1000)

/-- `_check_fastapi_alerts`. -/
def checkFastapiAlerts (answers : ℕ → Option ℤ) : Bool :=
  (List.range 3).any fun attempt => match answers attempt with
    | some count => 0 < count
    | none => false

/-- Step 4 of `run`: whether a message was delivered, whether in time, and the metric. -/
def websocketDelivery (found : Findings) : Option Instant → Bool × Bool × Measured
  | some tWs =>
    let wsLatencyMs := latencyMs found.tKaInject tWs
    (true, wsLatencyMs < targetLatencyMs, .ms wsLatencyMs)
  | none =>
    let restOk := checkFastapiAlerts found.fallback
    (restOk, restOk, .timeout)

/-- `run`, of what `_wait_for_websocket_message` returns. -/
def run (found : Findings) (tWs : Option Instant) : Report :=
  let (delivered, inTime, kafkaToWebsocketMs) := websocketDelivery found tWs
  let fluentdToKafkaMs := match found.tKafka with
    | some tKafka => .ms (latencyMs found.tInject tKafka)
    | none => .timeout
  let checks : Checks := {
    probeInjectedToLog := true
    probeFoundInKafka := found.tKafka.isSome
    kafkaProbePublishedToAlerts := true
    websocketDeliveredMessage := delivered
    websocketLatencyWithinTarget := inTime
    fastapiRestReturnsAlerts := checkFastapiAlerts found.rest }
  let totalE2eMs := match fluentdToKafkaMs, kafkaToWebsocketMs with
    | .ms x, .ms y => some (Rounding.toDigits Rounding.halfEven 1 (x + y))
    | _, _ => none
  { passed := checks.all
    checks := checks
    metrics := ⟨found.probeId, fluentdToKafkaMs, kafkaToWebsocketMs, totalE2eMs⟩ }

/-! ### The probe beside the gateway -/

/-- Where `run` stands with respect to `_wait_for_websocket_message`. -/
inductive Probe where
  /-- In steps 1 to 3. -/
  | publishing : Probe
  /-- In `websockets.connect`. -/
  | connecting : Probe
  /-- In `asyncio.wait_for(ws.recv(), timeout)`. -/
  | waiting : Probe
  /-- Past it, with the `found_time` and the `msg` if there is one. Closing the connection
  changes nothing of these, an exception in it included. -/
  | returned : Option (Instant × Message) → Probe

/-- The gateway and the probe. -/
structure Probing where
  gateway : Gateway
  probe : Probe

/-- The gateway takes a step of its own; the probe connects, and then its connection
opens, a text arrives, the timeout passes, or an exception is raised. -/
inductive Action where
  | gateway : Gateway.Action → Action
  | connect : Action
  | opened : Action
  | text : Instant → Action
  | timeout : Action
  | failed : Action

/-- The action is the arrival of this client. -/
def IsArrival (ws : WebSocket) : Gateway.Action → Prop
  | .arrive ws' => ws' = ws
  | _ => False

instance (ws : WebSocket) : DecidablePred (IsArrival ws)
  | .arrive ws' => inferInstanceAs (Decidable (ws' = ws))
  | .handler _ _ | .broadcast _ | .consumer _ => inferInstanceAs (Decidable False)

/-- Before any client, and before the probe has connected. -/
def start : Probing := ⟨.start, .publishing⟩

/-- The step of the two, the probe being the client `ws`. What `recv` returns is the first
text whose send has begun on it. -/
def step (ws : WebSocket) (s : Probing) : Action → Option Probing
  | .gateway a =>
    if IsArrival ws a then none
    else do
      let g ← s.gateway.step a
      pure { s with gateway := g }
  | .connect => match s.probe with
    | .publishing => do
      let g ← s.gateway.step (.arrive ws)
      pure ⟨g, .connecting⟩
    | _ => none
  | .opened => match s.probe with
    | .connecting => some { s with probe := .waiting }
    | _ => none
  | .text now => match s.probe, (begunOn ws s.gateway.manager.log).head? with
    | .waiting, some message => some { s with probe := .returned (some (now, message)) }
    | _, _ => none
  | .timeout => match s.probe with
    | .waiting => some { s with probe := .returned none }
    | _ => none
  | .failed => match s.probe with
    | .connecting | .waiting => some { s with probe := .returned none }
    | _ => none

/-! ### What the probe counts -/

/-- `run` reports `websocket_delivered_message` on the WebSocket path, of this text. -/
def Probing.Reports (found : Findings) (s : Probing) (message : Message) : Prop :=
  ∃ tWs, s.probe = .returned (some (tWs, message)) ∧
    (run found (some tWs)).checks.websocketDeliveredMessage = true

/-- **The probe counts alerts only**: the text it reports is the payload of a broadcast
made while it was registered, and it reports none without such a broadcast. -/
structure CountsOnlyAlerts (ws : WebSocket) (found : Findings) (s : Probing) : Prop where
  payload : ∀ message, s.Reports found message →
    ∃ payload, message = .payload payload ∧ .snapshot payload ∈ stay ws s.gateway.manager.log
  broadcast : (∀ payload, .snapshot payload ∉ stay ws s.gateway.manager.log) →
    ∀ message, ¬s.Reports found message

/-- A text has been received. -/
def Probing.Received (s : Probing) : Prop :=
  ∃ tWs message, s.probe = .returned (some (tWs, message))

/-- The accounts of the gateway are settled, and the text received is the welcome. -/
structure Probing.Sound (s : Probing) : Prop where
  gateway : s.gateway.Sound
  message : ∀ tWs message, s.probe = .returned (some (tWs, message)) → message = .handshake

section Step

variable {ws : WebSocket} {found : Findings} {s s' : Probing} {action : Action}

/-- **What begins on a client begins with the welcome.** -/
theorem eq_handshake_of_head? {g : Gateway} {message : Message} (h : g.Sound)
    (hhead : (begunOn ws g.manager.log).head? = some message) : message = .handshake := by
  have haccount := h.account ws
  obtain ⟨rest, hbegun⟩ := List.head?_eq_some_iff.mp hhead
  rw [hbegun, List.cons_append, owed] at haccount
  split at haccount
  · exact (List.cons.inj haccount).1
  · exact absurd haccount (List.cons_ne_nil _ _)

/-- **What a step does to the probe**: it receives the welcome by a text, and by no other
step does it receive anything. -/
inductive ProbeStep (s : Probing) : Action → Probing → Prop where
  | text {now : Instant} (h : s.probe = .waiting) :
      ProbeStep s (.text now) { s with probe := .returned (some (now, .handshake)) }
  | gateway {a : Gateway.Action} {g : Gateway} (h : g.Sound) :
      ProbeStep s (.gateway a) { s with gateway := g }
  | other {action : Action} {g : Gateway} {p : Probe} (h : g.Sound)
      (hbefore : ∀ found, s.probe ≠ .returned found) (hp : ∀ found, p ≠ .returned (some found))
      (haction : ∀ now, action ≠ .text now) : ProbeStep s action ⟨g, p⟩

/-- A step of the probe alone, before it has returned, that receives no text. -/
theorem ProbeStep.of_probe {p q : Probe} (h : s.Sound) (hprobe : s.probe = p)
    (hstep : some { s with probe := q } = some s') (hp : ∀ found, p ≠ .returned found)
    (hq : ∀ found, q ≠ .returned (some found)) (haction : ∀ now, action ≠ .text now) :
    ProbeStep s action s' := by
  obtain rfl := Option.some.inj hstep
  obtain rfl := hprobe
  exact .other h.gateway hp hq haction

/-- **Every step is one of these.** -/
theorem probeStep_of_step (h : s.Sound) (hstep : step ws s action = some s') :
    ProbeStep s action s' := by
  cases action with
  | gateway a =>
    simp only [step] at hstep
    split at hstep
    · nomatch hstep
    · obtain ⟨g, hg, hs'⟩ := Option.bind_eq_some_iff.mp hstep
      obtain rfl := Option.some.inj hs'
      exact .gateway (sound_step h.gateway hg)
  | connect =>
    simp only [step] at hstep
    split at hstep
    · next hprobe =>
      obtain ⟨g, hg, hs'⟩ := Option.bind_eq_some_iff.mp hstep
      obtain rfl := Option.some.inj hs'
      refine .other (sound_step h.gateway hg) ?_ nofun nofun
      rw [hprobe]
      exact nofun
    · nomatch hstep
  | opened =>
    simp only [step] at hstep
    split at hstep
    · next hprobe => exact .of_probe h hprobe hstep nofun nofun nofun
    · nomatch hstep
  | text now =>
    simp only [step] at hstep
    split at hstep
    · next message hprobe hhead =>
      obtain rfl := Option.some.inj hstep
      rw [eq_handshake_of_head? h.gateway hhead]
      exact .text hprobe
    · nomatch hstep
  | timeout =>
    simp only [step] at hstep
    split at hstep
    · next hprobe => exact .of_probe h hprobe hstep nofun nofun nofun
    · nomatch hstep
  | failed =>
    simp only [step] at hstep
    split at hstep
    · next hprobe => exact .of_probe h hprobe hstep nofun nofun nofun
    · next hprobe => exact .of_probe h hprobe hstep nofun nofun nofun
    · nomatch hstep

/-- Every step keeps the accounts settled, and the text the welcome. -/
theorem soundProbing_step (h : s.Sound) (hstep : step ws s action = some s') : s'.Sound := by
  cases probeStep_of_step h hstep with
  | text =>
    refine ⟨h.gateway, ?_⟩
    rintro tWs message hmessage
    cases hmessage
    rfl
  | gateway hg => exact ⟨hg, h.message⟩
  | other hg hbefore hp => exact ⟨hg, fun tWs message hmessage => absurd hmessage (hp _)⟩

/-- A text is received by the step that delivers it, once and for all. -/
theorem received_step (h : s.Sound) (hstep : step ws s action = some s') :
    s'.Received ↔ s.Received ∨ ∃ now, action = .text now := by
  cases probeStep_of_step h hstep with
  | text =>
    exact ⟨fun _ => .inr ⟨_, rfl⟩, fun _ => ⟨_, _, rfl⟩⟩
  | gateway =>
    constructor
    · rintro ⟨tWs, message, hreturned⟩
      exact .inl ⟨tWs, message, hreturned⟩
    · rintro (hreceived | ⟨now, htext⟩)
      · exact hreceived
      · nomatch htext
  | other _ hbefore hp haction =>
    constructor
    · rintro ⟨tWs, message, hreturned⟩
      exact absurd hreturned (hp _)
    · rintro (⟨tWs, message, hreturned⟩ | ⟨now, htext⟩)
      · exact absurd hreturned (hbefore _)
      · exact absurd htext (haction now)

end Step

/-! ### Every run -/

section Run

variable {ws : WebSocket} {found : Findings} {actions : List Action} {s s' : Probing}

theorem soundProbing_start : start.Sound where
  gateway := sound_start
  message _ _ h := nomatch h

theorem soundProbing_run (hrun : Lts.run (step ws) actions start = some s) : s.Sound :=
  Lts.run_invariant (fun _ _ _ h _ hstep => soundProbing_step h hstep) soundProbing_start
    (fun _ _ => trivial) hrun

theorem received_run (h : s.Sound) (hrun : Lts.run (step ws) actions s = some s') :
    s'.Received ↔ s.Received ∨ ∃ now, .text now ∈ actions := by
  induction actions generalizing s with
  | nil =>
    obtain rfl := Option.some.inj hrun
    simp
  | cons action actions ih =>
    obtain ⟨t, hstep, hrest⟩ := Lts.exists_of_run_cons hrun
    rw [ih (soundProbing_step h hstep) hrest, received_step h hstep, or_assoc]
    simp only [List.mem_cons, exists_or, eq_comm]

/-- **The probe never counts an alert**: in every run, whatever the interleaving, the
text it has received is the welcome that the gateway sends to every client; so it counts
only alerts just in the runs in which no text reaches it. -/
theorem countsOnlyAlerts_iff (hrun : Lts.run (step ws) actions start = some s) :
    (CountsOnlyAlerts ws found s ↔ ∀ now, .text now ∉ actions) ∧
      ∀ message, s.Reports found message → message = .handshake := by
  have hsound := soundProbing_run hrun
  have hreceived := received_run soundProbing_start hrun
  have hstart : ¬start.Received := by
    rintro ⟨tWs, message, h⟩
    nomatch h
  rw [or_iff_right hstart] at hreceived
  refine ⟨⟨fun h now hnow => ?_, fun hnone => ?_⟩, ?_⟩
  · -- the text that has arrived is reported, and is no payload
    obtain ⟨tWs, message, hreturned⟩ := hreceived.mpr ⟨now, hnow⟩
    obtain ⟨payload, hpayload, -⟩ := h.payload message ⟨tWs, hreturned, rfl⟩
    rw [hsound.message tWs message hreturned] at hpayload
    nomatch hpayload
  · have hreports : ∀ message, ¬s.Reports found message := by
      rintro message ⟨tWs, hreturned, -⟩
      obtain ⟨now, hnow⟩ := hreceived.mp ⟨tWs, message, hreturned⟩
      exact hnone now hnow
    exact ⟨fun message h => absurd h (hreports message), fun _ => hreports⟩
  · rintro message ⟨tWs, hreturned, -⟩
    exact hsound.message tWs message hreturned

/-- The probe connects and is registered and welcomed, and its connection opens. -/
def welcomed : List Action := [.connect, .gateway (.handler 7 .ok), .opened]

/-- Kafka is silent, and so is the endpoint. -/
def silence : Findings :=
  ⟨"0", ⟨1, one_pos⟩, none, ⟨1, one_pos⟩, fun _ => none, fun _ => none⟩

/-- A probe that waits in vain counts nothing, and one that gets the welcome does not count
only alerts. -/
theorem countsOnlyAlerts_iff_welcomed :
    (∃ s, Lts.run (step 7) (welcomed ++ [.timeout]) start = some s ∧
      CountsOnlyAlerts 7 silence s) ∧
    ∃ s, Lts.run (step 7) (welcomed ++ [.text ⟨1, one_pos⟩]) start = some s ∧
      ¬CountsOnlyAlerts 7 silence s :=
  ⟨⟨_, rfl, (@countsOnlyAlerts_iff 7 silence (welcomed ++ [.timeout]) _ rfl).1.mpr
      (by simp [welcomed])⟩,
    ⟨_, rfl, fun h => (@countsOnlyAlerts_iff 7 silence (welcomed ++ [.text ⟨1, one_pos⟩]) _
      rfl).1.mp h ⟨1, one_pos⟩ (by simp [welcomed])⟩⟩

/-- **The welcome is counted**: the probe reports a delivery on the WebSocket path in a
run without any broadcast. -/
theorem not_countsOnlyAlerts_welcomed :
    ¬∀ (actions : List Action) (s : Probing),
      Lts.run (step 7) actions start = some s → CountsOnlyAlerts 7 silence s := by
  intro h
  obtain ⟨payload, hpayload, -⟩ := (h (welcomed ++ [.text ⟨1, one_pos⟩]) _ rfl).payload
    .handshake ⟨⟨1, one_pos⟩, rfl, rfl⟩
  nomatch hpayload

end Run

end LatencyProbe

end AiopsLog
