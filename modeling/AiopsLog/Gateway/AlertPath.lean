import AiopsLog.Gateway.DemoStream
import AiopsLog.Gateway.Messages
import AiopsLog.Lib.Cursor
import AiopsLog.Lifetime

/-!
# From the job to the page

The streaming job publishes the alerts of the anomalies it finds, `kafka_consumer_loop` reads the
topic `critical-alerts`, which has one partition, and broadcasts what it reads, and a page of
`/demo` shows what it gets. All of it runs at once: the job is called on one batch after another,
and any of its calls may raise; the consumer commits the offsets it has come to now and then, and
is restarted from the offset last committed where its loop crashes; clients come and go, and the
page loses its socket and makes another.

What comes in at the page is nevertheless made of anomalies of the job: every alert it counts has
the columns of a row that the models of the job put in their anomaly cluster
(`AiopsLog.AlertPath.page_shows_anomalies`). None is counted more often than the consumer has
been restarted and once more, and without a restart they are counted in the order in which they
were published. On one socket none is passed over either: the alerts that come in over it are
consecutive on the topic (`AiopsLog.AlertPath.socket_passes_over_none`).

The topic is here what has been published: it is read before its retention deletes anything of
it.
-/

namespace AiopsLog

open DemoStream

namespace AlertPath

variable {Nlp Km Features : Type}

/-! ### The topic -/

section Topic

variable (ml : SparkML Nlp Km Features)

/-- The job after some calls, from its start on empty tables. -/
def jobAfter (calls : List ProcessCall) : Job Nlp Km :=
  runCalls ml calls ⟨BatchProcessor.init, Sinks.initial⟩

/-- What is on the topic then. -/
def topic (calls : List ProcessCall) : List Json := (jobAfter ml calls).sinks.criticalAlerts

variable {ml} {calls : List ProcessCall} {call : ProcessCall}

theorem jobAfter_append_singleton :
    jobAfter ml (calls ++ [call]) = call.run ml (jobAfter ml calls) := by
  rw [jobAfter, runCalls, List.foldl_append]
  rfl

/-- An assertion about the topic is kept by the writes if it is by the publication. -/
theorem keptByWrites_topic {env : Env} {processed : List ProcessedRow} {P : List Json → Prop}
    (h : ∀ topic alerts, (∀ a ∈ alerts, a ∈ (anomaliesOf processed).map
      (alertJson env.castString)) → P topic → P (topic ++ alerts)) :
    KeptByWrites env processed fun s => P s.criticalAlerts where
  uuids _ _ hs := hs
  logs _ _ hs := hs
  alerts s alerts halerts hs := h s.criticalAlerts alerts halerts hs
  metrics _ _ hs := hs
  alertRows _ _ _ _ _ hs := hs
  health _ _ hs := hs
  models _ _ hs := hs

/-- **The topic only grows.** -/
theorem topic_prefix_append_singleton : topic ml calls <+: topic ml (calls ++ [call]) := by
  rw [topic, topic, jobAfter_append_singleton]
  refine sinks_process (I := fun s => (jobAfter ml calls).sinks.criticalAlerts
    <+: s.criticalAlerts) call.noKill (fun _ _ _ _ => keptByWrites_topic ?_) List.prefix_rfl
  exact fun _ _ _ hs => hs.trans (List.prefix_append _ _)

variable (ml) in
/-- The first call, if all of it goes through, publishes the alerts of the anomalies. -/
theorem topic_singleton (hok : call.env.AllOk) :
    topic ml [call] = (anomaliesOf (labels ml .init call.batch)).map
      (alertJson call.env.castString) := by
  have hjob : jobAfter ml [call]
      = (process ml call.env call.batch call.batchId ⟨.init, Sinks.initial⟩).2 := rfl
  rw [topic, hjob, process_ok hok hasModels_init, afterWrites_order]
  rfl

/-- An anomaly that the models of the job have found in its batches. -/
def Found (ml : SparkML Nlp Km Features) (calls : List ProcessCall) (anomaly : ProcessedRow) :
    Prop :=
  ∃ nlp km c, (jobAfter ml calls).self = ⟨some nlp, some km, c, true⟩ ∧
    AnomalyOf ml nlp km c (calls.map (·.batch)) anomaly

/-- Once there are models, all that is on the topic was found by them. -/
theorem exists_anomalyOf_of_mem_topic {spark : Rendering}
    (hcast : ∀ call ∈ calls, call.env.castString = spark.text) {nlp : Nlp} {km : Km} {c : ℕ}
    (hself : (jobAfter ml calls).self = ⟨some nlp, some km, c, true⟩) :
    ∀ json ∈ topic ml calls, ∃ anomaly,
      AnomalyOf ml nlp km c (calls.map (·.batch)) anomaly ∧
        json = alertJson spark.text anomaly := by
  induction calls using List.reverseRecOn with
  | nil => exact fun _ h => absurd h List.not_mem_nil
  | append_singleton calls call ih =>
    have hlast : call.batch ∈ (calls ++ [call]).map (·.batch) :=
      List.mem_map_of_mem (List.mem_append_right _ List.mem_cons_self)
    have hsub : calls.map (·.batch) ⊆ (calls ++ [call]).map (·.batch) := by
      rw [List.map_append]
      exact List.subset_append_left _ _
    have hbefore : ∀ json ∈ topic ml calls, ∃ anomaly,
        AnomalyOf ml nlp km c ((calls ++ [call]).map (·.batch)) anomaly ∧
          json = alertJson spark.text anomaly := by
      cases lifetime_runCalls ml Sinks.initial calls with
      | untrained _ hjob =>
        -- nothing has been published before the training
        intro json hjson
        rw [topic, jobAfter, hjob] at hjson
        exact absurd hjson List.not_mem_nil
      | trained _ _ _ _ _ _ _ _ _ _ hmodels =>
        have htrained : (jobAfter ml calls).self.trained = true := by rw [jobAfter, hmodels]
        rw [jobAfter_append_singleton, self_run (Or.inr htrained)] at hself
        intro json hjson
        obtain ⟨anomaly, hanomaly, heq⟩ :=
          ih (fun b hb => hcast b (List.mem_append_left _ hb)) hself json hjson
        exact ⟨anomaly, Lifetime.AnomalyOf.mono hsub hanomaly, heq⟩
    rw [jobAfter_append_singleton] at hself
    rw [topic, jobAfter_append_singleton]
    refine sinks_process (I := fun s => ∀ json ∈ s.criticalAlerts, ∃ anomaly,
      AnomalyOf ml nlp km c ((calls ++ [call]).map (·.batch)) anomaly ∧
        json = alertJson spark.text anomaly) call.noKill (fun nlp' km' c' hself' => ?_) hbefore
    -- the models that write are those that are there afterwards
    obtain ⟨hnlp, hkm, hc, -⟩ := BatchProcessor.mk.inj (hself.symm.trans hself')
    obtain rfl := Option.some_injective _ hnlp
    obtain rfl := Option.some_injective _ hkm
    subst hc
    refine keptByWrites_topic (P := fun topic => ∀ json ∈ topic, ∃ anomaly,
      AnomalyOf ml nlp km c ((calls ++ [call]).map (·.batch)) anomaly ∧
        json = alertJson spark.text anomaly) fun topic alerts halerts hs json hjson => ?_
    rcases List.mem_append.mp hjson with hjson | hjson
    · exact hs json hjson
    · obtain ⟨anomaly, hanomaly, rfl⟩ := List.mem_map.mp (halerts json hjson)
      exact ⟨anomaly, Lifetime.anomalyOf_of_mem hlast hanomaly,
        by rw [hcast call (List.mem_append_right _ List.mem_cons_self)]⟩

/-- **Everything on the topic is the alert of an anomaly the job has found.** -/
theorem exists_found_of_mem_topic {spark : Rendering}
    (hcast : ∀ call ∈ calls, call.env.castString = spark.text) {json : Json}
    (hjson : json ∈ topic ml calls) :
    ∃ anomaly, Found ml calls anomaly ∧ json = alertJson spark.text anomaly := by
  cases lifetime_runCalls ml Sinks.initial calls with
  | untrained _ hjob =>
    rw [topic, jobAfter, hjob] at hjson
    exact absurd hjson List.not_mem_nil
  | trained _ _ _ nlp km c _ _ _ _ hself =>
    obtain ⟨anomaly, hanomaly, heq⟩ := exists_anomalyOf_of_mem_topic hcast hself json hjson
    exact ⟨anomaly, ⟨nlp, km, c, hself, hanomaly⟩, heq⟩

end Topic

/-! ### The system -/

/-- What turns alerts into texts and back: `to_json` of Spark, `json.loads`, pydantic,
`model_dump_json`, and `JSON.parse` and `toUpperCase` of the page. -/
structure Texts where
  toJson : Json → String
  parser : JsonParser
  pydantic : Pydantic
  modelDumpJson : AlertEvent → String
  parse : String → AlertEvent
  upper : String → String

/-- An alert with the offset of its message. -/
abbrev Taken := ℕ × AlertEvent

/-- The calls of the job so far; the consumer on the topic, the alert it has in hand and those it
has broadcast; and the gateway with the page. -/
structure System where
  calls : List ProcessCall
  cursor : Cursor
  inHand : Option Taken
  sent : List Taken
  stream : Stream

inductive Action where
  /-- The job is called on a batch. -/
  | process : ProcessCall → Action
  /-- The consumer gets its next message, at a time, and makes an alert of it. -/
  | receive : String → Action
  /-- The insert of the alert in hand is over, whatever came of it. -/
  | broadcast : Action
  /-- The consumer commits an offset. -/
  | commit : ℕ → Action
  /-- The loop crashes, and makes another consumer. -/
  | restart : Action
  /-- Anything else happens at the gateway or the page. -/
  | stream : DemoStream.Action → Action

/-- No call of the job yet, and the page makes its first socket. -/
def start (ws : WebSocket) : System := ⟨[], .start, none, [], DemoStream.start ws⟩

section Step

variable (ml : SparkML Nlp Km Features) (env : Texts)

/-- The consumer waits for a message. -/
def System.Waits (s : System) : Bool :=
  match s.stream.gateway.consumer, s.inHand with
  | .idle, none => true
  | _, _ => false

/-- The step of the system. The consumer handles its messages one by one, so it gets none while
it has one in hand or broadcasts, and its loop crashes only in between. -/
def step (s : System) : Action → Option System
  | .process call => some { s with calls := s.calls ++ [call] }
  | .receive receivedAt =>
    if s.Waits then do
      let json ← (topic ml s.calls)[s.cursor.position]?
      let alert := alertOfText env.parser env.pydantic receivedAt (env.toJson json)
      pure { s with
        cursor := s.cursor.advance
        inHand := alert.map fun alert => (s.cursor.position, alert) }
    else none
  | .broadcast => do
    let taken ← s.inHand
    let gateway ← s.stream.gateway.step (.broadcast (env.modelDumpJson taken.2))
    pure { s with
      inHand := none
      sent := s.sent ++ [taken]
      stream := { s.stream with gateway := gateway } }
  | .commit offset =>
    if offset ≤ s.cursor.position then some { s with cursor := s.cursor.commit offset } else none
  | .restart => if s.Waits then some { s with cursor := s.cursor.restart } else none
  | .stream action =>
    -- the consumer alone broadcasts
    if action.payload? = none then do
      let stream ← DemoStream.step env.upper env.parse s.stream action
      pure { s with stream := stream }
    else none

end Step

/-! ### The invariant -/

variable (ml : SparkML Nlp Km Features) (env : Texts) (spark : Rendering)

/-- The job renders times as `spark` does, and what it has published is read back as it was. -/
structure System.Readable (s : System) : Prop where
  cast : ∀ call ∈ s.calls, call.env.castString = spark.text
  loads : ∀ json ∈ topic ml s.calls, env.parser.loads (env.toJson json) = .ok json

/-- An alert is the one of the message at its offset. -/
def Decoded (calls : List ProcessCall) (taken : Taken) : Prop :=
  ∃ json, (topic ml calls)[taken.1]? = some json ∧
    ∀ row, json = alertJson spark.text row → DecodedFrom spark row taken.2

/-- Cursor and stream are sound; what has been read has been broadcast, but for what is in hand;
and the alerts are those of their messages. -/
structure System.Sound (s : System) : Prop where
  stream : ∃ current, s.stream.Sound env.upper env.parse current
  cursor : s.cursor.Sound
  read : (s.sent ++ s.inHand.toList).map Prod.fst = s.cursor.read
  decoded : ∀ taken ∈ s.sent ++ s.inHand.toList, Decoded ml spark s.calls taken
  broadcasts : broadcasts s.stream.gateway.manager.log
    = s.sent.map fun taken => env.modelDumpJson taken.2

section Sound

variable {ml env spark} {s s' : System} {calls : List ProcessCall} {call : ProcessCall}
  {taken : Taken}

theorem sound_start (ws : WebSocket) : (start ws).Sound ml env spark where
  stream := ⟨ws, DemoStream.sound_start ws⟩
  cursor := Cursor.sound_start
  read := rfl
  decoded _ h := absurd h List.not_mem_nil
  broadcasts := rfl

theorem System.Readable.of_append (h : System.Readable ml env spark
    { s with calls := s.calls ++ [call] }) : s.Readable ml env spark where
  cast b hb := h.cast b (List.mem_append_left _ hb)
  loads json hjson := h.loads json (topic_prefix_append_singleton.subset hjson)

theorem Decoded.append (h : Decoded ml spark calls taken) :
    Decoded ml spark (calls ++ [call]) taken := by
  obtain ⟨json, hjson, hrow⟩ := h
  obtain ⟨more, hmore⟩ : topic ml calls <+: topic ml (calls ++ [call]) :=
    topic_prefix_append_singleton
  refine ⟨json, ?_, hrow⟩
  rw [← hmore, List.getElem?_append_left (List.getElem?_eq_some_iff.mp hjson).1]
  exact hjson

theorem System.inHand_of_waits (h : s.Waits = true) : s.inHand = none := by
  unfold System.Waits at h
  split at h
  · next hnone => exact hnone
  · nomatch h

/-- A message of the job becomes an alert. -/
theorem exists_alert (h : s.Readable ml env spark) {json : Json}
    (hjson : (topic ml s.calls)[s.cursor.position]? = some json) (receivedAt : String) :
    ∃ alert, alertOfText env.parser env.pydantic receivedAt (env.toJson json) = some alert ∧
      Decoded ml spark s.calls (s.cursor.position, alert) := by
  have hmem := List.mem_of_getElem? hjson
  have hloads := h.loads json hmem
  obtain ⟨anomaly, -, heq⟩ := exists_found_of_mem_topic h.cast hmem
  obtain ⟨alert, halert, -⟩ :=
    alertOfText_alertJson env.pydantic spark receivedAt (heq ▸ hloads)
  refine ⟨alert, heq ▸ halert, json, hjson, ?_⟩
  rintro row rfl
  obtain ⟨alert', halert', hdecoded⟩ := alertOfText_alertJson env.pydantic spark receivedAt hloads
  rw [heq] at halert'
  exact Option.some.inj (halert'.symm.trans halert) ▸ hdecoded

variable (h : s.Sound ml env spark)

include h

/-- **A message is received.** -/
theorem sound_receive (hreadable : s.Readable ml env spark) {receivedAt : String}
    (hstep : step ml env s (.receive receivedAt) = some s') : s'.Sound ml env spark := by
  rw [step] at hstep
  split at hstep
  · next hwaits =>
    obtain ⟨json, hjson, hs⟩ := Option.bind_eq_some_iff.mp hstep
    obtain ⟨alert, halert, hdecoded⟩ := exists_alert hreadable hjson receivedAt
    have hnone := System.inHand_of_waits hwaits
    have hread := h.read
    have hold := h.decoded
    rw [hnone, Option.toList_none, List.append_nil] at hread hold
    rw [halert] at hs
    obtain rfl := Option.some.inj hs
    refine ⟨h.stream, h.cursor.advance, ?_, fun taken htaken => ?_, h.broadcasts⟩
    · show (s.sent ++ [(s.cursor.position, alert)]).map Prod.fst = s.cursor.read ++ _
      rw [List.map_append, hread]
      rfl
    · rcases List.mem_append.mp htaken with htaken | htaken
      · exact hold taken htaken
      · obtain rfl := List.mem_singleton.mp htaken
        exact hdecoded
  · nomatch hstep

/-- **The alert in hand is broadcast.** -/
theorem sound_broadcast (hstep : step ml env s .broadcast = some s') : s'.Sound ml env spark := by
  obtain ⟨taken, hhand, hrest⟩ := Option.bind_eq_some_iff.mp hstep
  obtain ⟨gateway, hgateway, hs⟩ := Option.bind_eq_some_iff.mp hrest
  obtain rfl := Option.some.inj hs
  obtain ⟨current, hstream⟩ := h.stream
  have hread := h.read
  have hdecoded := h.decoded
  have hsent : s.sent ++ s.inHand.toList = (s.sent ++ [taken]) ++ (none : Option Taken).toList := by
    rw [hhand, Option.toList_none, List.append_nil]
    rfl
  rw [hsent] at hread hdecoded
  refine ⟨⟨current, sound_gateway hstream hgateway⟩, h.cursor, hread, hdecoded, ?_⟩
  show DemoStream.broadcasts gateway.manager.log = (s.sent ++ [taken]).map _
  rw [broadcasts_step hstream.gateway hgateway, h.broadcasts, List.map_append]
  rfl

/-- Anything else happens at the gateway or the page: nothing is broadcast. -/
theorem sound_stream {action : DemoStream.Action}
    (hstep : step ml env s (.stream action) = some s') : s'.Sound ml env spark := by
  rw [step] at hstep
  split at hstep
  · next hsilent =>
    obtain ⟨stream, hnext, hs⟩ := Option.bind_eq_some_iff.mp hstep
    obtain rfl := Option.some.inj hs
    obtain ⟨current, hstream⟩ := h.stream
    have hlog := broadcasts_stream hstream.gateway hnext
    rw [hsilent, Option.toList_none, List.append_nil] at hlog
    exact ⟨DemoStream.sound_step hstream hnext, h.cursor, h.read, h.decoded,
      hlog.trans h.broadcasts⟩
  · nomatch hstep

/-- The job is called on a batch. -/
theorem sound_process (call : ProcessCall) :
    System.Sound ml env spark { s with calls := s.calls ++ [call] } :=
  ⟨h.stream, h.cursor, h.read, fun taken htaken => (h.decoded taken htaken).append, h.broadcasts⟩

/-- **Every step keeps the system sound.** -/
theorem sound_step (hreadable : s.Readable ml env spark) {action : Action}
    (hstep : step ml env s action = some s') : s'.Sound ml env spark := by
  cases action with
  | process call => exact Option.some.inj hstep ▸ sound_process h call
  | receive receivedAt => exact sound_receive h hreadable hstep
  | broadcast => exact sound_broadcast h hstep
  | commit offset =>
    rw [step] at hstep
    split at hstep
    · next hoffset =>
      obtain rfl := Option.some.inj hstep
      exact ⟨h.stream, h.cursor.commit hoffset, h.read, h.decoded, h.broadcasts⟩
    · nomatch hstep
  | restart =>
    rw [step] at hstep
    split at hstep
    · obtain rfl := Option.some.inj hstep
      exact ⟨h.stream, h.cursor.restart, h.read, h.decoded, h.broadcasts⟩
    · nomatch hstep
  | stream action => exact sound_stream h hstep

omit h in
/-- What can be read after a step could be before. -/
theorem readable_of_step {action : Action} (hstep : step ml env s action = some s')
    (hreadable : s'.Readable ml env spark) : s.Readable ml env spark := by
  have hsame : s'.calls = s.calls → s.Readable ml env spark := by
    intro hcalls
    exact ⟨hcalls ▸ hreadable.cast, hcalls ▸ hreadable.loads⟩
  cases action with
  | process call =>
    obtain rfl := Option.some.inj hstep
    exact hreadable.of_append
  | broadcast =>
    obtain ⟨taken, -, hrest⟩ := Option.bind_eq_some_iff.mp hstep
    obtain ⟨gateway, -, hs⟩ := Option.bind_eq_some_iff.mp hrest
    exact hsame (Option.some.inj hs ▸ rfl)
  | receive | stream =>
    rw [step] at hstep
    split at hstep
    · obtain ⟨_, -, hs⟩ := Option.bind_eq_some_iff.mp hstep
      exact hsame (Option.some.inj hs ▸ rfl)
    · nomatch hstep
  | commit | restart =>
    rw [step] at hstep
    split at hstep
    · exact hsame (Option.some.inj hstep ▸ rfl)
    · nomatch hstep

end Sound

/-! ### Every run -/

section Run

variable {ml env spark} {ws : WebSocket} {actions : List Action} {s : System}

theorem sound_run (hrun : Lts.run (step ml env) actions (start ws) = some s)
    (hreadable : s.Readable ml env spark) : s.Sound ml env spark :=
  Lts.run_invariant (I := fun t => t.Readable ml env spark → t.Sound ml env spark)
    (P := fun _ => True)
    (fun _ _ _ ih _ hstep hafter =>
      have hbefore := readable_of_step hstep hafter
      sound_step (ih hbefore) hbefore hstep)
    (fun _ => sound_start ws) (fun _ _ => trivial) hrun hreadable

/-- The offsets of the alerts broadcast are the first of those read. -/
theorem System.Sound.map_sent_prefix (h : s.Sound ml env spark) :
    s.sent.map Prod.fst <+: s.cursor.read := by
  rw [← h.read, List.map_append]
  exact List.prefix_append _ _

/-- An alert that the page counts: the payload that has come in, and the anomaly of the message
at its offset, found by the models of the job. -/
def Shows (ml : SparkML Nlp Km Features) (env : Texts) (spark : Rendering) (s : System)
    (payload : String) (offset : ℕ) : Prop :=
  ∃ anomaly, (topic ml s.calls)[offset]? = some (alertJson spark.text anomaly) ∧
    Found ml s.calls anomaly ∧ DecodedFrom spark anomaly (env.parse payload)

/-- What has come in at the page, by the offsets of its messages. -/
theorem exists_shows (h : s.Sound ml env spark) (hreadable : s.Readable ml env spark)
    (hparse : ∀ alert, env.modelDumpJson alert ∈ broadcasts s.stream.gateway.manager.log →
      env.parse (env.modelDumpJson alert) = alert) :
    ∃ offsets, List.Forall₂ (Shows ml env spark s) s.stream.seen offsets ∧
      offsets.Sublist s.cursor.read := by
  obtain ⟨current, hstream⟩ := h.stream
  have hseen := seen_sublist hstream
  rw [h.broadcasts] at hseen
  obtain ⟨shown, hshown, heq⟩ := List.sublist_map_iff.mp hseen
  refine ⟨shown.map Prod.fst, ?_, (hshown.map _).trans h.map_sent_prefix.sublist⟩
  rw [heq, List.forall₂_map_left_iff, List.forall₂_map_right_iff, List.forall₂_same]
  intro taken htaken
  have hsent := hshown.subset htaken
  obtain ⟨json, hjson, hrow⟩ := h.decoded taken (List.mem_append_left _ hsent)
  obtain ⟨anomaly, hfound, rfl⟩ :=
    exists_found_of_mem_topic hreadable.cast (List.mem_of_getElem? hjson)
  have hmem : env.modelDumpJson taken.2 ∈ broadcasts s.stream.gateway.manager.log := by
    rw [h.broadcasts]
    exact List.mem_map_of_mem hsent
  refine ⟨anomaly, hjson, hfound, ?_⟩
  rw [hparse taken.2 hmem]
  exact hrow anomaly rfl

/-- The two figures on the page. -/
theorem figures_eq (h : s.Sound ml env spark) :
    s.stream.page.statTotal = s.stream.seen.length ∧ s.stream.page.statFatal
      = s.stream.seen.countP fun payload => DemoPage.IsFatal env.upper (env.parse payload) := by
  obtain ⟨current, hstream⟩ := h.stream
  exact ⟨hstream.displays.1.trans hstream.total, hstream.displays.2.trans hstream.fatal⟩

/-- **The page shows anomalies of the job, and each of them once for each start of the
consumer**: whatever the interleaving of the calls of the job, the commits, crashes and
broadcasts of the consumer, the clients of the gateway and the closings and reconnections of the
page, every alert the page counts has the columns of a row that the job has found to be an
anomaly and has published; no message is counted more often than the consumer has been restarted
and once more; without a restart they are counted in the order of the topic, each once; and the
two figures on the page are the numbers of these alerts and of the fatal ones among them. -/
theorem page_shows_anomalies (hrun : Lts.run (step ml env) actions (start ws) = some s)
    (hreadable : s.Readable ml env spark)
    (hparse : ∀ alert, env.modelDumpJson alert ∈ broadcasts s.stream.gateway.manager.log →
      env.parse (env.modelDumpJson alert) = alert) :
    ∃ offsets, List.Forall₂ (Shows ml env spark s) s.stream.seen offsets ∧
      (∀ o, offsets.count o ≤ s.cursor.restarts + 1) ∧
      (s.cursor.restarts = 0 → offsets.Pairwise (· < ·)) ∧
      s.stream.page.statTotal = offsets.length ∧
      s.stream.page.statFatal
        = s.stream.seen.countP fun payload => DemoPage.IsFatal env.upper (env.parse payload) := by
  have h := sound_run hrun hreadable
  obtain ⟨offsets, hshows, hoffsets⟩ := exists_shows h hreadable hparse
  obtain ⟨htotal, hfatal⟩ := figures_eq h
  refine ⟨offsets, hshows, fun o => ?_, fun hnone => ?_, htotal.trans hshows.length_eq, hfatal⟩
  · exact (hoffsets.count_le o).trans (h.cursor.count_le_starts o)
  · rw [h.cursor.in_order hnone] at hoffsets
    exact List.pairwise_lt_range.sublist hoffsets

/-- **The consumer passes no message over, and no socket does**: as long as the topic keeps its
messages until they are read, every message before the position of the consumer has been
broadcast, but for one that it has in hand; and without a restart, what has come in over one
socket are the alerts of consecutive messages. -/
theorem socket_passes_over_none (hrun : Lts.run (step ml env) actions (start ws) = some s)
    (hreadable : s.Readable ml env spark) :
    (∀ o < s.cursor.position, ∃ taken ∈ s.sent ++ s.inHand.toList, taken.1 = o) ∧
      broadcasts s.stream.gateway.manager.log
        = (s.sent.map fun taken => env.modelDumpJson taken.2) ∧
      (∀ taken ∈ s.sent ++ s.inHand.toList, Decoded ml spark s.calls taken) ∧
      (s.cursor.restarts = 0 → ∀ c, ∃ part k, part <:+: s.sent ∧
        (s.stream.delivered c).filterMap payload?
          = (part.map fun taken => env.modelDumpJson taken.2) ∧
        part.map Prod.fst = List.range' k part.length) := by
  have h := sound_run hrun hreadable
  obtain ⟨current, hstream⟩ := h.stream
  refine ⟨fun o ho => ?_, h.broadcasts, h.decoded, fun hnone c => ?_⟩
  · have hread := h.cursor.covers o ho
    rw [← h.read] at hread
    obtain ⟨taken, htaken, rfl⟩ := List.mem_map.mp hread
    exact ⟨taken, htaken, rfl⟩
  · have hinfix := (delivered_prefix_stay hstream c).isInfix.trans broadcasts_stay_infix
    rw [h.broadcasts] at hinfix
    obtain ⟨part, hpart, heq⟩ := List.infix_map_iff.mp hinfix
    obtain ⟨k, hk⟩ := h.cursor.eq_range'_of_infix
      ((hpart.map Prod.fst).trans h.map_sent_prefix.isInfix) hnone
    rw [List.length_map] at hk
    exact ⟨part, k, hpart, heq, hk⟩

end Run

/-! ### Two anomalies, and a restart -/

/-- A call whose one row is found to be an anomaly, and published. -/
def anomalyCall (component : String) : ProcessCall where
  env := { Env.serving with castString := epochRendering.text }
  batch := [bareRow component]
  batchId := 0
  noKill _ := Signal.noConfusion

/-- The payload of its alert. -/
def anomalyPayload (component : String) : String :=
  objectText [("timestamp", .null), ("component", .str component), ("severity", .null),
    ("message", .str ""), ("host", .null), ("anomaly_score", .float 1), ("cluster_id", .int 0),
    ("received_at", .str "")]

/-- Its alert. -/
def anomalyAlert (component : String) : AlertEvent :=
  ⟨none, some component, none, some "", none, some 1, some 0, ""⟩

def twoRowTexts : Texts where
  toJson
    | .obj fields => objectText fields
    | _ => ""
  parser := sampleParser
  pydantic := numericPydantic
  modelDumpJson alert :=
    if alert = anomalyAlert "KERNEL" then anomalyPayload "KERNEL"
    else if alert = anomalyAlert "APP" then anomalyPayload "APP" else ""
  parse payload :=
    if payload = anomalyPayload "KERNEL" then anomalyAlert "KERNEL" else anomalyAlert "APP"
  upper := id

/-- An alert is received, broadcast and delivered. -/
def alertActions : List Action :=
  [.receive "", .broadcast, .stream (.gateway (.consumer .ok)), .stream (.deliver 1)]

/-- Two alerts go all the way; the first of them is committed. -/
def twoRowActions : List Action :=
  [.stream (.gateway (.arrive 1)), .stream (.gateway (.handler 1 .ok)), .stream (.onopen 1),
    .stream (.deliver 1), .process (anomalyCall "KERNEL"), .process (anomalyCall "APP")]
    ++ alertActions ++ .commit 1 :: alertActions

/-- The consumer is restarted, and the second one goes there again. -/
def restartedActions : List Action := twoRowActions ++ .restart :: alertActions

/-- The two calls. -/
def twoCalls : List ProcessCall := [anomalyCall "KERNEL", anomalyCall "APP"]

set_option maxRecDepth 4000 in
theorem readable_twoRows {s : System} (h : s.calls = twoCalls) :
    s.Readable (SparkML.ofRule fun _ => 0) twoRowTexts epochRendering where
  cast call hcall := by
    rw [h, twoCalls, List.mem_cons, List.mem_singleton] at hcall
    rcases hcall with rfl | rfl
    · rfl
    · rfl
  loads json hjson := by
    have htopic : topic (SparkML.ofRule fun _ => 0) twoCalls
        = [.obj (anomalyFields "KERNEL"), .obj (anomalyFields "APP")] := rfl
    rw [h, htopic, List.mem_cons, List.mem_singleton] at hjson
    rcases hjson with rfl | rfl
    · rfl
    · rfl

set_option maxRecDepth 4000 in
theorem parse_twoRows {log : List Event}
    (h : ∀ payload ∈ broadcasts log,
      payload = anomalyPayload "KERNEL" ∨ payload = anomalyPayload "APP") (alert : AlertEvent)
    (halert : twoRowTexts.modelDumpJson alert ∈ broadcasts log) :
    twoRowTexts.parse (twoRowTexts.modelDumpJson alert) = alert := by
  have hne : "" ≠ anomalyPayload "KERNEL" ∧ "" ≠ anomalyPayload "APP" := by decide
  by_cases hkernel : alert = anomalyAlert "KERNEL"
  · subst hkernel
    rfl
  · by_cases happ : alert = anomalyAlert "APP"
    · subst happ
      rfl
    · have hempty : twoRowTexts.modelDumpJson alert = "" :=
        (if_neg hkernel).trans (if_neg happ)
      rw [hempty] at halert
      exact absurd (h "" halert) (not_or.mpr hne)

set_option maxRecDepth 4000 in
theorem run_twoRowActions :
    ∃ s, Lts.run (step (SparkML.ofRule fun _ => 0) twoRowTexts) twoRowActions (start 1) = some s ∧
      s.calls = twoCalls ∧
      broadcasts s.stream.gateway.manager.log = [anomalyPayload "KERNEL", anomalyPayload "APP"] ∧
      s.stream.seen = [anomalyPayload "KERNEL", anomalyPayload "APP"] ∧ s.cursor.restarts = 0 ∧
      ∃ s', Lts.run (step (SparkML.ofRule fun _ => 0) twoRowTexts) restartedActions (start 1)
          = some s' ∧
        s'.calls = twoCalls ∧
        broadcasts s'.stream.gateway.manager.log
          = [anomalyPayload "KERNEL", anomalyPayload "APP", anomalyPayload "APP"] ∧
        s'.stream.seen = [anomalyPayload "KERNEL", anomalyPayload "APP", anomalyPayload "APP"] ∧
        s'.cursor.position = 2 ∧ s'.cursor.restarts = 1 :=
  ⟨_, rfl, rfl, rfl, rfl, rfl, _, rfl, rfl, rfl, rfl, rfl, rfl⟩

theorem payload_of_broadcasts {log : List Event}
    (h : broadcasts log = [anomalyPayload "KERNEL", anomalyPayload "APP"] ∨
      broadcasts log = [anomalyPayload "KERNEL", anomalyPayload "APP", anomalyPayload "APP"])
    (payload : String) (hpayload : payload ∈ broadcasts log) :
    payload = anomalyPayload "KERNEL" ∨ payload = anomalyPayload "APP" := by
  rcases h with h | h <;> rw [h] at hpayload <;>
    simpa only [List.mem_cons, List.not_mem_nil, or_false, or_self] using hpayload

/-- Both are on the page in their order; after the restart the second is there twice. -/
theorem page_shows_anomalies_twoRows :
    (∃ s offsets, Lts.run (step (SparkML.ofRule fun _ => 0) twoRowTexts) twoRowActions (start 1)
        = some s ∧
      List.Forall₂ (Shows (SparkML.ofRule fun _ => 0) twoRowTexts epochRendering s)
        s.stream.seen offsets ∧
      offsets.Pairwise (· < ·) ∧ offsets.length = 2) ∧
    ∃ s offsets, Lts.run (step (SparkML.ofRule fun _ => 0) twoRowTexts) restartedActions (start 1)
        = some s ∧
      List.Forall₂ (Shows (SparkML.ofRule fun _ => 0) twoRowTexts epochRendering s)
        s.stream.seen offsets ∧
      (∀ o, offsets.count o ≤ 2) ∧ s.stream.page.statTotal = 3 := by
  obtain ⟨s, hrun, hcalls, hlog, hseen, hnone, s', hrun', hcalls', hlog', hseen', -, hone⟩ :=
    run_twoRowActions
  obtain ⟨offsets, hshows, -, horder, -⟩ := page_shows_anomalies hrun (readable_twoRows hcalls)
    (parse_twoRows (payload_of_broadcasts (.inl hlog)))
  obtain ⟨offsets', hshows', hcount, -, htotal, -⟩ := page_shows_anomalies hrun'
    (readable_twoRows hcalls') (parse_twoRows (payload_of_broadcasts (.inr hlog')))
  have hlength := hshows.length_eq
  have hlength' := hshows'.length_eq
  rw [hseen] at hlength
  rw [hseen'] at hlength'
  refine ⟨⟨s, offsets, hrun, hshows, horder hnone, hlength.symm⟩,
    s', offsets', hrun', hshows', fun o => ?_, htotal.trans hlength'.symm⟩
  have hle := hcount o
  rwa [hone] at hle

/-- What comes in over the socket are the two messages, until the restart; and after it none is
passed over. -/
theorem socket_passes_over_none_twoRows :
    (∃ s, Lts.run (step (SparkML.ofRule fun _ => 0) twoRowTexts) twoRowActions (start 1) = some s ∧
      ∀ c, ∃ part k, part <:+: s.sent ∧
        (s.stream.delivered c).filterMap payload?
          = (part.map fun taken => twoRowTexts.modelDumpJson taken.2) ∧
        part.map Prod.fst = List.range' k part.length) ∧
    ∃ s, Lts.run (step (SparkML.ofRule fun _ => 0) twoRowTexts) restartedActions (start 1)
        = some s ∧
      ∀ o < 2, ∃ taken ∈ s.sent ++ s.inHand.toList, taken.1 = o := by
  obtain ⟨s, hrun, hcalls, -, -, hnone, s', hrun', hcalls', -, -, hposition, -⟩ :=
    run_twoRowActions
  exact ⟨⟨s, hrun, (socket_passes_over_none hrun (readable_twoRows hcalls)).2.2.2 hnone⟩,
    s', hrun', hposition ▸ (socket_passes_over_none hrun' (readable_twoRows hcalls')).1⟩

end AlertPath

end AiopsLog
