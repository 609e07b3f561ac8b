import AiopsLog.Gateway.Messages
import AiopsLog.Gateway.RecentAlerts

/-!
# What the consumer stores

Each alert that `kafka_consumer_loop` broadcasts it also means to insert into
`anomaly_alerts_pg`, and an insert that raises is logged and passed over. So the table gains
rows for some of the alerts broadcast, in their order, under fresh identifiers
(`AiopsLog.Feed.consume_persists`). Which alerts these are is decided by the arguments: a time
is a text, asyncpg wants none for `$2::timestamp`, and every alert that has one is refused.

The rows that the consumer does store have therefore no time. `GET /api/v1/alerts/recent` sorts
such rows last, and shows none of them as long as there are enough rows with a time to show
(`AiopsLog.recent_hides_gateway_rows`).
-/

namespace AiopsLog

open Py Py.Code

/-! ### What can be inserted -/

/-- The alert's arguments are accepted: there is no time, and the cluster is a 32-bit
integer. -/
def AlertEvent.Insertable (alert : AlertEvent) : Prop :=
  alert.timestamp = none ∧ ∀ n ∈ alert.clusterId, -2 ^ 31 ≤ n ∧ n < 2 ^ 31

instance (alert : AlertEvent) : Decidable alert.Insertable :=
  inferInstanceAs (Decidable (_ ∧ _))

/-- The row of an alert. -/
def AlertEvent.row (alert : AlertEvent) (alertId : Uuid) : AlertRow where
  alertId := alertId
  eventTime := none
  component := alert.component
  severity := alert.severity
  message := alert.message
  host := alert.host
  anomalyScore := alert.anomalyScore
  clusterId := alert.clusterId

theorem encodeArgs_insertArgs (asyncpg : Asyncpg) (alertId : Uuid) (alert : AlertEvent) :
    encodeArgs asyncpg (insertArgs alertId alert)
      = if alert.Insertable then some (alert.row alertId) else none := by
  obtain ⟨timestamp, component, severity, message, host, score, cluster, receivedAt⟩ := alert
  rcases timestamp with _ | time
  · rcases cluster with _ | n
    · rw [if_pos ⟨rfl, fun n hn => absurd hn.symm (Option.some_ne_none n)⟩]
      simp only [encodeArgs, insertArgs, asyncpg.timestamp_none, asyncpg.integer_none]
      rfl
    · by_cases hn : -2 ^ 31 ≤ n ∧ n < 2 ^ 31
      · rw [if_pos ⟨rfl, fun m hm => Option.some.inj hm ▸ hn⟩]
        simp only [encodeArgs, insertArgs, asyncpg.timestamp_none, asyncpg.integer_some, if_pos hn]
        rfl
      · rw [if_neg fun h => hn (h.2 n rfl)]
        simp only [encodeArgs, insertArgs, asyncpg.timestamp_none, asyncpg.integer_some, if_neg hn]
        rfl
  · rw [if_neg fun h => Option.some_ne_none time h.1]
    simp only [encodeArgs, insertArgs, asyncpg.timestamp_some]
    rfl

namespace Feed

variable (env : Surroundings)

/-! ### A message -/

/-- The alert of a message, if it is stored. -/
def stored (msg : String × ℕ) : Option AlertEvent :=
  (alertOf env msg).filter fun alert =>
    env.dbPool && !env.fails msg.2 && decide alert.Insertable

/-- The table has been filled with identifiers drawn before. -/
def Fresh (s : Feed) : Prop := ∀ row ∈ s.anomalyAlertsPg, row.alertId < s.uuids

/-- The identifier is one of those drawn from `s` to `s'`, by the numbers of the draws. -/
def DrawnBetween (s s' : Feed) (id : Uuid) : Prop := s.uuids ≤ id ∧ id < s'.uuids

/-- The rows added from `s` to `s'` are those of `alerts`, under identifiers drawn meanwhile, no
two of them alike, and none of them that of a row that was there before. -/
structure Gains (s s' : Feed) (alerts : List AlertEvent) : Prop where
  drawn : s.uuids ≤ s'.uuids
  rows : ∃ ids : List Uuid, ids.length = alerts.length ∧ ids.Nodup ∧
    (∀ id ∈ ids, DrawnBetween s s' id) ∧ (∀ row ∈ s.anomalyAlertsPg, row.alertId ∉ ids) ∧
    s'.anomalyAlertsPg = s.anomalyAlertsPg ++ List.zipWith AlertEvent.row alerts ids

variable {env} {s s' s'' : Feed} {msg : String × ℕ}

theorem Gains.of_same (hdrawn : s.uuids ≤ s'.uuids)
    (hsame : s'.anomalyAlertsPg = s.anomalyAlertsPg) : Gains s s' [] :=
  ⟨hdrawn, [], rfl, List.nodup_nil, fun _ h => absurd h List.not_mem_nil,
    fun _ _ => List.not_mem_nil, hsame.trans (List.append_nil _).symm⟩

theorem Gains.trans {alerts alerts' : List AlertEvent} (h : Gains s s' alerts)
    (h' : Gains s' s'' alerts') : Gains s s'' (alerts ++ alerts') := by
  obtain ⟨hdrawn, ids, hlength, hnodup, hids, hfresh, hrows⟩ := h
  obtain ⟨hdrawn', ids', hlength', hnodup', hids', hfresh', hrows'⟩ := h'
  have hle : s.uuids ≤ s'.uuids := hdrawn
  have hle' : s'.uuids ≤ s''.uuids := hdrawn'
  refine ⟨hle.trans hle', ids ++ ids', ?_, ?_, fun id hid => ?_, fun row hrow => ?_, ?_⟩
  · rw [List.length_append, List.length_append, hlength, hlength']
  · -- the later ones have been drawn after the earlier ones
    refine List.nodup_append.mpr ⟨hnodup, hnodup', fun id hid id' hid' => ?_⟩
    exact (lt_of_lt_of_le (hids id hid).2 (hids' id' hid').1).ne
  · rcases List.mem_append.mp hid with hid | hid
    · exact ⟨(hids id hid).1, lt_of_lt_of_le (hids id hid).2 hle'⟩
    · exact ⟨hle.trans (hids' id hid).1, (hids' id hid).2⟩
  · rw [List.mem_append, not_or]
    exact ⟨hfresh row hrow, hfresh' row (hrows ▸ List.mem_append_left _ hrow)⟩
  · rw [hrows', hrows, List.append_assoc, List.zipWith_append hlength.symm]

/-- An insert draws an identifier, and adds its row where nothing raises. -/
theorem insertAlert_snd (hfresh : s.Fresh) (asyncpg : Asyncpg) (fails : Bool)
    (alert : AlertEvent) : (insertAlert asyncpg fails alert s).2 = { s with
      uuids := s.uuids + 1
      anomalyAlertsPg := s.anomalyAlertsPg
        ++ if !fails && decide alert.Insertable then [alert.row s.uuids] else [] } := by
  rw [insertAlert, bind_apply, read_apply]
  dsimp only
  rw [bind_apply, update_apply]
  cases fails with
  | true => exact congrArg (fun t => (⟨_, t, _⟩ : Feed)) (List.append_nil _).symm
  | false =>
    rw [encodeArgs_insertArgs]
    by_cases hinsert : alert.Insertable
    · have hrow : Sql.insertOrIgnore (·.alertId) (alert.row s.uuids) s.anomalyAlertsPg
          = s.anomalyAlertsPg ++ [alert.row s.uuids] := Sql.insertOrIgnore_of_lt hfresh
      simp only [update_apply, hrow, Bool.false_eq_true, if_false, hinsert,
        decide_true, Bool.not_false, Bool.and_self, if_true]
    · simp only [raise_apply, Bool.false_eq_true, if_false, hinsert,
        decide_false, Bool.and_false, List.append_nil]

/-- The state a message leaves. -/
theorem handleMessage_snd (s : Feed) : (handleMessage env msg s).2 = match alertOf env msg with
    | none => s
    | some alert =>
      let stored := if env.dbPool then (insertAlert env.asyncpg (env.fails msg.2) alert s).2 else s
      { stored with broadcasts := stored.broadcasts ++ [alert] } := by
  rw [handleMessage, exceptException_pure_snd]
  cases alertOf env msg with
  | none => rfl
  | some alert =>
    cases hpool : env.dbPool with
    | false => rfl
    | true =>
      -- what the insert raises goes no further
      have hreturns := (mild_insertAlert env.asyncpg (env.fails msg.2) alert
        s.broadcasts).exceptException_returns s rfl
      have hdone : exceptException (insertAlert env.asyncpg (env.fails msg.2) alert) (pure ()) s
          = (.done (), (insertAlert env.asyncpg (env.fails msg.2) alert s).2) :=
        Prod.ext hreturns.1 (exceptException_pure_snd _ s)
      simp only [if_true]
      rw [bind_done hdone]
      rfl

variable (env) in
/-- **The step**: a message adds the row of its alert, or none. -/
theorem gains_handleMessage (msg : String × ℕ) (hfresh : s.Fresh) :
    (handleMessage env msg s).2.Fresh ∧
      Gains s (handleMessage env msg s).2 (stored env msg).toList := by
  rw [handleMessage_snd, stored]
  cases alertOf env msg with
  | none => exact ⟨hfresh, Gains.of_same (Nat.le_refl _) rfl⟩
  | some alert =>
    cases hpool : env.dbPool with
    | false => exact ⟨hfresh, Gains.of_same (Nat.le_refl _) rfl⟩
    | true =>
      have hstored := insertAlert_snd hfresh env.asyncpg (env.fails msg.2) alert
      simp only [if_true, hstored, Option.filter_some, Bool.true_and]
      split
      · refine ⟨fun row hrow => ?_, Nat.le_succ _, [s.uuids], rfl, List.nodup_singleton _,
          fun id hid => ?_, fun row hrow => ?_, rfl⟩
        · rcases List.mem_append.mp hrow with hrow | hrow
          · exact Nat.lt_succ_of_lt (hfresh row hrow)
          · rw [List.mem_singleton.mp hrow]
            exact Nat.lt_succ_self _
        · rw [List.mem_singleton.mp hid]
          exact ⟨Nat.le_refl _, Nat.lt_succ_self _⟩
        · rw [List.mem_singleton]
          exact (hfresh row hrow).ne
      · refine ⟨fun row hrow => ?_, Gains.of_same (Nat.le_succ _) (List.append_nil _)⟩
        rw [List.append_nil] at hrow
        exact Nat.lt_succ_of_lt (hfresh row hrow)

variable (env) in
/-- The run. -/
theorem gains_forEach (msgs : List (String × ℕ)) (hfresh : s.Fresh) :
    (forEach (handleMessage env) msgs s).2.Fresh ∧
      Gains s (forEach (handleMessage env) msgs s).2 (msgs.filterMap (stored env)) := by
  induction msgs generalizing s with
  | nil => exact ⟨hfresh, Gains.of_same (Nat.le_refl _) rfl⟩
  | cons msg msgs ih =>
    obtain ⟨hfresh', hgains⟩ := gains_handleMessage env msg hfresh
    have hdone := (ensures_handleMessage env msg s.broadcasts s rfl).1
    have hstep : forEach (handleMessage env) (msg :: msgs) s
        = forEach (handleMessage env) msgs (handleMessage env msg s).2 :=
      bind_done (Prod.ext hdone rfl)
    obtain ⟨hfresh'', hgains'⟩ := ih hfresh'
    have hstored : (msg :: msgs).filterMap (stored env)
        = (stored env msg).toList ++ msgs.filterMap (stored env) := by
      rw [List.filterMap_cons]
      cases stored env msg <;> rfl
    rw [hstep, hstored]
    exact ⟨hfresh'', hgains.trans hgains'⟩

/-- A row the table has after some messages and had not before has no time. -/
theorem Gains.eventTime {alerts : List AlertEvent} (h : Gains s s' alerts) {row : AlertRow}
    (hrow : row ∈ s'.anomalyAlertsPg) : row ∈ s.anomalyAlertsPg ∨ row.eventTime = none := by
  obtain ⟨ids, -, -, -, -, hrows⟩ := h.rows
  rw [hrows] at hrow
  refine (List.mem_append.mp hrow).imp_right fun hnew => ?_
  rw [← List.map_uncurry_zip_eq_zipWith] at hnew
  obtain ⟨pair, -, rfl⟩ := List.mem_map.mp hnew
  rfl

/-- What is stored is filtered from what is broadcast. -/
theorem filterMap_stored_sublist (msgs : List (String × ℕ)) :
    (msgs.filterMap (stored env)).Sublist (msgs.filterMap (alertOf env)) := by
  induction msgs with
  | nil => exact List.Sublist.refl _
  | cons msg msgs ih =>
    rcases halert : alertOf env msg with _ | alert
    · have hstored : stored env msg = none := by rw [stored, halert, Option.filter_none]
      rw [List.filterMap_cons_none hstored, List.filterMap_cons_none halert]
      exact ih
    · rw [List.filterMap_cons_some halert]
      rcases hstored : stored env msg with _ | kept
      · rw [List.filterMap_cons_none hstored]
        exact ih.cons alert
      · rw [List.filterMap_cons_some hstored]
        rw [stored, halert] at hstored
        obtain rfl := Option.some.inj (Option.filter_eq_some_iff.mp hstored).1
        exact ih.cons_cons alert

/-- **What the consumer stores of what it broadcasts**: whatever the messages and whichever
inserts fail, the table gains the rows of some of the alerts broadcast, in their order and
under fresh identifiers, no two alike: those of the alerts whose insert is reached and does
not fail, and whose arguments are accepted. None of these has a time. -/
theorem consume_persists (env : Surroundings) (values : List String) {s : Feed}
    (hfresh : s.Fresh) :
    ∃ sent kept : List AlertEvent,
      (consume env values s).2.broadcasts = s.broadcasts ++ sent ∧
      kept = (values.zipIdx.filterMap (stored env)) ∧ kept.Sublist sent ∧
      Gains s (consume env values s).2 kept ∧ ∀ alert ∈ kept, alert.timestamp = none := by
  refine ⟨_, _, (consume_spec env values s).2, rfl, ?_, (gains_forEach env _ hfresh).2, ?_⟩
  · exact filterMap_stored_sublist _
  · intro alert halert
    obtain ⟨msg, -, hmsg⟩ := List.mem_filterMap.mp halert
    have hkept := (Option.filter_eq_some_iff.mp hmsg).2
    rw [Bool.and_eq_true, decide_eq_true_eq] at hkept
    exact hkept.2.1

end Feed

/-! ### What is shown of it -/

/-- A row with a time sorts before one without. -/
theorem not_recentGe_of_none {a b : StoredAlert} (ha : a.eventTime.isSome = true)
    (hb : ¬b.eventTime.isSome = true) : ¬RecentGe b a := by
  rw [recentGe_iff]
  rcases hta : a.eventTime with _ | time
  · rw [hta] at ha
    nomatch ha
  · rw [Option.not_isSome_iff_eq_none] at hb
    rw [hb]
    exact id

/-- **The consumer's rows are not shown**: the consumer has handled some messages, and the
recent alerts are asked for; if no fewer than `limit` of the rows that the filters select have
a time, none of the rows the consumer has stored meanwhile is in the answer. -/
theorem recent_hides_gateway_rows (env : Feed.Surroundings) (values : List String) {s : Feed}
    (hfresh : s.Fresh) {table : List StoredAlert}
    (htable : table.map StoredAlert.toAlertRow = (Feed.consume env values s).2.anomalyAlertsPg)
    (upper : String → String) (order : OrderBy RecentGe) (limit : Limit)
    (component severity : Option String)
    (hmany : limit.1 ≤ (whereClause (wantedColumns upper component severity) table).countP
      fun alert => alert.eventTime.isSome) :
    ∃ answer, getRecentAlerts upper order (some table) limit component severity = .ok answer ∧
      ∀ entry ∈ answer, ∃ row ∈ s.anomalyAlertsPg, row.alertId = entry.alertId := by
  have hgains := (Feed.gains_forEach env values.zipIdx hfresh).2
  have hanswer : getRecentAlerts upper order (some table) limit component severity
      = .ok (((order.sort (whereClause (wantedColumns upper component severity) table)).take
          limit).map StoredAlert.select) := by
    rw [getRecentAlerts]
    simp only [fetch_recentQuery]
  refine ⟨_, hanswer, fun entry hentry => ?_⟩
  obtain ⟨alert, halert, rfl⟩ := List.mem_map.mp hentry
  have hdated : alert.eventTime.isSome = true :=
    order.forall_mem_take (fun _ _ => not_recentGe_of_none) (by simpa using hmany) alert halert
  have hselected := order.mem_sort.mp (List.mem_of_mem_take halert)
  have hrow : alert.toAlertRow ∈ (Feed.consume env values s).2.anomalyAlertsPg :=
    htable ▸ List.mem_map_of_mem (mem_whereClause_iff.mp hselected).1
  rcases hgains.eventTime hrow with hold | hnone
  · exact ⟨_, hold, rfl⟩
  · have heventTime : alert.eventTime = none := hnone
    rw [heventTime] at hdated
    exact absurd hdated Bool.false_ne_true

/-! ### A row with a time, and an alert without -/

/-- A row that the streaming job has inserted. -/
def timedRow : AlertRow := ⟨0, some 0, some "APP", none, some "", none, some 1, some 0⟩

/-- The table holds it, and the next identifier is 1. -/
def timedFeed : Feed := ⟨1, [timedRow], []⟩

theorem fresh_timedFeed : timedFeed.Fresh := by
  intro row hrow
  rw [List.mem_singleton.mp hrow]
  exact Nat.zero_lt_one

/-- The texts of two anomalies, the second of which has a time. -/
def twoTexts : List String :=
  [objectText (anomalyFields "KERNEL"), objectText (timedFields "1970-01-01 00:00:01" "APP")]

set_option maxRecDepth 4000 in
/-- Both are broadcast, and the one without a time is stored. -/
theorem consume_persists_twoTexts :
    ∃ sent kept : List AlertEvent,
      (Feed.consume sampleGateway twoTexts timedFeed).2.broadcasts = [] ++ sent ∧
      kept = twoTexts.zipIdx.filterMap (Feed.stored sampleGateway) ∧
      kept.Sublist sent ∧
      Feed.Gains timedFeed (Feed.consume sampleGateway twoTexts timedFeed).2 kept ∧
      (∀ alert ∈ kept, alert.timestamp = none) ∧ sent.length = 2 ∧ kept.length = 1 := by
  obtain ⟨sent, kept, hsent, rfl, hsub, hgains, hnone⟩ :=
    Feed.consume_persists sampleGateway twoTexts fresh_timedFeed
  have hbroadcasts : (Feed.consume sampleGateway twoTexts timedFeed).2.broadcasts.length = 2 := rfl
  rw [hsent] at hbroadcasts
  exact ⟨sent, _, hsent, rfl, hsub, hgains, hnone, hbroadcasts, rfl⟩

theorem inYears_zero : InYears 0 := ⟨by decide, by decide⟩

/-- The two rows of the table then. -/
def twoAlerts : List StoredAlert :=
  [⟨timedRow, ⟨0, inYears_zero⟩, fun _ h => Option.some.inj h ▸ inYears_zero⟩,
    ⟨⟨1, none, some "KERNEL", none, some "", none, some 1, some 0⟩, ⟨0, inYears_zero⟩, nofun⟩]

set_option maxRecDepth 4000 in
/-- The one alert that is asked for is the older one. -/
theorem recent_hides_gateway_rows_untimed :
    ∃ answer, getRecentAlerts id byRecent (some twoAlerts) ⟨1, by decide⟩ none none = .ok answer ∧
      ∀ entry ∈ answer, ∃ row ∈ timedFeed.anomalyAlertsPg, row.alertId = entry.alertId :=
  recent_hides_gateway_rows sampleGateway twoTexts fresh_timedFeed rfl id byRecent
    ⟨1, by decide⟩ none none (Nat.le_refl 1)

end AiopsLog
