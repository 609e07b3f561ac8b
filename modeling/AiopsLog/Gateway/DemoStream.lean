import AiopsLog.Gateway.DemoPage
import AiopsLog.Gateway.LiveAlerts

/-!
# The page on the stream

A page of `/demo` and the gateway that serves it, run together: clients come and go and
broadcasts are under way as in `AiopsLog.Gateway`, and the page gets what the gateway has
begun to send on its sockets, each message after those before it, some time later or never.
When a socket closes, the page knows it before the gateway does, or after.

Each alert is nevertheless counted at most once: a socket that the page makes when another
has closed is not on the list yet, and what is broadcast from then on was not sent on the
other in time (`AiopsLog.DemoStream.alerts_once`). On one socket no alert is left out; those
that are broadcast while the page waits to reconnect are not shown, and not fetched later.
-/

namespace AiopsLog

open DemoPage

namespace DemoStream

/-! ### The system -/

/-- The payload of a message, if it is no welcome. -/
def payload? : Message → Option String
  | .handshake => none
  | .payload payload => some payload

/-- The payloads broadcast, in their order. -/
def broadcasts (log : List Event) : List String :=
  (log.filterMap Event.message?).filterMap payload?

/-- The text of the welcome. -/
def welcomeText : String := "AIOps live alert stream active. Waiting for anomalies…"

/-- What the page makes of a message; `parse` is `JSON.parse`, on what pydantic dumps. -/
def dataOf (parse : String → AlertEvent) : Message → Data
  | .handshake => .connected welcomeText
  | .payload payload => .alert (parse payload)

/-- The gateway and the page, what has been delivered on each socket, and the payloads that
have come in over all of them. -/
structure Stream where
  gateway : Gateway
  page : Page
  delivered : WebSocket → List Message
  seen : List String

inductive Action where
  | gateway : Gateway.Action → Action
  /-- The next message of a socket is delivered. -/
  | deliver : WebSocket → Action
  | onopen : WebSocket → Action
  | onerror : WebSocket → Action
  | onclose : WebSocket → Action
  | connect : WebSocket → Action
  | clearFeed : Action

/-- The page loads, and makes its first socket; no client has come yet. -/
def start (ws : WebSocket) : Stream := ⟨.start, .load ws, fun _ => [], []⟩

variable (upper : String → String) (parse : String → AlertEvent)

/-- A callback that brings no message. -/
def callBack (s : Stream) (callback : Callback) : Option Stream := do
  let page ← s.page.step upper callback
  pure { s with page := page }

/-- The step of the system. A socket of the page is none the gateway has met before. -/
def step (s : Stream) : Action → Option Stream
  | .gateway action => do
    let gateway ← s.gateway.step action
    pure { s with gateway := gateway }
  | .deliver ws => do
    let message ← (begunOn ws s.gateway.manager.log)[(s.delivered ws).length]?
    let page ← s.page.step upper (.onmessage ws (dataOf parse message))
    pure { s with
      page := page
      delivered := Function.update s.delivered ws (s.delivered ws ++ [message])
      seen := s.seen ++ (payload? message).toList }
  | .onopen ws => callBack upper s (.onopen ws)
  | .onerror ws => callBack upper s (.onerror ws)
  | .onclose ws => callBack upper s (.onclose ws)
  | .connect ws => match s.gateway.handler ws with
    | .absent => callBack upper s (.connect ws)
    | _ => none
  | .clearFeed => callBack upper s .clearFeed

/-! ### What is broadcast to a client -/

section Broadcasts

variable {ws : WebSocket} {log before after : List Event}

theorem broadcasts_append :
    broadcasts (before ++ after) = broadcasts before ++ broadcasts after := by
  rw [broadcasts, List.filterMap_append, List.filterMap_append]
  rfl

/-- The payloads a client is owed are those broadcast during its stay. -/
theorem filterMap_payload_owed : (owed ws log).filterMap payload? = broadcasts (stay ws log) := by
  rw [owed]
  split
  · rfl
  · next hnot =>
    have hbefore : ∀ e ∈ log, ¬e = .appended ws := by
      rintro e he rfl
      exact hnot he
    rw [stay, History.during_of_forall_not hbefore]
    rfl

/-- A client misses nothing that is broadcast between two payloads it is owed. -/
theorem broadcasts_stay_infix : broadcasts (stay ws log) <:+: broadcasts log :=
  (History.during_infix.filterMap _).filterMap _

/-- A client is owed nothing that was broadcast before it came. -/
theorem broadcasts_stay_append (h : .appended ws ∉ before) :
    List.Sublist (broadcasts (stay ws (before ++ after))) (broadcasts after) := by
  have hbefore : ∀ e ∈ before, ¬e = .appended ws := by
    rintro e he rfl
    exact h he
  rw [stay, History.during_append_of_forall_not hbefore]
  exact broadcasts_stay_infix.sublist

end Broadcasts

/-! ### The log grows -/

section Log

variable {g g' : Gateway} {m m' : Manager} {payloads : List String}

/-- The payload of the broadcast that an action starts. -/
def payloadOf : Gateway.Action → Option String
  | .broadcast payload => some payload
  | _ => none

/-- The log has grown, and of what has been added these payloads are broadcast. -/
def Adds (m m' : Manager) (payloads : List String) : Prop :=
  ∃ es, m'.log = m.log ++ es ∧ broadcasts es = payloads

theorem Adds.of_same (h : m'.log = m.log) : Adds m m' [] :=
  ⟨[], h.trans (List.append_nil _).symm, rfl⟩

/-- Something has been logged before. -/
theorem Adds.of_note {es : List Event} (h : Adds (m.note es) m' payloads) :
    Adds m m' (broadcasts es ++ payloads) := by
  obtain ⟨es', hlog, hes'⟩ := h
  refine ⟨es ++ es', ?_, ?_⟩
  · rw [hlog, log_note, List.append_assoc]
  · rw [broadcasts_append, hes']

theorem broadcasts_cleaned (me : ℕ) (dead : List WebSocket) :
    broadcasts (dead.map (.cleaned me)) = [] := by
  have hnone : (dead.map (Event.cleaned me)).filterMap Event.message? = [] := by
    rw [List.filterMap_map]
    exact List.filterMap_eq_nil_iff.mpr fun _ _ => rfl
  rw [broadcasts, hnone]
  rfl

theorem adds_sendNext (hm : m.locked = false) (me : ℕ) (payload : String)
    (dead live : List WebSocket) : Adds m (sendNext me payload dead live m).2 [] := by
  cases live with
  | nil =>
    rw [sendNext_nil_free hm]
    split
    · exact Adds.of_same rfl
    · exact ⟨_, rfl, broadcasts_cleaned me dead⟩
  | cons ws live => exact ⟨_, rfl, rfl⟩

theorem adds_handlerTurn {ws : WebSocket} {hd : Handler} {turn : Handler × Manager}
    (h : HandlerTurn ws hd m turn) : Adds m turn.2 [] := by
  cases h with
  | stay => exact Adds.of_same rfl
  | join => exact ⟨[.appended ws, .begun ws .handshake], List.append_assoc _ _ _, rfl⟩
  | leave => exact ⟨_, rfl, rfl⟩

/-- **The gateway only adds to its log**, and a payload is broadcast just where a broadcast
starts. -/
theorem adds_step (h : g.Sound) {action : Gateway.Action} (hstep : g.step action = some g') :
    Adds g.manager g'.manager (payloadOf action).toList := by
  have hfree := h.consistent.unlocked
  cases action with
  | arrive ws =>
    simp only [Gateway.step] at hstep
    split at hstep
    · obtain rfl := Option.some.inj hstep
      exact Adds.of_same rfl
    · exact absurd hstep.symm (Option.some_ne_none _)
  | handler ws answer =>
    obtain ⟨turn, hturn, hg⟩ := Option.bind_eq_some_iff.mp hstep
    obtain rfl := Option.some.inj hg
    exact adds_handlerTurn (handlerTurn_of_turn hfree (h.handler ws) hturn)
  | broadcast payload =>
    simp only [Gateway.step] at hstep
    split at hstep
    · obtain rfl := Option.some.inj hstep
      rw [broadcast_free hfree]
      exact (adds_sendNext (m := g.manager.note [.snapshot payload]) hfree _ _ _ _).of_note
    · exact absurd hstep.symm (Option.some_ne_none _)
  | consumer answer =>
    simp only [Gateway.step] at hstep
    split at hstep
    · next p hconsumer =>
      obtain ⟨turn, hturn, hg⟩ := Option.bind_eq_some_iff.mp hstep
      obtain rfl := Option.some.inj hg
      have hproper := h.consumer
      rw [hconsumer] at hproper
      cases p with
      | sending payload ws live dead =>
        cases answer with
        | ok =>
          obtain rfl := Option.some.inj hturn
          exact adds_sendNext hfree _ _ _ _
        | error =>
          obtain rfl := Option.some.inj hturn
          have hadds := adds_sendNext (m := g.manager.note [.raised g.broadcasts ws]) hfree
          exact (hadds _ _ _ _).of_note
        | cancelled =>
          obtain rfl := Option.some.inj hturn
          exact Adds.of_same rfl
      | accepting | connectLock | disconnectLock | snapshotLock | cleanUpLock | returned | raised =>
        exact hproper.elim
    · exact absurd hstep.symm (Option.some_ne_none _)

/-- The payloads broadcast before and after a step. -/
theorem broadcasts_step (h : g.Sound) {action : Gateway.Action}
    (hstep : g.step action = some g') :
    broadcasts g'.manager.log = broadcasts g.manager.log ++ (payloadOf action).toList := by
  obtain ⟨es, hlog, hes⟩ := adds_step h hstep
  rw [hlog, broadcasts_append, hes]

/-- The payload that an action starts to broadcast. -/
def Action.payload? : Action → Option String
  | .gateway action => payloadOf action
  | _ => none

theorem gateway_callBack {upper : String → String} {s s' : Stream} {callback : Callback}
    (hstep : callBack upper s callback = some s') : s'.gateway = s.gateway := by
  obtain ⟨page, -, hs⟩ := Option.bind_eq_some_iff.mp hstep
  obtain rfl := Option.some.inj hs
  rfl

/-- The payloads broadcast before and after a step of the stream. -/
theorem broadcasts_stream {upper : String → String} {parse : String → AlertEvent} {s s' : Stream}
    (h : s.gateway.Sound) {action : Action} (hstep : step upper parse s action = some s') :
    broadcasts s'.gateway.manager.log
      = broadcasts s.gateway.manager.log ++ action.payload?.toList := by
  have hsame : s'.gateway = s.gateway → broadcasts s'.gateway.manager.log
      = broadcasts s.gateway.manager.log ++ (none : Option String).toList := by
    intro hgateway
    rw [hgateway, Option.toList_none, List.append_nil]
  cases action with
  | gateway action =>
    obtain ⟨g, hg, hs⟩ := Option.bind_eq_some_iff.mp hstep
    obtain rfl := Option.some.inj hs
    exact broadcasts_step h hg
  | deliver ws =>
    obtain ⟨message, -, hrest⟩ := Option.bind_eq_some_iff.mp hstep
    obtain ⟨page, -, hs⟩ := Option.bind_eq_some_iff.mp hrest
    obtain rfl := Option.some.inj hs
    exact hsame rfl
  | onopen | onerror | onclose | clearFeed => exact hsame (gateway_callBack hstep)
  | connect ws =>
    simp only [step] at hstep
    split at hstep
    · exact hsame (gateway_callBack hstep)
    · nomatch hstep

end Log

/-! ### The invariant -/

/-- What has come in over the sockets before `current`, and when `current` was made: none of
it was broadcast later, and nothing has been sent on `current` before. -/
structure Ordered (log : List Event) (seen : List String) (current : WebSocket)
    (delivered : List Message) (past : List String) (before after : List Event) : Prop where
  log : log = before ++ after
  seen : seen = past ++ delivered.filterMap payload?
  past : past.Sublist (broadcasts before)
  new : .appended current ∉ before

/-- Both parts are sound, and the page has one socket, `current`; what has been delivered on
a socket has been begun on it; and the counters of the page count what has come in. -/
structure Stream.Sound (upper : String → String) (parse : String → AlertEvent) (s : Stream)
    (current : WebSocket) : Prop where
  gateway : s.gateway.Sound
  page : ∃ live, s.page.Sound live ∧ ∀ ws, live = some ws → ws = current
  delivered : ∀ ws, s.delivered ws <+: begunOn ws s.gateway.manager.log
  ordered : ∃ past before after,
    Ordered s.gateway.manager.log s.seen current (s.delivered current) past before after
  displays : s.page.Displays
  total : s.page.total = s.seen.length
  fatal : s.page.fatal = s.seen.countP fun payload => IsFatal upper (parse payload)

section Sound

variable {upper : String → String} {parse : String → AlertEvent} {s s' : Stream}
  {current : WebSocket}

theorem sound_start (ws : WebSocket) : (start ws).Sound upper parse ws where
  gateway := AiopsLog.sound_start
  page := ⟨some ws, sound_load ws, fun _ h => (Option.some.inj h).symm⟩
  delivered _ := List.prefix_rfl
  ordered := ⟨[], [], [], rfl, rfl, List.Sublist.refl _, List.not_mem_nil⟩
  displays := ⟨rfl, rfl⟩
  total := rfl
  fatal := rfl

/-- What has been begun on a client is a beginning of what it is owed. -/
theorem begunOn_prefix_owed {g : Gateway} (h : g.Sound) (ws : WebSocket) :
    begunOn ws g.manager.log <+: owed ws g.manager.log := by
  rw [← h.account ws]
  exact List.prefix_append _ _

variable (h : s.Sound upper parse current)

include h

/-- The payloads that have come in over a socket are the first of those broadcast during its
stay. -/
theorem delivered_prefix_stay (ws : WebSocket) :
    (s.delivered ws).filterMap payload? <+: broadcasts (stay ws s.gateway.manager.log) := by
  rw [← filterMap_payload_owed]
  exact ((h.delivered ws).trans (begunOn_prefix_owed h.gateway ws)).filterMap _

/-- **What has come in over all the sockets is a part of what was broadcast, in its order.** -/
theorem seen_sublist : s.seen.Sublist (broadcasts s.gateway.manager.log) := by
  obtain ⟨past, before, after, hlog, hseen, hpast, hnew⟩ := h.ordered
  have hstay := (delivered_prefix_stay h current).sublist
  rw [hlog] at hstay
  rw [hseen, hlog, broadcasts_append]
  exact hpast.append (hstay.trans (broadcasts_stay_append hnew))

/-- The gateway has had a step. -/
theorem sound_gateway {action : Gateway.Action} {g : Gateway}
    (hstep : s.gateway.step action = some g) :
    Stream.Sound upper parse { s with gateway := g } current := by
  obtain ⟨more, hmore, -⟩ := adds_step h.gateway hstep
  obtain ⟨past, before, after, hlog, hseen, hpast, hnew⟩ := h.ordered
  have hlog' : g.manager.log = before ++ (after ++ more) := by
    rw [hmore, hlog, List.append_assoc]
  refine ⟨AiopsLog.sound_step h.gateway hstep, h.page, fun ws => ?_,
    ⟨past, before, after ++ more, hlog', hseen, hpast, hnew⟩, h.displays, h.total, h.fatal⟩
  show s.delivered ws <+: begunOn ws g.manager.log
  rw [hmore, begunOn_append]
  exact (h.delivered ws).trans (List.prefix_append _ _)

/-- **A message is delivered**: only on the current socket, the next one begun on it. -/
theorem sound_deliver {ws : WebSocket} {message : Message} {page : Page}
    (hnext : (begunOn ws s.gateway.manager.log)[(s.delivered ws).length]? = some message)
    (hstep : s.page.step upper (.onmessage ws (dataOf parse message)) = some page) :
    Stream.Sound upper parse { s with
      page := page
      delivered := Function.update s.delivered ws (s.delivered ws ++ [message])
      seen := s.seen ++ (payload? message).toList } current := by
  obtain ⟨live, hpage, hlive⟩ := h.page
  obtain ⟨past, before, after, hlog, hseen, hpast, hnew⟩ := h.ordered
  have hshows := shows_step hstep
  have hcurrent : ws = current := by
    cases Page.stepped_of_step hstep with
    | onmessage _ hopened => exact hlive ws ((hpage.live_iff ws).mp (hopened ▸ live_opened))
  subst hcurrent
  have halerts : (Callback.onmessage ws (dataOf parse message)).alert?
      = (payload? message).map parse := by
    cases message <;> rfl
  refine ⟨h.gateway, ⟨live, hpage.step hstep, hlive⟩, fun c => ?_,
    ⟨past, before, after, hlog, ?_, hpast, hnew⟩, hshows.displays h.displays, ?_, ?_⟩
  · show Function.update s.delivered ws (s.delivered ws ++ [message]) c <+: _
    by_cases hc : c = ws
    · -- what has been delivered is a beginning of what has begun, and `message` comes next
      subst hc
      obtain ⟨rest, hrest⟩ := h.delivered c
      rw [← hrest, List.getElem?_append_right (Nat.le_refl _), Nat.sub_self] at hnext
      obtain ⟨rest, rfl⟩ : ∃ rest', rest = message :: rest' := by
        cases rest with
        | nil => nomatch hnext
        | cons x rest => exact ⟨rest, by rw [Option.some.inj hnext]⟩
      rw [Function.update_self, ← hrest]
      exact ⟨rest, (List.append_cons _ _ _).symm⟩
    · rw [Function.update_of_ne hc]
      exact h.delivered c
  · show s.seen ++ _ = past ++ (Function.update s.delivered ws _ ws).filterMap payload?
    rw [Function.update_self, List.filterMap_append, ← List.append_assoc, ← hseen]
    cases message <;> rfl
  · show page.total = (s.seen ++ (payload? message).toList).length
    rw [hshows.total, halerts, h.total, List.length_append]
    cases message <;> rfl
  · show page.fatal = (s.seen ++ (payload? message).toList).countP _
    rw [hshows.fatal, halerts, h.fatal, List.countP_append]
    cases message <;> rfl

/-- A callback that brings no message, and makes no socket. -/
theorem sound_callBack {callback : Callback} (halert : callback.alert? = none)
    (hlive : ∀ live ws, callback.live live = some ws → live = some ws)
    (hstep : callBack upper s callback = some s') : s'.Sound upper parse current := by
  obtain ⟨page, hpage, hs⟩ := Option.bind_eq_some_iff.mp hstep
  obtain rfl := Option.some.inj hs
  obtain ⟨live, hsound, hcurrent⟩ := h.page
  have hshows := shows_step hpage
  have htotal := hshows.total
  have hfatal := hshows.fatal
  rw [halert] at htotal hfatal
  exact ⟨h.gateway, ⟨_, hsound.step hpage, fun ws hws => hcurrent ws (hlive live ws hws)⟩,
    h.delivered, h.ordered, hshows.displays h.displays, htotal.trans h.total, hfatal.trans h.fatal⟩

/-- **The page makes its next socket**, which the gateway has not met: whatever it will be
sent is broadcast from now on. -/
theorem sound_connect {ws : WebSocket} (habsent : s.gateway.handler ws = .absent)
    (hstep : callBack upper s (.connect ws) = some s') : s'.Sound upper parse ws := by
  obtain ⟨page, hpage, hs⟩ := Option.bind_eq_some_iff.mp hstep
  obtain rfl := Option.some.inj hs
  obtain ⟨live, hsound, -⟩ := h.page
  have hshows := shows_step hpage
  have hnew : .appended ws ∉ s.gateway.manager.log := by
    have hproper := h.gateway.handler ws
    rwa [habsent] at hproper
  have hnone : s.delivered ws = [] := by
    have howed := (h.delivered ws).trans (begunOn_prefix_owed h.gateway ws)
    rw [owed_of_not_mem hnew] at howed
    exact List.prefix_nil.mp howed
  refine ⟨h.gateway, ⟨some ws, hsound.step hpage, fun c hc => (Option.some.inj hc).symm⟩,
    h.delivered, ⟨s.seen, s.gateway.manager.log, [], (List.append_nil _).symm, ?_, seen_sublist h,
      hnew⟩, hshows.displays h.displays, hshows.total.trans h.total, hshows.fatal.trans h.fatal⟩
  show s.seen = s.seen ++ (s.delivered ws).filterMap payload?
  rw [hnone, List.filterMap_nil, List.append_nil]

/-- **Every step keeps the stream sound.** -/
theorem sound_step {action : Action} (hstep : step upper parse s action = some s') :
    ∃ current', s'.Sound upper parse current' := by
  cases action with
  | gateway action =>
    obtain ⟨g, hg, hs⟩ := Option.bind_eq_some_iff.mp hstep
    obtain rfl := Option.some.inj hs
    exact ⟨current, sound_gateway h hg⟩
  | deliver ws =>
    obtain ⟨message, hnext, hrest⟩ := Option.bind_eq_some_iff.mp hstep
    obtain ⟨page, hpage, hs⟩ := Option.bind_eq_some_iff.mp hrest
    obtain rfl := Option.some.inj hs
    exact ⟨current, sound_deliver h hnext hpage⟩
  | onopen | onerror | clearFeed => exact ⟨current, sound_callBack h rfl (fun _ _ => id) hstep⟩
  | onclose ws =>
    have hlive : ∀ live c, (Callback.onclose ws).live live = some c → live = some c := by
      intro live c hc
      exact absurd hc (Option.some_ne_none c).symm
    exact ⟨current, sound_callBack h rfl hlive hstep⟩
  | connect ws =>
    simp only [step] at hstep
    split at hstep
    · next habsent => exact ⟨ws, sound_connect h habsent hstep⟩
    · nomatch hstep

end Sound

/-! ### Every run -/

/-- **No alert is counted twice, and none is left out on a socket**: whatever the
interleaving of the gateway's clients and broadcasts with the deliveries, closings and
reconnections of the page, the alerts it counts are a part of those broadcast, in their
order; those that come in over one socket are broadcasts next to each other, from the
first one of its stay on; and the two figures are the number of these alerts and of the
fatal ones among them. -/
theorem alerts_once {upper : String → String} {parse : String → AlertEvent} {ws : WebSocket}
    {actions : List Action} {s : Stream}
    (hrun : Lts.run (step upper parse) actions (start ws) = some s) :
    s.seen.Sublist (broadcasts s.gateway.manager.log) ∧
      (∀ c, s.delivered c <+: owed c s.gateway.manager.log ∧
        (s.delivered c).filterMap payload? <:+: broadcasts s.gateway.manager.log) ∧
      s.page.statTotal = s.seen.length ∧
      s.page.statFatal = s.seen.countP fun payload => IsFatal upper (parse payload) := by
  obtain ⟨current, h⟩ : ∃ current, s.Sound upper parse current :=
    Lts.run_invariant (I := fun t => ∃ current, Stream.Sound upper parse t current)
      (P := fun _ => True) (fun _ _ _ ⟨_, hs⟩ _ hstep => sound_step hs hstep)
      ⟨ws, sound_start ws⟩ (fun _ _ => trivial) hrun
  refine ⟨seen_sublist h, fun c => ⟨?_, ?_⟩, ?_, ?_⟩
  · exact (h.delivered c).trans (begunOn_prefix_owed h.gateway c)
  · exact (delivered_prefix_stay h c).isInfix.trans broadcasts_stay_infix
  · rw [h.displays.1, h.total]
  · rw [h.displays.2, h.fatal]

/-- The socket of the page closes after `a`; `b` is broadcast before it has made another, and
`c` when that is there. -/
def awayForOne : List Action :=
  [.gateway (.arrive 1), .gateway (.handler 1 .ok), .onopen 1, .gateway (.broadcast "a"),
    .gateway (.consumer .ok), .deliver 1, .deliver 1, .onclose 1, .gateway (.broadcast "b"),
    .gateway (.consumer .ok), .gateway (.handler 1 .error), .connect 2, .gateway (.arrive 2),
    .gateway (.handler 2 .ok), .onopen 2, .gateway (.broadcast "c"), .deliver 2, .deliver 2]

/-- What was sent on the closed socket is not shown. -/
theorem alerts_once_awayForOne :
    ∃ s, Lts.run (step id fun _ => ⟨none, none, none, none, none, none, none, ""⟩) awayForOne
        (start 1) = some s ∧
      s.seen = ["a", "c"] ∧ broadcasts s.gateway.manager.log = ["a", "b", "c"] ∧
      s.page.statTotal = 2 :=
  ⟨_, rfl, rfl, rfl, (@alerts_once id (fun _ => ⟨none, none, none, none, none, none, none, ""⟩) 1
    awayForOne _ rfl).2.2.1⟩

end DemoStream

end AiopsLog
