import AiopsLog.Gateway.ConnectionManager

/-!
# The live alerts, client by client

The handlers of `/ws/v1/live-alerts` register their clients and take them out again,
and the consumer loop broadcasts one payload after the other. A broadcast sends to a
copy of the list that it takes at its start; between two of its sends clients come and
go, and the sends to others raise.

What a client gets is nevertheless determined by its own history and by the copies
taken: the welcome first, and then the payload of every broadcast whose copy was taken
between its append and its removal (`AiopsLog.owed`). The sends begun on it are these,
up to the one payload that the broadcast in progress has still to send it. The
invariant says just that; at its end a broadcast owes nothing, and a client that is
appended while one is in progress is not on its copy.
-/

namespace AiopsLog

open Py

/-! ### The system -/

/-- Where the handler of a client stands. -/
inductive Handler where
  | absent : Handler
  /-- In `manager.connect`. -/
  | connecting : Point → Handler
  /-- Sending the welcome. -/
  | handshaking : Handler
  /-- In `websocket.receive_text`. -/
  | receiving : Handler
  /-- In the `manager.disconnect` of the `finally` clause. -/
  | disconnecting : Point → Handler
  | ended : Handler

/-- The consumer loop: between two broadcasts, in one, or cancelled in one. -/
inductive Consumer where
  | idle : Consumer
  | broadcasting : Point → Consumer
  | cancelled : Point → Consumer

/-- The gateway: the manager, the handler of each client, the consumer loop, and the
number of its broadcasts. -/
structure Gateway where
  manager : Manager
  handler : WebSocket → Handler
  consumer : Consumer
  broadcasts : ℕ

/-- The `connect` of a handler has had a turn; when it returns, the `send_text` of the
welcome begins in the same turn. -/
def welcome (ws : WebSocket) : Point × Manager → Handler × Manager
  | (.returned, m) => (.handshaking, m.note [.begun ws .handshake])
  | (.raised _, m) => (.ended, m)
  | (p, m) => (.connecting p, m)

/-- The `disconnect` of a handler has had a turn. -/
def leave : Point × Manager → Handler × Manager
  | (.returned, m) | (.raised _, m) => (.ended, m)
  | (p, m) => (.disconnecting p, m)

/-- A turn of `websocket_live_alerts`. Whatever ends the welcome or the loop of
`receive_text`, the `finally` clause disconnects. -/
def websocketLiveAlerts (ws : WebSocket) :
    Handler → Answer → Manager → Option (Handler × Manager)
  | .connecting p, answer, m => (resume 0 p answer m).map (welcome ws)
  | .handshaking, .ok, m | .receiving, .ok, m => some (.receiving, m)
  | .handshaking, _, m | .receiving, _, m => some (leave (disconnect ws m))
  | .disconnecting p, answer, m => (resume 0 p answer m).map leave
  | _, _, _ => none

/-- Where the consumer loop stands once a broadcast, at the point `p` before, has had a
turn. -/
def Consumer.next (p : Point) : Point → Consumer
  | .returned => .idle
  | .raised _ => .cancelled p
  | p' => .broadcasting p'

namespace Gateway

/-- Before any client. -/
def start : Gateway := ⟨.new, fun _ => .absent, .idle, 0⟩

/-- A client arrives, a handler resumes, the consumer loop starts a broadcast, or its
broadcast resumes. -/
inductive Action where
  | arrive : WebSocket → Action
  | handler : WebSocket → Answer → Action
  | broadcast : String → Action
  | consumer : Answer → Action

/-- The step of the system. -/
def step (g : Gateway) : Action → Option Gateway
  | .arrive ws => match g.handler ws with
    | .absent => some { g with
        handler := Function.update g.handler ws (.connecting (.accepting ws)) }
    | _ => none
  | .handler ws answer => do
    let turn ← websocketLiveAlerts ws (g.handler ws) answer g.manager
    pure { g with manager := turn.2, handler := Function.update g.handler ws turn.1 }
  | .broadcast payload => match g.consumer with
    | .idle =>
      let turn := AiopsLog.broadcast (g.broadcasts + 1) payload g.manager
      some { g with
        manager := turn.2
        consumer := .next (.snapshotLock payload) turn.1
        broadcasts := g.broadcasts + 1 }
    | _ => none
  | .consumer answer => match g.consumer with
    | .broadcasting p => do
      let turn ← resume g.broadcasts p answer g.manager
      pure { g with manager := turn.2, consumer := .next p turn.1 }
    | _ => none

end Gateway

/-! ### What a client is owed -/

/-- The calls of `send_text` begun on a client. -/
def begunOn (ws : WebSocket) : List Event → List Message :=
  List.filterMap fun
    | .begun ws' message => if ws' = ws then some message else none
    | _ => none

/-- What a broadcast sends to the clients on its copy. -/
def Event.message? : Event → Option Message
  | .snapshot payload => some (.payload payload)
  | _ => none

/-- What happens between the append of a client and its removal. -/
def stay (ws : WebSocket) : List Event → List Event :=
  History.during (· = .appended ws) (·.Removes ws)

/-- **What a client is owed**: the welcome, and the payloads of the broadcasts whose copy
is taken between its append and its removal. -/
def owed (ws : WebSocket) (log : List Event) : List Message :=
  if .appended ws ∈ log then .handshake :: (stay ws log).filterMap Event.message? else []

/-- What a broadcast at this point has still to send to a client. -/
def Point.ahead (ws : WebSocket) : Point → List Message
  | .sending payload _ live _ => if ws ∈ live then [.payload payload] else []
  | _ => []

/-- What the broadcast in progress has still to send to a client, or had when it was
cancelled. -/
def Consumer.ahead (ws : WebSocket) : Consumer → List Message
  | .idle => []
  | .broadcasting p | .cancelled p => p.ahead ws

/-- The events that leave alone what a client is owed. -/
def Event.Idle (ws : WebSocket) (e : Event) : Prop := e ≠ .appended ws ∧ e.message? = none

/-- The events that bear on what a client is owed: its own comings and goings, and the
broadcasts. -/
def Event.Concerns (ws : WebSocket) (e : Event) : Prop :=
  e = .appended ws ∨ e.Removes ws ∨ e.message? ≠ none

instance (ws : WebSocket) (e : Event) : Decidable (e.Concerns ws) :=
  inferInstanceAs (Decidable (_ ∨ _ ∨ _))

section Owed

variable {ws : WebSocket} {log es : List Event} {e : Event}

theorem once_appended (h : History.Legal Event.LegalAfter log) :
    History.Once (· = .appended ws) log := by
  rintro before e after hlog rfl x hx rfl
  exact h before _ after hlog hx

theorem owed_of_not_mem (h : .appended ws ∉ log) : owed ws log = [] := if_neg h

theorem owed_append_appended (h : .appended ws ∉ log) :
    owed ws (log ++ [.appended ws]) = [.handshake] := by
  have hbefore : ∀ e ∈ log, ¬e = .appended ws := by
    rintro e he rfl
    exact h he
  rw [owed, if_pos (by simp), stay, History.during_split hbefore rfl]
  rfl

/-- **One more event** adds what it broadcasts, if the client is registered. -/
theorem owed_append_singleton (honce : History.Once (· = .appended ws) log)
    (he : e ≠ .appended ws) [Decidable (Registered ws log)] :
    owed ws (log ++ [e])
      = owed ws log ++ if Registered ws log then e.message?.toList else [] := by
  classical
  by_cases happ : .appended ws ∈ log
  · have honce' : History.Once (· = .appended ws) (log ++ [e]) :=
      History.legal_append_singleton.mpr ⟨honce, fun h => absurd h he⟩
    have hremoves : e.Removes ws → e.message? = none := by
      cases e with
      | snapshot => exact False.elim
      | appended | begun | raised | disconnected | cleaned => exact fun _ => rfl
    rw [owed, owed, if_pos (List.mem_append_left _ happ), if_pos happ, stay,
      History.during_append_singleton honce']
    by_cases hreg : Registered ws log
    · -- an event that ends the stay broadcasts nothing
      rw [if_pos hreg]
      by_cases hrem : e.Removes ws
      · rw [if_neg fun h => h.2 hrem, hremoves hrem]
        simp
      · rw [if_pos ⟨hreg, hrem⟩, List.filterMap_append, List.cons_append]
        cases hmessage : e.message? with
        | none => simp [hmessage]
        | some => simp [hmessage]
    · rw [if_neg hreg, if_neg fun h => hreg h.1, List.append_nil]
  · have hreg : ¬Registered ws log := not_registered happ
    have hout : .appended ws ∉ log ++ [e] := by
      simpa [happ] using he.symm
    rw [owed_of_not_mem hout, owed_of_not_mem happ, if_neg hreg, List.append_nil]

theorem idle_begun (c : WebSocket) (message : Message) : (Event.begun c message).Idle ws :=
  ⟨nofun, rfl⟩

theorem idle_raised (n : ℕ) (c : WebSocket) : (Event.raised n c).Idle ws := ⟨nofun, rfl⟩

theorem idle_disconnected (c : WebSocket) : (Event.disconnected c).Idle ws := ⟨nofun, rfl⟩

theorem idle_cleaned (n : ℕ) (c : WebSocket) : (Event.cleaned n c).Idle ws := ⟨nofun, rfl⟩

theorem owed_append_idle (honce : History.Once (· = .appended ws) log)
    (hes : ∀ e ∈ es, e.Idle ws) : owed ws (log ++ es) = owed ws log := by
  classical
  induction es using List.reverseRecOn with
  | nil => rw [List.append_nil]
  | append_singleton es e ih =>
    have hes' : ∀ x ∈ es, x.Idle ws := fun x hx => hes x (List.mem_append_left _ hx)
    obtain ⟨he, hmessage⟩ := hes e (by simp)
    have honce' : History.Once (· = .appended ws) (log ++ es) :=
      History.legal_append honce fun x hx _ happ => absurd happ (hes' x hx).1
    rw [← List.append_assoc, owed_append_singleton honce' he, ih hes', hmessage]
    simp

/-- **What a client is owed is no other client's affair.** -/
theorem owed_filter : owed ws (log.filter fun e => e.Concerns ws) = owed ws log := by
  have hmessage : ((stay ws log).filter fun e => e.Concerns ws).filterMap Event.message?
      = (stay ws log).filterMap Event.message? := by
    rw [List.filterMap_filter]
    congr 1
    funext e
    by_cases he : e.message? = none
    · rw [he, ite_self]
    · rw [if_pos (decide_eq_true (.inr (.inr he)))]
  have hstay : stay ws (log.filter fun e => e.Concerns ws)
      = (stay ws log).filter fun e => e.Concerns ws :=
    History.during_filter (fun _ => .inl) fun _ hx => .inr (.inl hx)
  rw [owed, owed, hstay, hmessage]
  simp only [List.mem_filter, decide_eq_true_eq, Event.Concerns, true_or, and_true]

theorem begunOn_append : begunOn ws (log ++ es) = begunOn ws log ++ begunOn ws es :=
  List.filterMap_append

end Owed

/-! ### The invariant -/

/-- A handler that has not appended its client has only a `connect` before it; one that greets
or listens has appended it, and where one has ended it is not registered; none is ever suspended
on the lock. -/
def Handler.Proper (ws : WebSocket) (log : List Event) : Handler → Prop
  | .absent => .appended ws ∉ log
  | .connecting p => p = .accepting ws ∧ .appended ws ∉ log
  | .handshaking | .receiving => .appended ws ∈ log
  | .disconnecting _ => False
  | .ended => ¬Registered ws log

/-- A broadcast is suspended in its sends only; it has no client twice before it, and
those it takes for dead have raised in it. -/
def Consumer.Proper (n : ℕ) (log : List Event) : Consumer → Prop
  | .broadcasting (.sending _ _ live dead) => live.Nodup ∧ ∀ ws ∈ dead, .raised n ws ∈ log
  | .broadcasting _ => False
  | _ => True

/-- **The account of every client is settled**: what has been begun on it and what the
broadcast in progress has still to send it are what it is owed. -/
structure Gateway.Sound (g : Gateway) : Prop where
  consistent : g.manager.Consistent
  handler : ∀ ws, (g.handler ws).Proper ws g.manager.log
  consumer : g.consumer.Proper g.broadcasts g.manager.log
  account : ∀ ws, begunOn ws g.manager.log ++ g.consumer.ahead ws = owed ws g.manager.log

theorem sound_start : Gateway.start.Sound where
  consistent := consistent_new
  handler _ := List.not_mem_nil
  consumer := trivial
  account _ := rfl

/-! ### The turns of a broadcast -/

section Broadcast

variable {n : ℕ} {m : Manager} {p : Point} {payload : String} {live dead : List WebSocket}

/-- **The rest of a broadcast from the next send on**: what its loop had before it is what
it has begun and has still before it. -/
theorem account_sendNext (hm : m.locked = false) (hlive : live.Nodup) (ws : WebSocket) :
    begunOn ws (sendNext n payload dead live m).2.log
        ++ (Consumer.next p (sendNext n payload dead live m).1).ahead ws
      = begunOn ws m.log ++ if ws ∈ live then [.payload payload] else [] := by
  cases live with
  | nil =>
    rw [sendNext_nil_free hm, if_neg List.not_mem_nil, Consumer.next, Consumer.ahead]
    split
    · rfl
    · rw [Manager.clean, begunOn_append]
      have hnone : begunOn ws (dead.map (Event.cleaned n)) = [] := by
        simp [begunOn]
      rw [hnone, List.append_nil]
  | cons c live =>
    have hout : c ∉ live := (List.nodup_cons.mp hlive).1
    rw [sendNext_cons, log_note, begunOn_append, List.append_assoc]
    show begunOn ws m.log ++ (begunOn ws [.begun c (.payload payload)]
      ++ (Point.sending payload c live dead).ahead ws) = _
    rw [Point.ahead]
    by_cases hws : c = ws
    · -- the payload moves from what is ahead to what has begun: the list has no client twice
      subst hws
      simp [begunOn, hout]
    · simp [begunOn, hws, Ne.symm hws]

/-- What a broadcast does from its next send on changes what no client is owed. -/
theorem owed_sendNext (hm : m.Consistent) (ws : WebSocket) :
    owed ws (sendNext n payload dead live m).2.log = owed ws m.log := by
  have honce : History.Once (· = .appended ws) m.log := once_appended hm.legal
  cases live with
  | nil =>
    rw [sendNext_nil_free hm.unlocked]
    split
    · rfl
    · refine owed_append_idle honce fun e he => ?_
      obtain ⟨c, -, rfl⟩ := List.mem_map.mp he
      exact idle_cleaned n c
  | cons c live =>
    rw [sendNext_cons]
    exact owed_append_idle honce (List.forall_mem_singleton.mpr (idle_begun c _))

theorem proper_sendNext (hm : m.locked = false) (hlive : live.Nodup)
    (hdead : ∀ ws ∈ dead, .raised n ws ∈ m.log) :
    (Consumer.next p (sendNext n payload dead live m).1).Proper n
      (sendNext n payload dead live m).2.log := by
  cases live with
  | nil =>
    rw [sendNext_nil_free hm]
    trivial
  | cons c live =>
    rw [sendNext_cons]
    exact ⟨(List.nodup_cons.mp hlive).2, fun ws hws => List.mem_append_left _ (hdead ws hws)⟩

end Broadcast

/-! ### The turns of a handler -/

/-- **A turn of a handler**, the lock being free: nothing, or its client appended and its
welcome begun at once, or its client out and its end. -/
inductive HandlerTurn (ws : WebSocket) (hd : Handler) (m : Manager) : Handler × Manager → Prop where
  | stay {hd' : Handler} (h : hd'.Proper ws m.log) : HandlerTurn ws hd m (hd', m)
  | join (h : hd = .connecting (.accepting ws)) :
      HandlerTurn ws hd m (.handshaking, (m.register ws).note [.begun ws .handshake])
  | leave : HandlerTurn ws hd m (.ended, m.unregister ws)

/-- **Every turn of a handler is one of the three.** -/
theorem handlerTurn_of_turn {ws : WebSocket} {hd : Handler} {m : Manager} {answer : Answer}
    {turn : Handler × Manager} (hm : m.locked = false) (hproper : hd.Proper ws m.log)
    (hturn : websocketLiveAlerts ws hd answer m = some turn) : HandlerTurn ws hd m turn := by
  have hleave : some (leave (disconnect ws m)) = some turn → HandlerTurn ws hd m turn := by
    intro h
    rw [disconnect_free hm] at h
    exact Option.some.inj h ▸ .leave
  cases hd with
  | absent => nomatch hturn
  | connecting p =>
    obtain ⟨rfl, hnew⟩ := hproper
    cases answer with
    | ok =>
      have hjoin : some (welcome ws (connectAccepted ws m)) = some turn := hturn
      rw [connectAccepted_free hm] at hjoin
      exact Option.some.inj hjoin ▸ .join rfl
    | error | cancelled => exact Option.some.inj hturn ▸ .stay (not_registered hnew)
  | handshaking | receiving =>
    cases answer with
    | ok => exact Option.some.inj hturn ▸ .stay hproper
    | error | cancelled => exact hleave hturn
  | disconnecting => exact hproper.elim
  | ended => nomatch hturn

/-! ### The steps -/

section Step

variable {g g' : Gateway} (h : g.Sound)

include h

/-- A handler that has not moved, its client not having been appended meanwhile. -/
theorem proper_append {c : WebSocket} {es : List Event} (hes : .appended c ∉ es) :
    (g.handler c).Proper c (g.manager.log ++ es) := by
  have hnew : .appended c ∉ g.manager.log → .appended c ∉ g.manager.log ++ es := fun hout hmem =>
    (List.mem_append.mp hmem).elim hout hes
  have hbefore := h.handler c
  cases hg : g.handler c with
  | absent =>
    rw [hg] at hbefore
    exact hnew hbefore
  | connecting p =>
    rw [hg] at hbefore
    exact ⟨hbefore.1, hnew hbefore.2⟩
  | disconnecting p =>
    rw [hg] at hbefore
    exact hbefore
  | handshaking | receiving =>
    rw [hg] at hbefore
    exact List.mem_append_left _ hbefore
  | ended =>
    rw [hg] at hbefore
    refine fun hregistered => hbefore ((History.since_append fun e he => ?_).mp hregistered).1
    rintro rfl
    exact hes he

/-- The handlers once one of them has moved, and no other's client has been appended. -/
theorem proper_update {ws : WebSocket} {hd : Handler} {es : List Event}
    (hown : hd.Proper ws (g.manager.log ++ es)) (hes : ∀ c, .appended c ∈ es → c = ws)
    (c : WebSocket) : (Function.update g.handler ws hd c).Proper c (g.manager.log ++ es) := by
  by_cases hc : c = ws
  · rw [hc, Function.update_self]
    exact hown
  · rw [Function.update_of_ne hc]
    exact proper_append h fun hmem => hc (hes c hmem)

/-- The consumer loop, its broadcast having begun nothing meanwhile. -/
theorem proper_of_more {log : List Event} (hlog : ∀ e ∈ g.manager.log, e ∈ log) :
    g.consumer.Proper g.broadcasts log := by
  have hconsumer := h.consumer
  cases hg : g.consumer with
  | idle | cancelled => trivial
  | broadcasting p =>
    rw [hg] at hconsumer
    cases p with
    | sending => exact ⟨hconsumer.1, fun ws hws => hlog _ (hconsumer.2 ws hws)⟩
    | accepting | connectLock | disconnectLock | snapshotLock | cleanUpLock | returned | raised =>
      exact hconsumer

/-- A client that is registered is owed the welcome, which is begun on it, and nothing else. -/
theorem account_join {ws : WebSocket} (hnew : .appended ws ∉ g.manager.log) (c : WebSocket) :
    begunOn c ((g.manager.register ws).note [.begun ws .handshake]).log ++ g.consumer.ahead c
      = owed c ((g.manager.register ws).note [.begun ws .handshake]).log := by
  have hwelcome : owed c ((g.manager.register ws).note [.begun ws .handshake]).log
      = owed c (g.manager.register ws).log :=
    owed_append_idle (once_appended (h.consistent.register hnew).legal)
      (List.forall_mem_singleton.mpr (idle_begun ws _))
  have hbegun : begunOn c ((g.manager.register ws).note [.begun ws .handshake]).log
      = begunOn c g.manager.log ++ if ws = c then [.handshake] else [] := by
    rw [log_note, Manager.register, begunOn_append, begunOn_append, List.append_assoc]
    by_cases hc : ws = c
    · simp [begunOn, hc]
    · simp [begunOn, hc]
  have haccount := h.account c
  rw [hwelcome, hbegun]
  by_cases hc : ws = c
  · -- nothing has been begun on the client, and it is not on the copy of a broadcast
    subst hc
    rw [owed_of_not_mem hnew] at haccount
    obtain ⟨hnone, hahead⟩ := List.append_eq_nil_iff.mp haccount
    rw [hnone, hahead, Manager.register, owed_append_appended hnew]
    simp
  · rw [if_neg hc, List.append_nil, haccount]
    have hidle : (Event.appended ws).Idle c := ⟨fun heq => hc (Event.appended.inj heq), rfl⟩
    exact (owed_append_idle (once_appended h.consistent.legal)
      (List.forall_mem_singleton.mpr hidle)).symm

/-- Nothing is owed for a disconnect. -/
theorem account_leave (ws c : WebSocket) :
    begunOn c (g.manager.unregister ws).log ++ g.consumer.ahead c
      = owed c (g.manager.unregister ws).log := by
  have hidle : owed c (g.manager.unregister ws).log = owed c g.manager.log :=
    owed_append_idle (once_appended h.consistent.legal)
      (List.forall_mem_singleton.mpr (idle_disconnected ws))
  show begunOn c (g.manager.log ++ [.disconnected ws]) ++ g.consumer.ahead c = _
  rw [hidle, ← h.account c, begunOn_append]
  simp [begunOn]

/-- **A handler has a turn.** -/
theorem sound_handlerTurn {ws : WebSocket} {turn : Handler × Manager}
    (hturn : HandlerTurn ws (g.handler ws) g.manager turn) :
    Gateway.Sound { g with
      manager := turn.2, handler := Function.update g.handler ws turn.1 } := by
  cases hturn with
  | stay hproper =>
    have hquiet : ∀ c, .appended c ∈ ([] : List Event) → c = ws := fun c hmem =>
      absurd hmem List.not_mem_nil
    have hhandler := fun c => @proper_update g h ws _ [] (by rwa [List.append_nil]) hquiet c
    rw [List.append_nil] at hhandler
    exact ⟨h.consistent, hhandler, h.consumer, h.account⟩
  | join hconnecting =>
    have hnew : .appended ws ∉ g.manager.log := by
      have hws := h.handler ws
      rw [hconnecting] at hws
      exact hws.2
    have hregister := h.consistent.register hnew
    have hhandler : ∀ c, (Function.update g.handler ws .handshaking c).Proper c
        (g.manager.log ++ ([.appended ws] ++ [.begun ws .handshake])) := by
      refine proper_update h ?_ fun c hmem => ?_
      · exact List.mem_append_right _ List.mem_cons_self
      · simpa using hmem
    rw [← List.append_assoc] at hhandler
    have hquiet : ∀ e ∈ [Event.begun ws .handshake], e.Quiet 0 :=
      List.forall_mem_singleton.mpr trivial
    exact ⟨hregister.note hquiet, hhandler,
      proper_of_more h fun e he => List.mem_append_left _ (List.mem_append_left _ he),
      account_join h hnew⟩
  | leave =>
    have hout : ¬Registered ws (g.manager.log ++ [.disconnected ws]) := fun hregistered =>
      ((registered_append_disconnected ws).mp hregistered).2 rfl
    have hquiet : ∀ c, .appended c ∈ [Event.disconnected ws] → c = ws := fun c hmem =>
      Event.noConfusion (List.mem_singleton.mp hmem)
    exact ⟨h.consistent.unregister ws, proper_update h hout hquiet,
      proper_of_more h fun e he => List.mem_append_left _ he, account_leave h ws⟩

/-- **A broadcast has a turn** that has logged `es` so far and goes on with its next send,
the clients before it being just those that are owed its payload still. -/
theorem sound_sendNext {n : ℕ} {p : Point} {payload : String} {live dead : List WebSocket}
    {es : List Event} (hes : ∀ e ∈ es, e.Quiet n) (hlive : live.Nodup)
    (hdead : ∀ ws ∈ dead, .raised n ws ∈ (g.manager.note es).log)
    (haccount : ∀ ws, begunOn ws (g.manager.note es).log
      ++ (if ws ∈ live then [.payload payload] else []) = owed ws (g.manager.note es).log) :
    Gateway.Sound { g with
      manager := (sendNext n payload dead live (g.manager.note es)).2
      consumer := .next p (sendNext n payload dead live (g.manager.note es)).1
      broadcasts := n } := by
  have hm := h.consistent.note hes
  have hturn : Turn n (.cleanUpLock dead) (g.manager.note es)
      (sendNext n payload dead live (g.manager.note es)) :=
    turn_sent hm.unlocked fun _ => id
  refine ⟨hturn.consistent hm nofun hdead, fun c => ?_,
    proper_sendNext hm.unlocked hlive hdead, fun c => ?_⟩
  · obtain ⟨es', hlog, happended, -⟩ := hturn.exists_log
    simp only [hlog, log_note, List.append_assoc]
    refine proper_append h fun hmem => ?_
    rcases List.mem_append.mp hmem with hmem | hmem
    · exact absurd rfl (hes _ hmem).ne_appended
    · nomatch happended c hmem
  · rw [account_sendNext hm.unlocked hlive c, haccount c]
    exact (owed_sendNext hm c).symm

/-- **A broadcast starts**: its copy holds just the registered clients, and each of them is
owed one payload more. -/
theorem sound_broadcast (payload : String) (hidle : g.consumer = .idle) :
    Gateway.Sound { g with
      manager := (broadcast (g.broadcasts + 1) payload g.manager).2
      consumer := .next (.snapshotLock payload) (broadcast (g.broadcasts + 1) payload g.manager).1
      broadcasts := g.broadcasts + 1 } := by
  classical
  have hquiet : ∀ e ∈ [Event.snapshot payload], e.Quiet (g.broadcasts + 1) :=
    List.forall_mem_singleton.mpr trivial
  rw [broadcast_free h.consistent.unlocked]
  refine sound_sendNext h hquiet h.consistent.nodup nofun fun ws => ?_
  have hbegun : begunOn ws (g.manager.note [.snapshot payload]).log = begunOn ws g.manager.log := by
    rw [log_note, begunOn_append]
    exact List.append_nil _
  have haccount := h.account ws
  rw [hidle, Consumer.ahead, List.append_nil] at haccount
  have hother : Event.snapshot payload ≠ .appended ws := nofun
  -- the copy is the list, and who is in the list is registered
  rw [hbegun, haccount, log_note, owed_append_singleton (once_appended h.consistent.legal) hother]
  simp only [h.consistent.mem_iff, Event.message?, Option.toList_some]

/-- A broadcast resumes. -/
theorem sound_resume {p : Point} {answer : Answer} {turn : Point × Manager}
    (hconsumer : g.consumer = .broadcasting p)
    (hturn : resume g.broadcasts p answer g.manager = some turn) :
    Gateway.Sound { g with manager := turn.2, consumer := .next p turn.1 } := by
  have hproper := h.consumer
  rw [hconsumer] at hproper
  cases p with
  | sending payload ws live dead =>
    obtain ⟨hlive, hdead⟩ := hproper
    have haccount : ∀ c, begunOn c g.manager.log
        ++ (if c ∈ live then [.payload payload] else []) = owed c g.manager.log := by
      intro c
      have hc := h.account c
      rwa [hconsumer] at hc
    cases answer with
    | ok =>
      obtain rfl := Option.some.inj hturn
      have hsound := @sound_sendNext g h g.broadcasts (.sending payload ws live dead) payload live
        dead [] nofun hlive
      rw [note_nil] at hsound
      exact hsound hdead haccount
    | error =>
      obtain rfl := Option.some.inj hturn
      refine @sound_sendNext g h g.broadcasts (.sending payload ws live dead) payload live
        (dead ++ [ws]) [.raised g.broadcasts ws] (List.forall_mem_singleton.mpr rfl) hlive
        (fun c hc => ?_) fun c => ?_
      · rcases List.mem_append.mp hc with hc | hc
        · exact List.mem_append_left _ (hdead c hc)
        · exact List.mem_append_right _ (List.mem_singleton.mp hc ▸ List.mem_singleton_self _)
      · have hidle : ∀ e ∈ [Event.raised g.broadcasts ws], e.Idle c :=
          List.forall_mem_singleton.mpr (idle_raised _ ws)
        rw [log_note, owed_append_idle (once_appended h.consistent.legal) hidle, ← haccount c,
          begunOn_append]
        simp [begunOn]
    | cancelled =>
      obtain rfl := Option.some.inj hturn
      exact ⟨h.consistent, h.handler, trivial, haccount⟩
  | accepting | connectLock | disconnectLock | snapshotLock | cleanUpLock | returned | raised =>
    exact hproper.elim

/-- **Every step keeps every account settled.** -/
theorem sound_step {action : Gateway.Action} (hstep : g.step action = some g') : g'.Sound := by
  cases action with
  | arrive ws =>
    simp only [Gateway.step] at hstep
    split at hstep
    · next habsent =>
      obtain rfl := Option.some.inj hstep
      have hnew := h.handler ws
      rw [habsent] at hnew
      have hconnecting : Handler.Proper ws (g.manager.log ++ [])
          (.connecting (.accepting ws)) := by
        rw [List.append_nil]
        exact ⟨rfl, hnew⟩
      have hhandler := proper_update h hconnecting nofun
      rw [List.append_nil] at hhandler
      exact ⟨h.consistent, hhandler, h.consumer, h.account⟩
    · nomatch hstep
  | handler ws answer =>
    obtain ⟨turn, hturn, hg⟩ := Option.bind_eq_some_iff.mp hstep
    obtain rfl := Option.some.inj hg
    exact sound_handlerTurn h (handlerTurn_of_turn h.consistent.unlocked (h.handler ws) hturn)
  | broadcast payload =>
    simp only [Gateway.step] at hstep
    split at hstep
    · next hidle =>
      obtain rfl := Option.some.inj hstep
      exact sound_broadcast h payload hidle
    · nomatch hstep
  | consumer answer =>
    simp only [Gateway.step] at hstep
    split at hstep
    · next p hconsumer =>
      obtain ⟨turn, hturn, hg⟩ := Option.bind_eq_some_iff.mp hstep
      obtain rfl := Option.some.inj hg
      exact sound_resume h hconsumer hturn
    · nomatch hstep

end Step

theorem sound_run {actions : List Gateway.Action} {g : Gateway}
    (hrun : Lts.run Gateway.step actions .start = some g) : g.Sound :=
  Lts.run_invariant (fun _ _ _ h _ hstep => sound_step h hstep) sound_start
    (fun _ _ => trivial) hrun

/-! ### Every run -/

/-- **No gap, no repetition, no reordering, for any client**: whatever the interleaving,
the calls of `send_text` begun on a client are the welcome and the payloads of the
broadcasts whose copy was taken between its append and its removal, in their order –
all of them between two broadcasts, and otherwise up to what the broadcast in progress,
or cancelled, has not sent it. The client of a handler that greets or listens has been
appended, and that of one that has ended is out. Another run with the same broadcasts and the same
comings and goings of this client begins the same calls on it, whatever happens to the
others. -/
theorem liveAlerts_gap_free {actions : List Gateway.Action} {g : Gateway}
    (hrun : Lts.run Gateway.step actions .start = some g) (ws : WebSocket) :
    begunOn ws g.manager.log ++ g.consumer.ahead ws = owed ws g.manager.log ∧
      (g.consumer = .idle → begunOn ws g.manager.log = owed ws g.manager.log) ∧
      History.Legal Event.LegalAfter g.manager.log ∧
      (g.handler ws = .handshaking ∨ g.handler ws = .receiving → .appended ws ∈ g.manager.log) ∧
      (g.handler ws = .ended → ¬Registered ws g.manager.log ∧ ws ∉ g.manager.connections) ∧
      ∀ (actions' : List Gateway.Action) (g' : Gateway),
        Lts.run Gateway.step actions' .start = some g' →
        (g.manager.log.filter fun e => e.Concerns ws)
          = (g'.manager.log.filter fun e => e.Concerns ws) →
        g.consumer.ahead ws = g'.consumer.ahead ws →
        begunOn ws g.manager.log = begunOn ws g'.manager.log := by
  have hsound := sound_run hrun
  have hproper := hsound.handler ws
  refine ⟨hsound.account ws, fun hidle => ?_, hsound.consistent.legal, fun hlistens => ?_,
    fun hended => ?_, fun actions' g' hrun' hlog hahead => ?_⟩
  · have haccount := hsound.account ws
    rwa [hidle, Consumer.ahead, List.append_nil] at haccount
  · rcases hlistens with hlistens | hlistens
    · rwa [hlistens] at hproper
    · rwa [hlistens] at hproper
  · rw [hended] at hproper
    exact ⟨hproper, fun hmem => hproper ((hsound.consistent.mem_iff ws).mp hmem)⟩
  · -- the two runs owe the client the same, and have the same still ahead
    have haccount := hsound.account ws
    have haccount' := (sound_run hrun').account ws
    rw [← owed_filter, hlog, owed_filter, ← haccount', hahead] at haccount
    exact List.append_cancel_right haccount

/-- Clients 1 and 2 are there when `a` is broadcast, and 3 arrives meanwhile; the send to
1 ends with an answer; then 2 leaves, and `b` is broadcast. -/
def twoBroadcasts (answer : Answer) : List Gateway.Action :=
  [.arrive 1, .arrive 2, .handler 1 .ok, .handler 2 .ok, .broadcast "a", .arrive 3,
    .consumer answer, .handler 3 .ok, .consumer .ok, .handler 2 .error, .broadcast "b"]

/-- Client 2 gets the same whether 1 fails or not, and is out once it has left; 3 gets `b`
alone. -/
theorem liveAlerts_gap_free_twoBroadcasts :
    ∃ g g', Lts.run Gateway.step (twoBroadcasts .error ++ [.consumer .ok]) .start = some g ∧
      Lts.run Gateway.step (twoBroadcasts .ok ++ [.consumer .ok, .consumer .ok]) .start
        = some g' ∧
      begunOn 3 g.manager.log = [.handshake, .payload "b"] ∧
      begunOn 2 g.manager.log = begunOn 2 g'.manager.log ∧ 2 ∉ g.manager.connections := by
  obtain ⟨g, hrun, hidle, hended, howed, g', hrun', hlog, hahead⟩ : ∃ g,
      Lts.run Gateway.step (twoBroadcasts .error ++ [.consumer .ok]) .start = some g ∧
        g.consumer = .idle ∧ g.handler 2 = .ended ∧
        owed 3 g.manager.log = [.handshake, .payload "b"] ∧
        ∃ g', Lts.run Gateway.step (twoBroadcasts .ok ++ [.consumer .ok, .consumer .ok]) .start
            = some g' ∧
          (g.manager.log.filter fun e => e.Concerns 2)
            = (g'.manager.log.filter fun e => e.Concerns 2) ∧
          g.consumer.ahead 2 = g'.consumer.ahead 2 :=
    ⟨_, rfl, rfl, rfl, by decide, _, rfl, by decide, by decide⟩
  obtain ⟨-, hthree, -⟩ := liveAlerts_gap_free hrun 3
  obtain ⟨-, -, -, -, hout, hsame⟩ := liveAlerts_gap_free hrun 2
  exact ⟨g, g', hrun, hrun', (hthree hidle).trans howed, hsame _ g' hrun' hlog hahead,
    (hout hended).2⟩

end AiopsLog
