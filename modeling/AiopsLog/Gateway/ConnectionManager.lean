import AiopsLog.Lib.Code
import AiopsLog.Lib.History
import AiopsLog.Lib.Run
import Mathlib.Data.List.Nodup

/-!
# The connection manager

The gateway's WebSocket clients are registered in a list that three coroutines rewrite:
`connect` appends to it, `disconnect` filters it, and `broadcast` sends to a copy of it
and filters out the clients whose send raised. A coroutine is modelled by the place
where it is suspended (`AiopsLog.Point`) and by its turns: what it does between two
suspensions, as a function of the manager (`AiopsLog.resume`). The lock is modelled as
`asyncio` has it: to acquire it is to be suspended only while it is held.

It never is, between turns – nothing is awaited inside a critical section – and this is
why the three coroutines cannot lose each other's work: whatever the interleaving, the
list holds exactly the clients that were appended and not removed since
(`AiopsLog.registry_consistent`).

The manager carries a log of what has happened, which the code has not: it is what the
statements speak about. A call signs what it logs of its own sends with its number, `me`.
-/

namespace AiopsLog

open Py

/-! ### The manager and its log -/

/-- WebSocket connections, by identity. -/
abbrev WebSocket := ℕ

/-- The messages a client is sent: the welcome handshake, or the payload of a broadcast. -/
inductive Message where
  | handshake : Message
  | payload : String → Message
  deriving DecidableEq, Repr

/-- What happens to the registry and its clients. -/
inductive Event where
  /-- A client is appended to the list. -/
  | appended : WebSocket → Event
  /-- A broadcast copies the list. -/
  | snapshot : String → Event
  /-- A call of `send_text` on a client begins. -/
  | begun : WebSocket → Message → Event
  /-- The send of the call of this number on a client raises. -/
  | raised : ℕ → WebSocket → Event
  /-- A `disconnect` filters a client out. -/
  | disconnected : WebSocket → Event
  /-- The clean-up of the call of this number filters a client out. -/
  | cleaned : ℕ → WebSocket → Event
  deriving DecidableEq, Repr

/-- The `ConnectionManager`, the gauge `WS_CLIENTS_ACTIVE`, and the log. -/
structure Manager where
  connections : List WebSocket
  locked : Bool
  gauge : ℕ
  log : List Event

/-- `ConnectionManager()`. -/
def Manager.new : Manager := ⟨[], false, 0, []⟩

/-- Where a call of the manager is suspended, or how it has ended. -/
inductive Point where
  /-- `connect`, in `ws.accept()`. -/
  | accepting : WebSocket → Point
  /-- `connect`, acquiring the lock. -/
  | connectLock : WebSocket → Point
  /-- `disconnect`, acquiring the lock. -/
  | disconnectLock : WebSocket → Point
  /-- `broadcast`, acquiring the lock for its copy. -/
  | snapshotLock : String → Point
  /-- `broadcast`, in `ws.send_text(payload)`: the client, those still to send to, and the
  dead ones so far. -/
  | sending : String → WebSocket → List WebSocket → List WebSocket → Point
  /-- `broadcast`, acquiring the lock for the clean-up of the dead. -/
  | cleanUpLock : List WebSocket → Point
  | returned : Point
  | raised : Exn → Point
  deriving DecidableEq, Repr

/-- What the await a coroutine is suspended in ends with. -/
inductive Answer where
  | ok : Answer
  | error : Answer
  | cancelled : Answer
  deriving DecidableEq, Repr

/-! ### The turns -/

/-- `async with self._lock: body`, then the rest of the turn. -/
def withLock (waiting : Point) (body : Manager → Manager) (rest : Manager → Point × Manager)
    (m : Manager) : Point × Manager :=
  if m.locked then (waiting, m)
  else rest { body { m with locked := true } with locked := false }

/-- `WS_CLIENTS_ACTIVE.set(len(self._connections))`, and the end of the call. -/
def setGauge (m : Manager) : Point × Manager :=
  (.returned, { m with gauge := m.connections.length })

/-- `connect`, once the socket is accepted. -/
def connectAccepted (ws : WebSocket) : Manager → Point × Manager :=
  withLock (.connectLock ws)
    (fun m => { m with connections := m.connections ++ [ws], log := m.log ++ [.appended ws] })
    setGauge

/-- `disconnect`. -/
def disconnect (ws : WebSocket) : Manager → Point × Manager :=
  withLock (.disconnectLock ws)
    (fun m => { m with
      connections := m.connections.filter (· ≠ ws)
      log := m.log ++ [.disconnected ws] })
    setGauge

/-- The clean-up of `broadcast`. -/
def cleanUp (me : ℕ) (dead : List WebSocket) : Manager → Point × Manager :=
  withLock (.cleanUpLock dead)
    (fun m => { m with
      connections := m.connections.filter (· ∉ dead)
      log := m.log ++ dead.map (.cleaned me) })
    setGauge

/-- The loop of `broadcast`: the next send, or what follows the loop. -/
def sendNext (me : ℕ) (payload : String) (dead : List WebSocket) :
    List WebSocket → Manager → Point × Manager
  | ws :: live, m =>
    (.sending payload ws live dead, { m with log := m.log ++ [.begun ws (.payload payload)] })
  | [], m => if dead = [] then (.returned, m) else cleanUp me dead m

/-- `broadcast`. -/
def broadcast (me : ℕ) (payload : String) : Manager → Point × Manager :=
  withLock (.snapshotLock payload)
    (fun m => { m with log := m.log ++ [.snapshot payload] })
    (fun m => sendNext me payload [] m.connections m)

/-- The turn of a suspended call, none where the call has ended or its await cannot end
so. -/
def resume (me : ℕ) : Point → Answer → Manager → Option (Point × Manager)
  | .accepting ws, .ok, m | .connectLock ws, .ok, m => some (connectAccepted ws m)
  | .accepting _, .error, m => some (.raised .error, m)
  | .disconnectLock ws, .ok, m => some (disconnect ws m)
  | .snapshotLock payload, .ok, m => some (broadcast me payload m)
  | .sending payload _ live dead, .ok, m => some (sendNext me payload dead live m)
  -- the client is dead, and the loop goes on with the next
  | .sending payload ws live dead, .error, m =>
    some (sendNext me payload (dead ++ [ws]) live { m with log := m.log ++ [.raised me ws] })
  | .cleanUpLock dead, .ok, m => some (cleanUp me dead m)
  | .accepting _, .cancelled, m | .connectLock _, .cancelled, m | .disconnectLock _, .cancelled, m
  | .snapshotLock _, .cancelled, m | .sending _ _ _ _, .cancelled, m
  | .cleanUpLock _, .cancelled, m => some (.raised .cancelled, m)
  | _, _, _ => none

/-! ### The turns when the lock is free -/

section Free

variable {m : Manager}

/-- The manager with more in its log. -/
def Manager.note (es : List Event) (m : Manager) : Manager := { m with log := m.log ++ es }

/-- The manager with a client appended. -/
def Manager.register (ws : WebSocket) (m : Manager) : Manager where
  connections := m.connections ++ [ws]
  locked := false
  gauge := (m.connections ++ [ws]).length
  log := m.log ++ [.appended ws]

/-- The manager with a client filtered out. -/
def Manager.unregister (ws : WebSocket) (m : Manager) : Manager where
  connections := m.connections.filter (· ≠ ws)
  locked := false
  gauge := (m.connections.filter (· ≠ ws)).length
  log := m.log ++ [.disconnected ws]

/-- The manager with the dead filtered out. -/
def Manager.clean (me : ℕ) (dead : List WebSocket) (m : Manager) : Manager where
  connections := m.connections.filter (· ∉ dead)
  locked := false
  gauge := (m.connections.filter (· ∉ dead)).length
  log := m.log ++ dead.map (.cleaned me)

@[simp] theorem log_note (es : List Event) : (m.note es).log = m.log ++ es := rfl

variable (h : m.locked = false)

include h

theorem connectAccepted_free (ws : WebSocket) :
    connectAccepted ws m = (.returned, m.register ws) := by
  rw [connectAccepted, withLock, h]
  rfl

theorem disconnect_free (ws : WebSocket) : disconnect ws m = (.returned, m.unregister ws) := by
  rw [disconnect, withLock, h]
  rfl

theorem cleanUp_free (me : ℕ) (dead : List WebSocket) :
    cleanUp me dead m = (.returned, m.clean me dead) := by
  rw [cleanUp, withLock, h]
  rfl

theorem broadcast_free (me : ℕ) (payload : String) :
    broadcast me payload m = sendNext me payload [] m.connections (m.note [.snapshot payload]) := by
  obtain ⟨connections, locked, gauge, log⟩ := m
  obtain rfl : locked = false := h
  rfl

theorem sendNext_nil_free (me : ℕ) (payload : String) (dead : List WebSocket) :
    sendNext me payload dead [] m
      = (.returned, if dead = [] then m else m.clean me dead) := by
  rw [sendNext]
  split
  · rfl
  · rw [cleanUp_free h]

end Free

theorem sendNext_cons (me : ℕ) (payload : String) (dead : List WebSocket) (ws : WebSocket)
    (live : List WebSocket) (m : Manager) :
    sendNext me payload dead (ws :: live) m
      = (.sending payload ws live dead, m.note [.begun ws (.payload payload)]) := rfl

/-! ### Who is registered -/

/-- The event takes a client out of the list. -/
def Event.Removes (ws : WebSocket) : Event → Prop
  | .disconnected ws' | .cleaned _ ws' => ws' = ws
  | _ => False

instance (ws : WebSocket) : DecidablePred (Event.Removes ws)
  | .disconnected _ | .cleaned _ _ => inferInstanceAs (Decidable (_ = _))
  | .appended _ | .snapshot _ | .begun _ _ | .raised _ _ => inferInstanceAs (Decidable False)

/-- A client has been appended, and not removed since. -/
def Registered (ws : WebSocket) : List Event → Prop :=
  History.Since (· = .appended ws) (·.Removes ws)

/-- The events of the call `me` that do not touch the registry. -/
def Event.Quiet (me : ℕ) : Event → Prop
  | .snapshot _ | .begun _ _ => True
  | .raised n _ => n = me
  | _ => False

/-- When an event may happen: a client is appended once, and cleaned out where its send
raised in the same call. -/
def Event.LegalAfter (log : List Event) : Event → Prop
  | .appended ws => .appended ws ∉ log
  | .cleaned me ws => .raised me ws ∈ log
  | _ => True

section Registered

variable {ws : WebSocket} {log es : List Event}

/-- Who has not been appended is not registered. -/
theorem not_registered (h : .appended ws ∉ log) : ¬Registered ws log := by
  intro hregistered
  obtain ⟨e, he, rfl⟩ := History.exists_mem_of_since hregistered
  exact h he

theorem registered_append_appended (ws' : WebSocket) :
    Registered ws (log ++ [.appended ws']) ↔ ws' = ws ∨ Registered ws log := by
  rw [Registered, History.since_append_singleton]
  simp [Event.Removes]

theorem registered_append_disconnected (ws' : WebSocket) :
    Registered ws (log ++ [.disconnected ws']) ↔ Registered ws log ∧ ws' ≠ ws := by
  rw [Registered, History.since_append_singleton]
  simp [Event.Removes]

theorem registered_append_cleaned (me : ℕ) (dead : List WebSocket) :
    Registered ws (log ++ dead.map (.cleaned me)) ↔ Registered ws log ∧ ws ∉ dead := by
  have hon : ∀ e ∈ dead.map (Event.cleaned me), ¬e = .appended ws := by
    intro e he
    obtain ⟨ws', -, rfl⟩ := List.mem_map.mp he
    nofun
  rw [Registered, History.since_append hon]
  refine and_congr_right fun _ => ⟨fun h hmem => ?_, fun h e he => ?_⟩
  · exact h _ (List.mem_map_of_mem hmem) rfl
  · obtain ⟨ws', hws', rfl⟩ := List.mem_map.mp he
    rintro rfl
    exact h hws'

variable {me : ℕ}

theorem Event.Quiet.ne_appended {e : Event} (h : e.Quiet me) : e ≠ .appended ws := by
  rintro rfl
  exact h

theorem Event.Quiet.not_removes {e : Event} (h : e.Quiet me) : ¬e.Removes ws := by
  cases e with
  | snapshot | begun | raised => exact id
  | appended | disconnected | cleaned => exact h.elim

theorem Event.Quiet.legalAfter {e : Event} (h : e.Quiet me) : e.LegalAfter log := by
  cases e with
  | snapshot | begun | raised => trivial
  | appended | disconnected | cleaned => exact h.elim

theorem registered_append_quiet (h : ∀ e ∈ es, e.Quiet me) :
    Registered ws (log ++ es) ↔ Registered ws log := by
  rw [Registered, History.since_append fun e he => (h e he).ne_appended]
  exact and_iff_left fun e he => (h e he).not_removes

end Registered

/-! ### The invariant of the manager -/

/-- The lock is free, the list holds exactly the registered clients and none twice, the
gauge counts them, and every event was legal. -/
structure Manager.Consistent (m : Manager) : Prop where
  unlocked : m.locked = false
  nodup : m.connections.Nodup
  mem_iff : ∀ ws, ws ∈ m.connections ↔ Registered ws m.log
  gauge : m.gauge = m.connections.length
  legal : History.Legal Event.LegalAfter m.log

theorem consistent_new : Manager.new.Consistent where
  unlocked := rfl
  nodup := List.nodup_nil
  mem_iff _ := iff_of_false List.not_mem_nil History.not_since_nil
  gauge := rfl
  legal := History.legal_nil

namespace Manager.Consistent

variable {m : Manager} (h : m.Consistent)

include h

theorem note {me : ℕ} {es : List Event} (hes : ∀ e ∈ es, e.Quiet me) : (m.note es).Consistent where
  unlocked := h.unlocked
  nodup := h.nodup
  mem_iff ws := (h.mem_iff ws).trans (registered_append_quiet hes).symm
  gauge := h.gauge
  legal := History.legal_append h.legal fun e he _ => (hes e he).legalAfter

/-- **A client never appended is appended.** It is not in the list: the clients in the
list have been appended. -/
theorem register {ws : WebSocket} (hnew : .appended ws ∉ m.log) : (m.register ws).Consistent where
  unlocked := rfl
  nodup := by
    have hout : ws ∉ m.connections := fun hmem => not_registered hnew ((h.mem_iff ws).mp hmem)
    rw [Manager.register, List.nodup_append]
    refine ⟨h.nodup, List.nodup_singleton ws, fun x hx y hy => ?_⟩
    rintro rfl
    exact hout (List.mem_singleton.mp hy ▸ hx)
  mem_iff ws' := by
    rw [Manager.register, registered_append_appended, List.mem_append, List.mem_singleton,
      h.mem_iff, or_comm, eq_comm]
  gauge := rfl
  legal := History.legal_append_singleton.mpr ⟨h.legal, hnew⟩

theorem unregister (ws : WebSocket) : (m.unregister ws).Consistent where
  unlocked := rfl
  nodup := h.nodup.filter _
  mem_iff ws' := by
    rw [Manager.unregister, registered_append_disconnected, List.mem_filter, h.mem_iff,
      decide_eq_true_iff, ne_comm]
  gauge := rfl
  legal := History.legal_append_singleton.mpr ⟨h.legal, trivial⟩

/-- **The clean-up**: its filter reads the list as it is now, so that a client appended
since the copy stays. -/
theorem clean {me : ℕ} {dead : List WebSocket} (hdead : ∀ ws ∈ dead, .raised me ws ∈ m.log) :
    (m.clean me dead).Consistent where
  unlocked := rfl
  nodup := h.nodup.filter _
  mem_iff ws' := by
    rw [Manager.clean, registered_append_cleaned, List.mem_filter, h.mem_iff, decide_eq_true_iff]
  gauge := rfl
  legal := History.legal_append h.legal fun e he more => by
    obtain ⟨ws, hws, rfl⟩ := List.mem_map.mp he
    exact List.mem_append_left _ (hdead ws hws)

end Manager.Consistent

/-! ### What a turn does -/

/-- The client a suspended call is about to append. -/
def Point.connecting : Point → Option WebSocket
  | .accepting ws | .connectLock ws => some ws
  | _ => none

/-- The clients a suspended call has found dead. -/
def Point.dead : Point → List WebSocket
  | .sending _ _ _ dead | .cleanUpLock dead => dead
  | _ => []

/-- **A turn of the call `me` from a point `p`**, the lock being free: where it leads,
and what it has done to the manager. -/
inductive Turn (me : ℕ) (p : Point) (m : Manager) : Point × Manager → Prop where
  | register {ws : WebSocket} (h : p.connecting = some ws) : Turn me p m (.returned, m.register ws)
  | unregister (ws : WebSocket) : Turn me p m (.returned, m.unregister ws)
  | note {p' : Point} {es : List Event} (hes : ∀ e ∈ es, e.Quiet me) (hp' : p'.connecting = none)
      (hdead : ∀ ws ∈ p'.dead, ws ∈ p.dead ∨ .raised me ws ∈ es) : Turn me p m (p', m.note es)
  | clean {es : List Event} {dead : List WebSocket} (hes : ∀ e ∈ es, e.Quiet me)
      (hdead : ∀ ws ∈ dead, ws ∈ p.dead ∨ .raised me ws ∈ es) :
      Turn me p m (.returned, (m.note es).clean me dead)

section Turns

variable {me : ℕ} {p : Point} {m : Manager}

@[simp] theorem note_note (es es' : List Event) : (m.note es).note es' = m.note (es ++ es') := by
  rw [Manager.note, Manager.note, Manager.note, List.append_assoc]

@[simp] theorem note_nil : m.note [] = m := by
  rw [Manager.note, List.append_nil]

/-- A call that raises leaves the manager alone. -/
theorem turn_raised (e : Exn) : Turn me p m (.raised e, m) := by
  have h : Turn me p m (.raised e, m.note []) := .note nofun rfl nofun
  rwa [note_nil] at h

variable (h : m.locked = false)

include h

theorem turn_connectAccepted {ws : WebSocket} (hp : p.connecting = some ws) :
    Turn me p m (connectAccepted ws m) := by
  rw [connectAccepted_free h]
  exact .register hp

theorem turn_disconnect (ws : WebSocket) : Turn me p m (disconnect ws m) := by
  rw [disconnect_free h]
  exact .unregister ws

theorem turn_cleanUp {dead : List WebSocket} (hdead : ∀ ws ∈ dead, ws ∈ p.dead) :
    Turn me p m (cleanUp me dead m) := by
  have hclean : Turn me p m (.returned, (m.note []).clean me dead) :=
    .clean nofun fun ws hws => .inl (hdead ws hws)
  rwa [note_nil, ← cleanUp_free h] at hclean

/-- The rest of a `broadcast`, from the next send on, once `es` has been logged. -/
theorem turn_sendNext {payload : String} {dead live : List WebSocket} {es : List Event}
    (hes : ∀ e ∈ es, e.Quiet me) (hdead : ∀ ws ∈ dead, ws ∈ p.dead ∨ .raised me ws ∈ es) :
    Turn me p m (sendNext me payload dead live (m.note es)) := by
  cases live with
  | nil =>
    -- the loop is over, and the clean-up, if there are dead, is in the same turn
    rw [sendNext_nil_free (m := m.note es) h]
    split
    · exact .note hes rfl nofun
    · exact .clean hes hdead
  | cons ws live =>
    rw [sendNext_cons, note_note]
    refine .note (fun e he => ?_) rfl fun ws' hws' => ?_
    · rcases List.mem_append.mp he with he | he
      · exact hes e he
      · exact List.mem_singleton.mp he ▸ trivial
    · exact (hdead ws' hws').imp_right (List.mem_append_left _)

theorem turn_broadcast (payload : String) : Turn me p m (broadcast me payload m) := by
  rw [broadcast_free h]
  exact turn_sendNext h (List.forall_mem_singleton.mpr trivial) nofun

theorem turn_sent {payload : String} {live dead : List WebSocket}
    (hdead : ∀ ws ∈ dead, ws ∈ p.dead) : Turn me p m (sendNext me payload dead live m) := by
  have hsend := @turn_sendNext me p m h payload dead live [] nofun fun ws hws => .inl (hdead ws hws)
  rwa [note_nil] at hsend

theorem turn_notSent {payload : String} {ws : WebSocket} {live dead : List WebSocket} :
    Turn me (.sending payload ws live dead) m
      (sendNext me payload (dead ++ [ws]) live (m.note [.raised me ws])) := by
  refine turn_sendNext h (List.forall_mem_singleton.mpr rfl) fun ws' hws' => ?_
  rcases List.mem_append.mp hws' with hws' | hws'
  · exact .inl hws'
  · exact .inr (List.mem_singleton.mp hws' ▸ List.mem_singleton_self _)

/-- **Every turn is one of the four.** -/
theorem turn_of_resume {answer : Answer} {r : Point × Manager}
    (hturn : resume me p answer m = some r) : Turn me p m r := by
  have found : ∀ {r'}, Turn me p m r' → some r' = some r → Turn me p m r := fun hr' hr =>
    Option.some.inj hr ▸ hr'
  cases answer with
  | ok =>
    cases p with
    | accepting | connectLock => exact found (turn_connectAccepted h rfl) hturn
    | disconnectLock ws => exact found (turn_disconnect h ws) hturn
    | snapshotLock payload => exact found (turn_broadcast h payload) hturn
    | sending => exact found (turn_sent h fun _ => id) hturn
    | cleanUpLock dead => exact found (turn_cleanUp h fun _ => id) hturn
    | returned | raised => nomatch hturn
  | error =>
    cases p with
    | accepting => exact found (turn_raised _) hturn
    | sending => exact found (turn_notSent h) hturn
    | connectLock | disconnectLock | snapshotLock | cleanUpLock | returned | raised =>
      nomatch hturn
  | cancelled =>
    cases p with
    | returned | raised => nomatch hturn
    | accepting | connectLock | disconnectLock | snapshotLock | sending | cleanUpLock =>
      exact found (turn_raised _) hturn

end Turns

/-! ### What every turn keeps -/

namespace Turn

variable {me : ℕ} {p : Point} {m : Manager} {r : Point × Manager} (h : Turn me p m r)

include h

/-- No turn leads to a point at which a client is about to be appended. -/
theorem connecting : r.1.connecting = none := by
  cases h with
  | note _ hp' => exact hp'
  | register | unregister | clean => rfl

/-- **A turn only adds to the log**: it appends the client its call was about to append, and no
other, and signs what raises in it. -/
theorem exists_log : ∃ es, r.2.log = m.log ++ es ∧
    (∀ ws, .appended ws ∈ es → p.connecting = some ws) ∧ ∀ n ws, .raised n ws ∈ es → n = me := by
  cases h with
  | @register ws hp =>
    refine ⟨[.appended ws], rfl, fun ws' hws' => ?_, fun n ws' hws' => ?_⟩
    · rw [Event.appended.inj (List.mem_singleton.mp hws')]
      exact hp
    · nomatch List.mem_singleton.mp hws'
  | unregister ws =>
    exact ⟨[.disconnected ws], rfl, fun _ hws' => (nomatch List.mem_singleton.mp hws'),
      fun _ _ hws' => (nomatch List.mem_singleton.mp hws')⟩
  | @note _ es hes =>
    exact ⟨es, rfl, fun _ hws => absurd rfl (hes _ hws).ne_appended, fun _ _ hws => hes _ hws⟩
  | @clean es dead hes =>
    refine ⟨es ++ dead.map (Event.cleaned me), List.append_assoc _ _ _, fun ws hws => ?_,
      fun n ws hws => ?_⟩
    · rcases List.mem_append.mp hws with hws | hws
      · exact absurd rfl (hes _ hws).ne_appended
      · obtain ⟨_, _, heq⟩ := List.mem_map.mp hws
        nomatch heq
    · rcases List.mem_append.mp hws with hws | hws
      · exact hes _ hws
      · obtain ⟨_, _, heq⟩ := List.mem_map.mp hws
        nomatch heq

/-- What a turn has logged stays logged. -/
theorem mem_log {e : Event} (he : e ∈ m.log) : e ∈ r.2.log := by
  obtain ⟨es, hlog, -⟩ := h.exists_log
  rw [hlog]
  exact List.mem_append_left _ he

theorem mem_log_appended {ws : WebSocket} (hws : .appended ws ∈ r.2.log) :
    .appended ws ∈ m.log ∨ p.connecting = some ws := by
  obtain ⟨es, hlog, happended, -⟩ := h.exists_log
  rw [hlog] at hws
  exact (List.mem_append.mp hws).imp_right (happended ws)

theorem mem_log_raised {n : ℕ} {ws : WebSocket} (hws : .raised n ws ∈ r.2.log) :
    .raised n ws ∈ m.log ∨ n = me := by
  obtain ⟨es, hlog, -, hraised⟩ := h.exists_log
  rw [hlog] at hws
  exact (List.mem_append.mp hws).imp_right (hraised n ws)

/-- The dead a call knows of have raised in it. -/
theorem dead (hdead : ∀ ws ∈ p.dead, .raised me ws ∈ m.log) :
    ∀ ws ∈ r.1.dead, .raised me ws ∈ r.2.log := by
  cases h with
  | note _ _ hdead' =>
    intro ws hws
    rcases hdead' ws hws with hws | hws
    · exact List.mem_append_left _ (hdead ws hws)
    · exact List.mem_append_right _ hws
  | register | unregister | clean => nofun

/-- **Every turn keeps the manager consistent**, of a call whose client has not been
appended yet and whose dead have raised. -/
theorem consistent (hm : m.Consistent) (hnew : ∀ ws, p.connecting = some ws → .appended ws ∉ m.log)
    (hdead : ∀ ws ∈ p.dead, .raised me ws ∈ m.log) : r.2.Consistent := by
  cases h with
  | register hp => exact hm.register (hnew _ hp)
  | unregister ws => exact hm.unregister ws
  | note hes => exact hm.note hes
  | clean hes hdead' =>
    refine (hm.note hes).clean fun ws hws => ?_
    rcases hdead' ws hws with hws | hws
    · exact List.mem_append_left _ (hdead ws hws)
    · exact List.mem_append_right _ hws

end Turn

end AiopsLog
