import AiopsLog.Gateway.ConnectionManager
import AiopsLog.Gateway.RecentAlerts
import Mathlib.Logic.Function.Basic

/-!
# The page of `/demo`

The page the gateway serves opens a WebSocket, counts the alerts that come in over it and
shows them as rows, the newest on top; when the socket closes it sets a timer, and opens
another one five seconds later.

Its state is what its script keeps: two counters, the child nodes of the feed, the sockets
it has made with the state each is in, and the timers. The texts of an alert are taken to
contain no markup: the script sets them as `innerHTML`, unescaped, and markup in them would
make other nodes or run. An action is a callback of the browser. What the browser promises are
the conditions on the actions: a socket opens once, delivers messages while it is open, and
closes once.

The feed is cut to 200 rows each time one is added. It is cut at the level of child nodes
and counted at the level of elements, and the two differ by the white space the page comes
with; what is left are the 200 newest rows all the same (`AiopsLog.DemoPage.elements_prune`).
-/

namespace AiopsLog

namespace DemoPage

/-! ### The rows -/

/-- The UTF-16 code units of a character. -/
def codeUnits (c : Char) : List ℕ :=
  if c.toNat < 0x10000 then [c.toNat]
  else [0xD800 + (c.toNat - 0x10000) / 0x400, 0xDC00 + (c.toNat - 0x10000) % 0x400]

/-- `s.substring(0, n)`, which counts code units. -/
def substring (n : ℕ) (s : String) : List ℕ := (s.toList.flatMap codeUnits).take n

/-- What `JSON.parse` makes of a message: the welcome with its text, or an alert. -/
inductive Data where
  | connected : String → Data
  | alert : AlertEvent → Data

/-- The class of an alert's row. -/
inductive Cls where
  | fatal : Cls
  | error : Cls
  | warn : Cls
  | info : Cls
  deriving DecidableEq, Repr

/-- The rows of the feed. -/
inductive Row where
  | system : String → Row
  | alert (cls : Cls) (ts component sev : String) (msg : List ℕ) : Row
  deriving DecidableEq

/-- A child node of the feed: white space, or the element of a row. -/
inductive Node where
  | text : Node
  | element : Row → Node
  deriving DecidableEq

/-- `a || b` on strings, where `a` may be null. -/
def orElse (a : Option String) (b : String) : String := (given a).getD b

/-- `sev`; `upper` is `toUpperCase`. -/
def severity (upper : String → String) (data : AlertEvent) : String :=
  upper (orElse data.severity "INFO")

/-- The alert is counted among the fatal ones. -/
def IsFatal (upper : String → String) (data : AlertEvent) : Prop :=
  severity upper data = "FATAL" ∨ severity upper data = "ERROR"

instance (upper : String → String) : DecidablePred (IsFatal upper) := fun _ =>
  inferInstanceAs (Decidable (_ ∨ _))

/-- `cls`. -/
def cls (sev : String) : Cls :=
  if sev = "FATAL" then .fatal
  else if sev = "ERROR" then .error
  else if sev = "WARN" then .warn
  else .info

/-- The row of an alert. -/
def alertRow (upper : String → String) (data : AlertEvent) : Row :=
  .alert (cls (severity upper data)) (orElse data.timestamp (orElse (some data.receivedAt) ""))
    (orElse data.component "?") (severity upper data) (substring 200 (orElse data.message ""))

/-- The rows that tell of the stream itself. -/
def connectingRow : Row := .system "Connecting to alert stream…"

def connectedRow : Row := .system "✅ Stream connected."

def disconnectedRow : Row := .system "⚠ Stream disconnected. Reconnecting in 5s…"

/-- The row of a message. -/
def row (upper : String → String) : Data → Row
  | .connected message => .system message
  | .alert data => alertRow upper data

/-! ### The feed -/

/-- `feed.children`. -/
def elements : List Node → List Row :=
  List.filterMap fun
    | .element row => some row
    | .text => none

/-- The loop over `removeChild(feed.lastChild)`, on the nodes from the last one on. -/
def removeLast : List Node → List Node
  | [] => []
  | node :: nodes =>
    if 200 < (elements (node :: nodes)).length then removeLast nodes else node :: nodes

/-- `while (feed.children.length > 200) feed.removeChild(feed.lastChild)`. -/
def prune (nodes : List Node) : List Node := (removeLast nodes.reverse).reverse

/-- `appendRow`, which puts the row first. -/
def appendRow (row : Row) (feed : List Node) : List Node := prune (.element row :: feed)

theorem elements_append (nodes nodes' : List Node) :
    elements (nodes ++ nodes') = elements nodes ++ elements nodes' :=
  List.filterMap_append

theorem elements_reverse (nodes : List Node) : elements nodes.reverse = (elements nodes).reverse :=
  List.filterMap_reverse

theorem prune_append_singleton (nodes : List Node) (node : Node) :
    prune (nodes ++ [node])
      = if 200 < (elements (nodes ++ [node])).length then prune nodes else nodes ++ [node] := by
  have hreverse : (nodes ++ [node]).reverse = node :: nodes.reverse := by simp
  have hlength : (elements (node :: nodes.reverse)).length
      = (elements (nodes ++ [node])).length := by
    rw [← hreverse, elements_reverse, List.length_reverse]
  rw [prune, hreverse, removeLast, hlength]
  split
  · rfl
  · rw [← hreverse, List.reverse_reverse]

/-- **The feed is cut to its first 200 rows**, whatever white space is among its nodes. -/
theorem elements_prune (nodes : List Node) :
    elements (prune nodes) = (elements nodes).take 200 := by
  induction nodes using List.reverseRecOn with
  | nil => rfl
  | append_singleton nodes node ih =>
    rw [prune_append_singleton]
    split
    · next hlong =>
      -- the last node goes; it has at most one row, and the others are 200 at least
      have hone : (elements [node]).length ≤ 1 := by cases node <;> simp [elements]
      rw [elements_append, List.length_append] at hlong
      rw [ih, elements_append, List.take_append_of_le_length (by omega)]
    · next hshort =>
      rw [List.take_of_length_le (by omega)]

theorem elements_appendRow (row : Row) (feed : List Node) :
    elements (appendRow row feed) = (row :: elements feed).take 200 :=
  elements_prune _

/-! ### The page -/

/-- The state of a socket of the page, if it has been made. -/
inductive ReadyState where
  | absent : ReadyState
  | connecting : ReadyState
  | opened : ReadyState
  | closed : ReadyState
  deriving DecidableEq, Repr

inductive Badge where
  | disconnected : Badge
  | live : Badge
  | error : Badge
  | reconnecting : Badge
  deriving DecidableEq, Repr

/-- The state of the page. -/
structure Page where
  total : ℕ
  fatal : ℕ
  /-- The figures on display. -/
  statTotal : ℕ
  statFatal : ℕ
  feed : List Node
  badge : Badge
  sockets : WebSocket → ReadyState
  /-- The sockets the timers of `setInterval` send a heartbeat on. -/
  heartbeats : List WebSocket
  /-- The timers of `setTimeout(connect, 5000)`. -/
  reconnects : ℕ

/-- What the browser calls back. -/
inductive Callback where
  | onopen : WebSocket → Callback
  | onmessage : WebSocket → Data → Callback
  | onerror : WebSocket → Callback
  | onclose : WebSocket → Callback
  /-- A timer of `setTimeout` calls `connect`, which makes a socket. -/
  | connect : WebSocket → Callback
  /-- A click on the button. -/
  | clearFeed : Callback

/-- A socket that has not been closed. -/
def ReadyState.Live (s : ReadyState) : Prop := s = .connecting ∨ s = .opened

instance : DecidablePred ReadyState.Live := fun _ => inferInstanceAs (Decidable (_ ∨ _))

namespace Page

/-- `connect`. -/
def connect (ws : WebSocket) (p : Page) : Page :=
  { p with sockets := Function.update p.sockets ws .connecting }

/-- The page as it is loaded, with the first socket made; its feed comes with a row between
white space. -/
def load (ws : WebSocket) : Page :=
  connect ws
    { total := 0
      fatal := 0
      statTotal := 0
      statFatal := 0
      feed := [.text, .element connectingRow, .text]
      badge := .disconnected
      sockets := fun _ => .absent
      heartbeats := []
      reconnects := 0 }

/-- `onmessage`. -/
def onmessage (upper : String → String) : Data → Page → Page
  | .connected message, p => { p with feed := appendRow (.system message) p.feed }
  | .alert data, p =>
    let p := { p with total := p.total + 1, statTotal := p.total + 1 }
    let p := if IsFatal upper data then { p with fatal := p.fatal + 1, statFatal := p.fatal + 1 }
      else p
    { p with feed := appendRow (alertRow upper data) p.feed }

/-- `onopen`. -/
def onopen (ws : WebSocket) (p : Page) : Page :=
  { p with
    badge := .live
    feed := appendRow connectedRow p.feed
    heartbeats := p.heartbeats ++ [ws]
    sockets := Function.update p.sockets ws .opened }

/-- `onclose`. -/
def onclose (ws : WebSocket) (p : Page) : Page :=
  { p with
    badge := .reconnecting
    feed := appendRow disconnectedRow p.feed
    reconnects := p.reconnects + 1
    sockets := Function.update p.sockets ws .closed }

/-- The timer of `onclose` is over. -/
def reconnect (ws : WebSocket) (p : Page) : Page :=
  { p.connect ws with reconnects := p.reconnects - 1 }

@[simp] theorem sockets_reconnect (ws : WebSocket) (p : Page) :
    (p.reconnect ws).sockets = Function.update p.sockets ws .connecting := rfl

@[simp] theorem sockets_onopen (ws : WebSocket) (p : Page) :
    (p.onopen ws).sockets = Function.update p.sockets ws .opened := rfl

@[simp] theorem heartbeats_onopen (ws : WebSocket) (p : Page) :
    (p.onopen ws).heartbeats = p.heartbeats ++ [ws] := rfl

@[simp] theorem sockets_onclose (ws : WebSocket) (p : Page) :
    (p.onclose ws).sockets = Function.update p.sockets ws .closed := rfl

@[simp] theorem reconnects_onclose (ws : WebSocket) (p : Page) :
    (p.onclose ws).reconnects = p.reconnects + 1 := rfl

/-- The step of the page, none where the browser does not call back so. -/
def step (upper : String → String) (p : Page) : Callback → Option Page
  | .onopen ws => if p.sockets ws = .connecting then some (p.onopen ws) else none
  | .onmessage ws data => if p.sockets ws = .opened then some (p.onmessage upper data) else none
  | .onerror ws => if (p.sockets ws).Live then some { p with badge := .error } else none
  | .onclose ws => if (p.sockets ws).Live then some (p.onclose ws) else none
  | .connect ws =>
    if 0 < p.reconnects ∧ p.sockets ws = .absent then some (p.reconnect ws) else none
  | .clearFeed => some { p with feed := [] }

/-- **What a callback does**, and when it may happen. -/
inductive Stepped (upper : String → String) (p : Page) : Callback → Page → Prop where
  | onopen {ws : WebSocket} (h : p.sockets ws = .connecting) :
      Stepped upper p (.onopen ws) (p.onopen ws)
  | onmessage {ws : WebSocket} (data : Data) (h : p.sockets ws = .opened) :
      Stepped upper p (.onmessage ws data) (p.onmessage upper data)
  | onerror {ws : WebSocket} (h : (p.sockets ws).Live) :
      Stepped upper p (.onerror ws) { p with badge := .error }
  | onclose {ws : WebSocket} (h : (p.sockets ws).Live) :
      Stepped upper p (.onclose ws) (p.onclose ws)
  | connect {ws : WebSocket} (hpos : 0 < p.reconnects) (h : p.sockets ws = .absent) :
      Stepped upper p (.connect ws) (p.reconnect ws)
  | clearFeed : Stepped upper p .clearFeed { p with feed := [] }

theorem stepped_of_step {upper : String → String} {p p' : Page} {callback : Callback}
    (hstep : p.step upper callback = some p') : p.Stepped upper callback p' := by
  cases callback with
  | onopen | onmessage | onerror | onclose =>
    obtain ⟨h, heq⟩ := Option.ite_none_right_eq_some.mp hstep
    obtain rfl := Option.some.inj heq
    constructor
    exact h
  | connect =>
    obtain ⟨⟨hpos, h⟩, heq⟩ := Option.ite_none_right_eq_some.mp hstep
    obtain rfl := Option.some.inj heq
    exact .connect hpos h
  | clearFeed =>
    obtain rfl := Option.some.inj hstep
    exact .clearFeed

end Page

/-! ### What is on display -/

/-- The alert a callback brings. -/
def Callback.alert? : Callback → Option AlertEvent
  | .onmessage _ (.alert data) => some data
  | _ => none

/-- The row a callback appends. -/
def Callback.row? (upper : String → String) : Callback → Option Row
  | .onopen _ => some connectedRow
  | .onmessage _ data => some (row upper data)
  | .onclose _ => some disconnectedRow
  | _ => none

/-- The rows of a feed that is never cut. -/
def Callback.uncut (upper : String → String) (rows : List Row) : Callback → List Row
  | .clearFeed => []
  | callback => (callback.row? upper).toList ++ rows

/-- The alerts that have come in, in their order. -/
def arrived (callbacks : List Callback) : List AlertEvent := callbacks.filterMap Callback.alert?

/-- The rows appended since the feed was last cleared, the newest first. -/
def shown (upper : String → String) (callbacks : List Callback) : List Row :=
  callbacks.foldl (Callback.uncut upper) [connectingRow]

section Display

variable {upper : String → String} {p p' : Page} {callback : Callback} {callbacks : List Callback}

/-- The page displays its counters. -/
def Page.Displays (p : Page) : Prop := p.statTotal = p.total ∧ p.statFatal = p.fatal

/-- **What a callback does to the counters and the feed.** -/
structure Page.Shows (upper : String → String) (p : Page) (callback : Callback) (p' : Page) :
    Prop where
  total : p'.total = p.total + callback.alert?.toList.length
  fatal : p'.fatal = p.fatal + callback.alert?.toList.countP fun data => IsFatal upper data
  displays : p.Displays → p'.Displays
  feed : ∀ rows, elements p.feed = rows.take 200 →
    elements p'.feed = (callback.uncut upper rows).take 200

theorem elements_appendRow_of_take {row : Row} {feed : List Node} {rows : List Row}
    (h : elements feed = rows.take 200) :
    elements (appendRow row feed) = (row :: rows).take 200 := by
  rw [elements_appendRow, h, List.take_succ_cons, List.take_succ_cons, List.take_take]
  rfl

theorem shows_onmessage (ws : WebSocket) (data : Data) :
    p.Shows upper (.onmessage ws data) (p.onmessage upper data) := by
  cases data with
  | connected message => exact ⟨rfl, rfl, id, fun _ => elements_appendRow_of_take⟩
  | alert data =>
    by_cases hfatal : IsFatal upper data
    · rw [Page.onmessage, if_pos hfatal]
      refine ⟨rfl, ?_, fun _ => ⟨rfl, rfl⟩, fun _ => elements_appendRow_of_take⟩
      simp [Callback.alert?, hfatal]
    · rw [Page.onmessage, if_neg hfatal]
      refine ⟨rfl, ?_, fun h => ⟨rfl, h.2⟩, fun _ => elements_appendRow_of_take⟩
      simp [Callback.alert?, hfatal]

/-- **The step.** -/
theorem shows_step (hstep : p.step upper callback = some p') : p.Shows upper callback p' := by
  cases Page.stepped_of_step hstep with
  | onopen => exact ⟨rfl, rfl, id, fun _ => elements_appendRow_of_take⟩
  | onmessage data => exact shows_onmessage _ data
  | onerror => exact ⟨rfl, rfl, id, fun _ => id⟩
  | onclose => exact ⟨rfl, rfl, id, fun _ => elements_appendRow_of_take⟩
  | connect => exact ⟨rfl, rfl, id, fun _ => id⟩
  | clearFeed => exact ⟨rfl, rfl, id, fun _ _ => rfl⟩

/-- The run, from any page. -/
theorem shows_run (hdisplays : p.Displays) {rows : List Row}
    (hfeed : elements p.feed = rows.take 200)
    (hrun : Lts.run (Page.step upper) callbacks p = some p') :
    p'.Displays ∧ p'.total = p.total + (arrived callbacks).length ∧
      p'.fatal = p.fatal + (arrived callbacks).countP (fun data => IsFatal upper data) ∧
      elements p'.feed = (callbacks.foldl (Callback.uncut upper) rows).take 200 := by
  induction callbacks generalizing p rows with
  | nil =>
    obtain rfl := Option.some.inj hrun
    exact ⟨hdisplays, rfl, rfl, hfeed⟩
  | cons callback callbacks ih =>
    obtain ⟨q, hstep, hrest⟩ := Lts.exists_of_run_cons hrun
    have hshows := shows_step hstep
    obtain ⟨hp', htotal, hfatal, hrows⟩ := ih (hshows.displays hdisplays) (hshows.feed rows hfeed)
      hrest
    have harrived : arrived (callback :: callbacks)
        = callback.alert?.toList ++ arrived callbacks := by
      rw [arrived, arrived, List.filterMap_cons]
      cases callback.alert? <;> rfl
    refine ⟨hp', ?_, ?_, hrows⟩
    · rw [htotal, hshows.total, harrived, List.length_append, Nat.add_assoc]
    · rw [hfatal, hshows.fatal, harrived, List.countP_append, Nat.add_assoc]

/-- **What the page displays, whatever has happened to its sockets**: the number of alerts
that have come in, the number of those whose severity is FATAL or ERROR, and the newest 200
of the rows appended since the feed was last cleared. -/
theorem page_displays {ws : WebSocket}
    (hrun : Lts.run (Page.step upper) callbacks (.load ws) = some p) :
    p.statTotal = (arrived callbacks).length ∧
      p.statFatal = (arrived callbacks).countP (fun data => IsFatal upper data) ∧
      elements p.feed = (shown upper callbacks).take 200 := by
  have hloaded : elements (Page.load ws).feed = [connectingRow].take 200 := rfl
  obtain ⟨hdisplays, htotal, hfatal, hfeed⟩ := shows_run ⟨rfl, rfl⟩ hloaded hrun
  rw [hdisplays.1, hdisplays.2, htotal, hfatal]
  exact ⟨Nat.zero_add _, Nat.zero_add _, hfeed⟩

/-- An alert is shown above the row the page comes with. -/
theorem page_displays_one :
    ∃ p, Lts.run (Page.step id) [.onopen 1, .onmessage 1 (.alert ⟨none, none, some "FATAL", none,
        none, none, none, ""⟩)] (.load 1) = some p ∧
      p.statFatal = 1 ∧ (elements p.feed).length = 3 := by
  obtain ⟨hfatal, hfeed⟩ := (@page_displays id _ [.onopen 1, .onmessage 1 (.alert ⟨none, none,
    some "FATAL", none, none, none, none, ""⟩)] 1 rfl).2
  exact ⟨_, rfl, hfatal, congrArg List.length hfeed⟩

end Display

/-! ### One socket at a time -/

/-- The timers whose heartbeats are sent: `if (ws.readyState === 1)`. -/
def Page.beating (p : Page) : List WebSocket :=
  p.heartbeats.filter fun ws => p.sockets ws = .opened

/-- The live socket after a callback. -/
def Callback.live (live : Option WebSocket) : Callback → Option WebSocket
  | .onclose _ => none
  | .connect ws => some ws
  | _ => live

/-- The callback opens a socket. -/
def Callback.opens : Callback → Bool
  | .onopen _ => true
  | _ => false

/-- The one live socket, if there is one: without one a timer is set to make the next. A
heartbeat is set for a socket when it opens. -/
structure Page.Sound (p : Page) (live : Option WebSocket) : Prop where
  live_iff : ∀ ws, (p.sockets ws).Live ↔ live = some ws
  timer : p.reconnects = if live = none then 1 else 0
  nodup : p.heartbeats.Nodup
  opened : ∀ ws, p.sockets ws = .opened → ws ∈ p.heartbeats
  heartbeat : ∀ ws ∈ p.heartbeats, p.sockets ws = .opened ∨ p.sockets ws = .closed

section Sockets

variable {upper : String → String} {p p' : Page} {live : Option WebSocket} {callback : Callback}
  {callbacks : List Callback}

theorem live_connecting : ReadyState.Live .connecting := Or.inl rfl

theorem live_opened : ReadyState.Live .opened := Or.inr rfl

theorem not_live_absent : ¬ReadyState.Live .absent := by
  rintro (h | h) <;> nomatch h

theorem not_live_closed : ¬ReadyState.Live .closed := by
  rintro (h | h) <;> nomatch h

/-- What is live once one socket has changed its state. -/
theorem live_update {sockets : WebSocket → ReadyState} {ws : WebSocket} {s : ReadyState}
    {live' : Option WebSocket} (hlive : ∀ c, (sockets c).Live ↔ live = some c)
    (hown : s.Live ↔ live' = some ws) (hother : ∀ c, c ≠ ws → (live = some c ↔ live' = some c))
    (c : WebSocket) : (Function.update sockets ws s c).Live ↔ live' = some c := by
  by_cases hc : c = ws
  · rw [hc, Function.update_self, hown]
  · rw [Function.update_of_ne hc, hlive, hother c hc]

theorem sound_load (ws : WebSocket) : (Page.load ws).Sound (some ws) where
  live_iff := by
    have hnone : ∀ c, ReadyState.Live .absent ↔ (none : Option WebSocket) = some c :=
      fun c => iff_of_false not_live_absent (Option.some_ne_none c).symm
    exact live_update hnone (iff_of_true live_connecting rfl) fun c hc =>
      iff_of_false (Option.some_ne_none c).symm fun h => hc (Option.some.inj h).symm
  timer := rfl
  nodup := List.nodup_nil
  opened c hc := by
    have hupdate : Function.update (fun _ => ReadyState.absent) ws .connecting c = .opened := hc
    rw [Function.update_apply] at hupdate
    split at hupdate <;> nomatch hupdate
  heartbeat _ hc := absurd hc List.not_mem_nil

namespace Page.Sound

variable (h : p.Sound live) {ws : WebSocket}

include h

theorem onopen (hws : p.sockets ws = .connecting) : (p.onopen ws).Sound live where
  live_iff := live_update h.live_iff
    (iff_of_true live_opened ((h.live_iff ws).mp (hws ▸ live_connecting))) fun _ _ => Iff.rfl
  timer := h.timer
  nodup := by
    -- a socket that is connecting has no heartbeat yet
    have hnew : ws ∉ p.heartbeats := by
      intro hmem
      rcases h.heartbeat ws hmem with hs | hs <;> nomatch hws.symm.trans hs
    rw [heartbeats_onopen, List.nodup_append]
    refine ⟨h.nodup, List.nodup_singleton ws, fun x hx y hy => ?_⟩
    rintro rfl
    exact hnew (List.mem_singleton.mp hy ▸ hx)
  opened c hc := by
    rw [heartbeats_onopen, List.mem_append, List.mem_singleton]
    by_cases hne : c = ws
    · exact Or.inr hne
    · rw [sockets_onopen, Function.update_of_ne hne] at hc
      exact Or.inl (h.opened c hc)
  heartbeat c hc := by
    rw [heartbeats_onopen, List.mem_append, List.mem_singleton] at hc
    by_cases hne : c = ws
    · rw [hne, sockets_onopen, Function.update_self]
      exact Or.inl rfl
    · rw [sockets_onopen, Function.update_of_ne hne]
      exact h.heartbeat c (hc.resolve_right hne)

theorem onclose (hws : (p.sockets ws).Live) : (p.onclose ws).Sound none where
  live_iff := live_update h.live_iff (iff_of_false not_live_closed nofun) fun c hc => by
    rw [(h.live_iff ws).mp hws]
    exact iff_of_false (fun heq => hc (Option.some.inj heq).symm) nofun
  timer := by
    rw [reconnects_onclose, h.timer, (h.live_iff ws).mp hws]
    rfl
  nodup := h.nodup
  opened c hc := by
    by_cases hne : c = ws
    · rw [hne, sockets_onclose, Function.update_self] at hc
      nomatch hc
    · rw [sockets_onclose, Function.update_of_ne hne] at hc
      exact h.opened c hc
  heartbeat c hc := by
    by_cases hne : c = ws
    · rw [hne, sockets_onclose, Function.update_self]
      exact Or.inr rfl
    · rw [sockets_onclose, Function.update_of_ne hne]
      exact h.heartbeat c hc

/-- A timer is set only while no socket is live. -/
theorem eq_none_of_pos (hpos : 0 < p.reconnects) : live = none := by
  by_contra hsome
  rw [h.timer, if_neg hsome] at hpos
  omega

theorem reconnect (hpos : 0 < p.reconnects) (hws : p.sockets ws = .absent) :
    (p.reconnect ws).Sound (some ws) where
  live_iff := live_update h.live_iff (iff_of_true live_connecting rfl) fun c hc => by
    rw [h.eq_none_of_pos hpos]
    exact iff_of_false nofun fun heq => hc (Option.some.inj heq).symm
  timer := by
    show p.reconnects - 1 = 0
    rw [h.timer, h.eq_none_of_pos hpos]
    rfl
  nodup := h.nodup
  opened c hc := by
    by_cases hne : c = ws
    · rw [hne, sockets_reconnect, Function.update_self] at hc
      nomatch hc
    · rw [sockets_reconnect, Function.update_of_ne hne] at hc
      exact h.opened c hc
  heartbeat c hc := by
    have hne : c ≠ ws := by
      rintro rfl
      rcases h.heartbeat c hc with hs | hs <;> nomatch hws.symm.trans hs
    rw [sockets_reconnect, Function.update_of_ne hne]
    exact h.heartbeat c hc

theorem onmessage (data : Data) : (p.onmessage upper data).Sound live := by
  cases data with
  | connected => exact ⟨h.live_iff, h.timer, h.nodup, h.opened, h.heartbeat⟩
  | alert data =>
    rw [Page.onmessage]
    split <;> exact ⟨h.live_iff, h.timer, h.nodup, h.opened, h.heartbeat⟩

/-- **Every callback keeps to one socket.** -/
theorem step (hstep : p.step upper callback = some p') : p'.Sound (callback.live live) := by
  cases stepped_of_step hstep with
  | onopen hws => exact h.onopen hws
  | onmessage data => exact h.onmessage data
  | onerror => exact ⟨h.live_iff, h.timer, h.nodup, h.opened, h.heartbeat⟩
  | onclose hws => exact h.onclose hws
  | connect hpos hws => exact h.reconnect hpos hws
  | clearFeed => exact ⟨h.live_iff, h.timer, h.nodup, h.opened, h.heartbeat⟩

/-- The one heartbeat that is sent is that of the open socket. -/
theorem beating (hws : p.sockets ws = .opened) : p.beating = [ws] := by
  have honly : ∀ c, p.sockets c = .opened ↔ c = ws := by
    intro c
    refine ⟨fun hc => ?_, fun heq => heq ▸ hws⟩
    have hlive := (h.live_iff c).mp (hc ▸ live_opened)
    exact Option.some.inj (hlive.symm.trans ((h.live_iff ws).mp (hws ▸ live_opened)))
  have hcount : p.heartbeats.count ws = 1 :=
    List.count_eq_one_of_mem h.nodup (h.opened ws hws)
  rw [Page.beating]
  simp only [honly]
  rw [List.filter_eq, hcount, List.replicate_one]

end Page.Sound

theorem sound_run (hsound : p.Sound live)
    (hrun : Lts.run (Page.step upper) callbacks p = some p') : ∃ live', p'.Sound live' :=
  Lts.run_invariant (I := fun q => ∃ live', Page.Sound q live') (P := fun _ => True)
    (fun _ _ _ ⟨_, h⟩ _ hstep => ⟨_, h.step hstep⟩) ⟨live, hsound⟩ (fun _ _ => trivial) hrun

theorem length_heartbeats_step (hstep : p.step upper callback = some p') :
    p'.heartbeats.length = p.heartbeats.length + [callback].countP Callback.opens := by
  cases Page.stepped_of_step hstep with
  | onopen => exact List.length_append
  | onmessage data =>
    cases data with
    | connected => rfl
    | alert data =>
      rw [Page.onmessage]
      split <;> rfl
  | onerror | onclose | connect | clearFeed => rfl

theorem length_heartbeats_run (hrun : Lts.run (Page.step upper) callbacks p = some p') :
    p'.heartbeats.length = p.heartbeats.length + callbacks.countP Callback.opens := by
  induction callbacks generalizing p with
  | nil =>
    obtain rfl := Option.some.inj hrun
    rfl
  | cons callback callbacks ih =>
    obtain ⟨q, hstep, hrest⟩ := Lts.exists_of_run_cons hrun
    have hcount : (callback :: callbacks).countP Callback.opens
        = [callback].countP Callback.opens + callbacks.countP Callback.opens := by
      rw [← List.countP_append]
      rfl
    rw [ih hrest, length_heartbeats_step hstep, hcount, Nat.add_assoc]

/-- **One socket at a time**: in every run of the page at most one of its sockets is live,
and a timer is set to make the next just where none is. The timers of the heartbeats pile
up, one for every socket that has opened, but while a socket is open only its own sends. -/
theorem one_socket {ws : WebSocket}
    (hrun : Lts.run (Page.step upper) callbacks (.load ws) = some p) :
    ∃ live : Option WebSocket, (∀ c, (p.sockets c).Live ↔ live = some c) ∧
      p.reconnects = (if live = none then 1 else 0) ∧
      p.heartbeats.length = callbacks.countP Callback.opens ∧
      ∀ c, p.sockets c = .opened → p.beating = [c] := by
  obtain ⟨live, h⟩ := sound_run (sound_load ws) hrun
  have hlength : p.heartbeats.length = 0 + callbacks.countP Callback.opens :=
    length_heartbeats_run hrun
  rw [Nat.zero_add] at hlength
  exact ⟨live, h.live_iff, h.timer, hlength, fun c hc => h.beating hc⟩

/-- The socket of a page closes, and the next one opens: two heartbeats, one of them sent. -/
def reopened : List Callback := [.onopen 1, .onclose 1, .connect 2, .onopen 2]

theorem one_socket_reopened :
    ∃ p, Lts.run (Page.step id) reopened (.load 1) = some p ∧ p.heartbeats.length = 2 ∧
      p.beating = [2] := by
  obtain ⟨live, -, -, hlength, hbeating⟩ := @one_socket id _ reopened 1 rfl
  exact ⟨_, rfl, hlength, hbeating 2 rfl⟩

end Sockets

end DemoPage

end AiopsLog
