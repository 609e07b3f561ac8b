import AiopsLog.Alert
import AiopsLog.Gateway.ConnectionManager
import Mathlib.Data.List.Chain

/-!
# The consumer loop and its consumers

`kafka_consumer_loop` creates a Kafka consumer, handles its messages one by one, and
stops it whatever ends the iteration; then it starts over, until it is cancelled.
`lifespan` cancels it at shutdown, awaits it, and stops a consumer that is still there.

A run is given by its awaits in their order, each with what it ends with
(`AiopsLog.Await`): a value, an `Exception`, or the cancellation, which is delivered to
the await the task is suspended in. The code runs through the list and halts at its end.
The log says what has become of the consumers.

The statement is that no consumer is started while an earlier one has not been stopped,
that none is left running when the lifespan is over, and that nothing is created and no
message handled once the cancellation has been delivered
(`AiopsLog.lifespan_stops_consumers`). The last part has an exception. A cancellation
that hits the insert of an alert leaves through `async with pool.acquire()`, which
releases the connection; when the release raises, its `Exception` replaces the
`CancelledError`, the `except Exception` around the insert drops it, and the loop goes
on as if nothing had happened (`AiopsLog.not_lifespan_stops_consumers_release`).
-/

namespace AiopsLog

open Py Py.Code

/-! ### Runs -/

/-- The awaits of the task and of the lifespan around it. -/
inductive AwaitSite where
  | createPool | start | retryWait | next | acquire | execute | release | send | backoff | stop
  | closePool
  deriving DecidableEq, Repr

/-- What an await ends with. -/
inductive Reply where
  /-- It returns; for `__anext__`, the iteration is over. -/
  | returned : Reply
  /-- The value of `__anext__` is a message of this text. -/
  | message : String → Reply
  | raised : Exn → Reply
  deriving DecidableEq, Repr

/-- An await of a run. -/
structure Await where
  site : AwaitSite
  reply : Reply
  deriving DecidableEq, Repr

/-- What becomes of the consumers. -/
inductive ConsumerEvent where
  /-- An `AIOKafkaConsumer` is made. -/
  | created : ℕ → ConsumerEvent
  /-- Its `start` is called. -/
  | starting : ℕ → ConsumerEvent
  /-- Its `start` returns. -/
  | started : ℕ → ConsumerEvent
  /-- Its `stop` is called. -/
  | stopping : ℕ → ConsumerEvent
  /-- A message is taken up. -/
  | received : String → ConsumerEvent
  /-- The cancellation is delivered. -/
  | cancelled : ConsumerEvent
  deriving DecidableEq, Repr

/-- The shared state: whether there is a pool, and which consumer there is; with the
number of consumers made, the awaits to come and the log. -/
structure AppState where
  dbPool : Bool
  kafkaConsumer : Option ℕ
  created : ℕ
  awaits : List Await
  log : List ConsumerEvent

/-- Before the startup. -/
def AppState.start (awaits : List Await) : AppState := ⟨false, none, 0, awaits, []⟩

/-! ### The code -/

/-- Log an event. -/
def happen (e : ConsumerEvent) : Code AppState Unit :=
  update fun s => { s with log := s.log ++ [e] }

/-- An await ends. -/
def Reply.take : Reply → Code AppState (Option String)
  | .returned => pure none
  | .message text => pure (some text)
  | .raised .error => raise .error
  | .raised .cancelled => do
    happen .cancelled
    raise .cancelled

/-- An await and its value. The code is halted in it when the run is over, or is not one
of this code. -/
def suspend (site : AwaitSite) : Code AppState (Option String) := fun s =>
  match s.awaits with
  | [] => (.halted, s)
  | a :: awaits => if a.site = site then a.reply.take { s with awaits } else (.halted, s)

/-- `await`. -/
def await (site : AwaitSite) : Code AppState Unit := do
  let _ ← suspend site

/-- One attempt of `_create_kafka_consumer`. -/
def startConsumer : Code AppState ℕ := do
  let n ← read (·.created)
  update fun s => { s with created := s.created + 1 }
  happen (.created n)
  happen (.starting n)
  await .start
  happen (.started n)
  pure n

/-- `@retry`, with this many attempts left: an error is followed by a wait and another
attempt, the last one by a `RetryError`. -/
def retrying (attempt : Code AppState ℕ) : ℕ → Code AppState ℕ
  | 0 => raise .error
  | k + 1 => tryExcept attempt fun
    | .error => some do
      if k ≠ 0 then
        await .retryWait
      retrying attempt k
    | .cancelled => none

/-- `_create_kafka_consumer`. -/
def createKafkaConsumer : Code AppState ℕ := retrying startConsumer 10

/-- The insert of an alert: `async with pool.acquire() as conn: await conn.execute(…)`. -/
def insertAlert : Code AppState Unit := do
  await .acquire
  tryFinally (await .execute) (await .release)

/-- `stop` of a consumer. -/
def stopConsumer (n : ℕ) : Code AppState Unit := do
  happen (.stopping n)
  await .stop

section Loop

variable (alertOf : String → Option AlertEvent) (live : List ConsumerEvent → List WebSocket)

/-- The awaits of `manager.broadcast`: its sends, one to each client on its copy. The
lock is never waited for. -/
def sendAll : Code AppState Unit := do
  let clients ← read fun s => live s.log
  forEach (fun _ => exceptException (await .send) (pure ())) clients

/-- The handling of a message. `alertOf` is the alert made of its text, none where that
raises; `live` is who is registered, which depends on other tasks. -/
def handleMessage (raw : String) : Code AppState Unit :=
  exceptException (do
    match alertOf raw with
    | none => raise .error
    | some _ =>
      if ← read (·.dbPool) then exceptException insertAlert (pure ())
      sendAll live) (pure ())

/-- `async for msg in state.kafka_consumer`, watched for `n` iterations. -/
def messages (n : ℕ) : Code AppState Unit :=
  whileTrue (do
    match ← suspend .next with
    | none => pure .stop
    | some raw =>
      happen (.received raw)
      handleMessage alertOf live raw
      pure .again) n

/-- The `finally` clause of the loop. -/
def stopCurrent : Code AppState Unit := do
  match ← read (·.kafkaConsumer) with
  | none => pure ()
  | some n =>
    exceptException (stopConsumer n) (pure ())
    -- not reached where the cancellation hits the `stop`: the shutdown then stops it again
    update fun s => { s with kafkaConsumer := none }

/-- The `try` block of the loop. -/
def consume (n : ℕ) : Code AppState Flow := do
  let consumer ← createKafkaConsumer
  update fun s => { s with kafkaConsumer := some consumer }
  messages alertOf live n
  pure .again

/-- One iteration of `kafka_consumer_loop`. -/
def consumeOnce (n : ℕ) : Code AppState Flow :=
  tryFinally
    (tryExcept (consume alertOf live n) fun
      | .cancelled => some (pure .stop)
      | .error => some do
        await .backoff
        pure .again)
    stopCurrent

/-- `kafka_consumer_loop`. -/
def kafkaConsumerLoop (n : ℕ) : Code AppState Unit := whileTrue (consumeOnce alertOf live n) n

/-- The task of `lifespan`, awaited at the shutdown until it ends. -/
def awaitTask (n : ℕ) : Code AppState Unit :=
  tryExcept (kafkaConsumerLoop alertOf live n) fun
    | .cancelled => some (pure ())
    | .error => none

/-- The shutdown once the task has ended. -/
def shutdown : Code AppState Unit := do
  match ← read (·.kafkaConsumer) with
  | none => pure ()
  | some consumer => stopConsumer consumer
  if ← read (·.dbPool) then
    await .closePool

/-- `lifespan`. -/
def lifespan (n : ℕ) : Code AppState Unit := do
  exceptException
    (do
      await .createPool
      update fun s => { s with dbPool := true })
    (update fun s => { s with dbPool := false })
  awaitTask alertOf live n
  shutdown

end Loop

/-! ### The assertions -/

/-- A consumer has been started, and has not been stopped since. -/
def Unstopped (n : ℕ) : List ConsumerEvent → Prop :=
  History.Since (· = .started n) (· = .stopping n)

/-- When an event may happen: no consumer is started before all those started have been
stopped, and none is created and no message taken up after the cancellation. -/
def ConsumerEvent.LegalAfter (log : List ConsumerEvent) : ConsumerEvent → Prop
  | .starting _ => ∀ n, ¬Unstopped n log
  | .created _ | .received _ => .cancelled ∉ log
  | _ => True

/-- **No release drops the cancellation**: a release that follows an insert hit by it does
not raise an `Exception`. -/
def ReleasesReturn : List Await → Prop :=
  List.IsChain fun a b => ¬(a = ⟨.execute, .raised .cancelled⟩ ∧ b = ⟨.release, .raised .error⟩)

/-- Every event has been legal; the consumer left running, if any, is `running`, and the
shared state holds `current`. As long as it is `early`, the cancellation has not been
delivered. -/
structure InOrder (early : Prop) (running current : Option ℕ) (s : AppState) : Prop where
  legal : History.Legal ConsumerEvent.LegalAfter s.log
  unstopped : ∀ n, Unstopped n s.log → running = some n
  current : s.kafkaConsumer = current
  releases : ReleasesReturn s.awaits
  uncancelled : early → .cancelled ∉ s.log

/-- In order at the end of a block: one that is over, other than by the cancellation, is as
early as it was. -/
def After (early : Prop) (running current : Option ℕ) {α : Type} : Ending α → AppState → Prop
  | .done _, s | .raised .error, s => InOrder early running current s
  | .raised .cancelled, s | .halted, s => InOrder False running current s

/-- Code that leaves the consumers alone. -/
def Calm (early : Prop) (running current : Option ℕ) {α : Type} (c : Code AppState α) : Prop :=
  Ensures (InOrder early running current) c (After early running current)

section Assertions

variable {early : Prop} {running current : Option ℕ} {s : AppState} {log : List ConsumerEvent}
  {α β : Type}

theorem unstopped_append_singleton {n : ℕ} {e : ConsumerEvent} :
    Unstopped n (log ++ [e]) ↔ e = .started n ∨ Unstopped n log ∧ e ≠ .stopping n :=
  History.since_append_singleton

namespace InOrder

variable (h : InOrder early running current s)

include h

theorem late : InOrder False running current s :=
  ⟨h.legal, h.unstopped, h.current, h.releases, False.elim⟩

theorem advance {a : Await} {awaits : List Await} (hawaits : s.awaits = a :: awaits) :
    InOrder early running current { s with awaits } :=
  ⟨h.legal, h.unstopped, h.current, (hawaits ▸ h.releases : ReleasesReturn (a :: awaits)).tail,
    h.uncancelled⟩

/-- An event other than the cancellation leaves that undelivered. -/
theorem uncancelled_append {e : ConsumerEvent} (he : early → e ≠ .cancelled) :
    early → .cancelled ∉ s.log ++ [e] := by
  intro hearly hmem
  rcases List.mem_append.mp hmem with hmem | hmem
  · exact h.uncancelled hearly hmem
  · exact he hearly (List.mem_singleton.mp hmem).symm

/-- A legal event that starts no consumer. -/
theorem happen {e : ConsumerEvent} (he : e.LegalAfter s.log) (hstart : ∀ n, e ≠ .started n)
    (hcancelled : early → e ≠ .cancelled) :
    InOrder early running current { s with log := s.log ++ [e] } where
  legal := History.legal_append_singleton.mpr ⟨h.legal, he⟩
  unstopped n hn := by
    rcases unstopped_append_singleton.mp hn with hn | hn
    · exact absurd hn (hstart n)
    · exact h.unstopped n hn.1
  current := h.current
  releases := h.releases
  uncancelled := h.uncancelled_append hcancelled

/-- The cancellation is delivered. -/
theorem cancel : InOrder False running current { s with log := s.log ++ [.cancelled] } :=
  h.late.happen trivial nofun False.elim

end InOrder

/-- A consumer is started while none is running. -/
theorem InOrder.started (h : InOrder early none current s) (n : ℕ) :
    InOrder early (some n) current { s with log := s.log ++ [.started n] } where
  legal := History.legal_append_singleton.mpr ⟨h.legal, trivial⟩
  unstopped k hk := by
    rcases unstopped_append_singleton.mp hk with hk | hk
    · rw [ConsumerEvent.started.inj hk]
    · nomatch h.unstopped k hk.1
  current := h.current
  releases := h.releases
  uncancelled := h.uncancelled_append fun _ => nofun

/-- The running consumer has its `stop` called. -/
theorem InOrder.stopping {n : ℕ} (h : InOrder early (some n) current s) :
    InOrder early none current { s with log := s.log ++ [.stopping n] } where
  legal := History.legal_append_singleton.mpr ⟨h.legal, trivial⟩
  unstopped k hk := by
    rcases unstopped_append_singleton.mp hk with hk | ⟨hk, hne⟩
    · nomatch hk
    · exact absurd (by rw [Option.some.inj (h.unstopped k hk)]) hne
  current := h.current
  releases := h.releases
  uncancelled := h.uncancelled_append fun _ => nofun

theorem After.raised {e : Exn} (h : After early running current (.raised e : Ending α) s) :
    After early running current (.raised e : Ending β) s := by
  cases e with
  | error | cancelled => exact h

theorem After.late {e : Exn} (h : After early running current (.raised e : Ending α) s) :
    InOrder False running current s := by
  cases e with
  | error => exact InOrder.late h
  | cancelled => exact h

namespace Calm

theorem pure {a : α} : Calm early running current (Pure.pure a : Code AppState α) :=
  Ensures.pure fun _ h => h

theorem raise : Calm early running current (Code.raise .error : Code AppState α) :=
  Ensures.raise fun _ h => h

theorem read {f : AppState → α} : Calm early running current (Code.read f) :=
  Ensures.read fun _ h => h

theorem happen {e : ConsumerEvent} (hstart : ∀ n, e ≠ .started n)
    (hcancelled : early → e ≠ .cancelled)
    (he : ∀ s, InOrder early running current s → e.LegalAfter s.log) :
    Calm early running current (happen e) :=
  Ensures.update fun s h => h.happen (he s h) hstart hcancelled

theorem bind {c : Code AppState α} {f : α → Code AppState β} (hc : Calm early running current c)
    (hf : ∀ a, Calm early running current (f a)) : Calm early running current (c >>= f) :=
  Ensures.bind hc (fun _ _ h => h.raised) (fun _ h => h) hf

theorem exceptException {c clause : Code AppState α} (hc : Calm early running current c)
    (hclause : Calm early running current clause) :
    Calm early running current (Code.exceptException c clause) :=
  Ensures.exceptException hc (fun _ _ h => h) (fun _ h => h) (fun _ h => h) hclause

theorem forEach {body : β → Code AppState Unit} (h : ∀ x, Calm early running current (body x))
    (xs : List β) : Calm early running current (Code.forEach body xs) := by
  refine Ensures.forEach (fun x => (h x).weaken (fun _ hs => hs) fun e s hs => ?_)
    (fun _ hs => hs) xs
  cases e with
  | done | raised | halted => exact hs

theorem whileTrue {body : Code AppState Flow} (h : Calm early running current body) (n : ℕ) :
    Calm early running current (Code.whileTrue body n) := by
  refine Ensures.whileTrue (h.weaken (fun _ hs => hs) fun e s hs => ?_) (fun _ hs => hs.late) n
  rcases e with (_ | _) | (_ | _) | _ <;> exact hs

end Calm

/-- **What an await can do**: halt, or take the next reply of the run. -/
theorem suspend_cases (site : AwaitSite) (s : AppState) :
    suspend site s = (.halted, s) ∨ ∃ reply awaits, s.awaits = ⟨site, reply⟩ :: awaits ∧
      ((∃ value, suspend site s = (.done value, { s with awaits })) ∨
        (reply = .raised .error ∧ suspend site s = (.raised .error, { s with awaits })) ∨
        (reply = .raised .cancelled ∧ suspend site s
          = (.raised .cancelled, { s with awaits, log := s.log ++ [.cancelled] }))) := by
  obtain ⟨dbPool, kafkaConsumer, created, awaits, log⟩ := s
  cases awaits with
  | nil => exact .inl rfl
  | cons a awaits =>
    obtain ⟨here, reply⟩ := a
    by_cases hsite : here = site
    · subst hsite
      have htake : suspend here ⟨dbPool, kafkaConsumer, created, ⟨here, reply⟩ :: awaits, log⟩
          = reply.take ⟨dbPool, kafkaConsumer, created, awaits, log⟩ := if_pos rfl
      refine .inr ⟨reply, awaits, rfl, ?_⟩
      rw [htake]
      rcases reply with _ | text | (_ | _)
      · exact .inl ⟨_, rfl⟩
      · exact .inl ⟨_, rfl⟩
      · exact .inr (.inl ⟨rfl, rfl⟩)
      · exact .inr (.inr ⟨rfl, rfl⟩)
    · exact .inl (if_neg hsite)

/-- **An await** keeps order, and the cancellation is raised where it is delivered. -/
theorem calm_suspend (site : AwaitSite) : Calm early running current (suspend site) := by
  intro s h
  rcases suspend_cases site s with
    heq | ⟨reply, awaits, hawaits, ⟨v, heq⟩ | ⟨-, heq⟩ | ⟨-, heq⟩⟩ <;> rw [heq]
  · exact h.late
  · exact h.advance hawaits
  · exact h.advance hawaits
  · exact (h.advance hawaits).cancel

theorem calm_await (site : AwaitSite) : Calm early running current (await site) :=
  (calm_suspend site).bind fun _ => Calm.pure

/-! ### A message -/

/-- No `Exception` is what a release is about to end with. -/
def NoFailedRelease (s : AppState) : Prop :=
  ∀ reply awaits, s.awaits = ⟨.release, reply⟩ :: awaits → reply ≠ .raised .error

/-- The insert of an alert hit by the cancellation has a release before it that does not
raise an `Exception`. -/
theorem after_execute :
    Ensures (InOrder early running current) (await .execute) fun e s =>
      After early running current e s ∧ (e = .raised .cancelled → NoFailedRelease s) := by
  intro s h
  refine ⟨calm_await _ s h, ?_⟩
  rw [await, bind_apply]
  rcases suspend_cases .execute s with
    heq | ⟨reply, awaits, hawaits, ⟨v, heq⟩ | ⟨-, heq⟩ | ⟨hreply, heq⟩⟩ <;> rw [heq]
  · nofun
  · nofun
  · nofun
  · -- the release that follows is the one the hypothesis is about
    rintro - reply' more hmore rfl
    have hmore : awaits = ⟨.release, .raised .error⟩ :: more := hmore
    have hchain := h.releases
    rw [hawaits, hreply, hmore] at hchain
    exact (List.isChain_cons_cons.mp hchain).1 ⟨rfl, rfl⟩

/-- **The release lets the cancellation through.** -/
theorem cancelled_after_release :
    Ensures (fun s => InOrder False running current s ∧ NoFailedRelease s)
      (do await .release; Code.raise .cancelled : Code AppState Unit)
      (After early running current) := by
  rintro s ⟨h, hrelease⟩
  rw [await, bind_apply, bind_apply]
  rcases suspend_cases .release s with
    heq | ⟨reply, awaits, hawaits, ⟨v, heq⟩ | ⟨hreply, heq⟩ | ⟨-, heq⟩⟩ <;> rw [heq]
  · exact h
  · exact h.advance hawaits
  · exact absurd hreply (hrelease reply awaits hawaits)
  · exact (h.advance hawaits).cancel

/-- **An insert** ends with the cancellation where that has been delivered in it. -/
theorem calm_insertAlert : Calm early running current insertAlert := by
  refine (calm_await _).bind fun _ => ?_
  refine Ensures.tryFinally after_execute (fun _ h => h.1) (fun a => ?_) fun e => ?_
  · exact Ensures.weaken ((calm_await _).bind fun _ => Calm.pure) (fun _ h => h.1) fun _ _ h => h
  · cases e with
    | error =>
      exact Ensures.weaken ((calm_await _).bind fun _ => Calm.raise) (fun _ h => h.1) fun _ _ h => h
    | cancelled =>
      exact cancelled_after_release.weaken (fun _ h => ⟨h.1, h.2 rfl⟩) fun _ _ h => h

section Message

variable {alertOf : String → Option AlertEvent} {live : List ConsumerEvent → List WebSocket}

theorem calm_sendAll : Calm early running current (sendAll live) :=
  Calm.read.bind fun clients => Calm.forEach
    (fun _ => (calm_await _).exceptException Calm.pure) clients

theorem calm_handleMessage (raw : String) :
    Calm early running current (handleMessage alertOf live raw) := by
  refine Calm.exceptException ?_ Calm.pure
  cases alertOf raw with
  | none => exact Calm.raise
  | some alert =>
    refine Calm.read.bind fun dbPool => ?_
    cases dbPool with
    | false => exact calm_sendAll
    | true => exact (calm_insertAlert.exceptException Calm.pure).bind fun _ => calm_sendAll

/-- **The messages are taken up while the cancellation has not been delivered.** -/
theorem calm_messages (n : ℕ) : Calm True running current (messages alertOf live n) := by
  refine Calm.whileTrue ((calm_suspend _).bind fun value => ?_) n
  cases value with
  | none => exact Calm.pure
  | some raw =>
    refine Calm.bind (Calm.happen nofun nofun fun s h => h.uncancelled trivial) fun _ => ?_
    exact (calm_handleMessage raw).bind fun _ => Calm.pure

end Message

end Assertions

/-! ### A consumer -/

/-- A consumer started and left running, or none. -/
def Started : Ending ℕ → AppState → Prop
  | .done n, s => InOrder True (some n) none s
  | e, s => After True none none e s

/-- In order where the code is halted, and every consumer stopped where it is over. -/
def Over {α : Type} : Ending α → AppState → Prop
  | .halted, s => ∃ running current, InOrder False running current s
  | _, s => ∃ current, InOrder False none current s

/-- Calm code before the rest of an attempt. -/
theorem Calm.started {α : Type} {c : Code AppState α} {f : α → Code AppState ℕ}
    (hc : Calm True none none c) (hf : ∀ a, Ensures (InOrder True none none) (f a) Started) :
    Ensures (InOrder True none none) (c >>= f) Started :=
  Ensures.bind hc (fun _ _ h => h.raised) (fun _ h => h) hf

/-- **An attempt** starts a consumer, and leaves it running if its `start` returns. -/
theorem ensures_startConsumer : Ensures (InOrder True none none) startConsumer Started := by
  have hmade : Calm True none none (update fun s => { s with created := s.created + 1 }) :=
    fun s h => ⟨h.legal, h.unstopped, h.current, h.releases, h.uncancelled⟩
  have hcreated : ∀ n, Calm True none none (happen (.created n)) := fun n =>
    Calm.happen nofun nofun fun s h => h.uncancelled trivial
  have hstarting : ∀ n, Calm True none none (happen (.starting n)) := fun n =>
    Calm.happen nofun nofun fun s h k hk => nomatch h.unstopped k hk
  refine Calm.read.started fun n => hmade.started fun _ => (hcreated n).started fun _ =>
    (hstarting n).started fun _ => (calm_await .start).started fun _ => ?_
  exact fun s h => h.started n

/-- `_create_kafka_consumer`, however many attempts it takes. -/
theorem ensures_retrying (k : ℕ) :
    Ensures (InOrder True none none) (retrying startConsumer k) Started := by
  induction k with
  | zero => exact Calm.raise
  | succ k ih =>
    refine Ensures.tryExcept ensures_startConsumer (fun _ _ h => h) (fun _ h => h) fun e => ?_
    cases e with
    | error =>
      by_cases hk : k = 0
      · subst hk
        exact ih
      · have hwait : Ensures (InOrder True none none)
            (do await .retryWait; retrying startConsumer k) Started :=
          (calm_await _).started fun _ => ih
        show Ensures (InOrder True none none) _ Started
        simpa [hk] using hwait
    | cancelled => exact fun _ h => h

/-- **The `finally` clause** stops the consumer there is, or is interrupted in its
`stop`. -/
theorem ensures_stopCurrent {early : Prop} :
    Ensures (fun s => ∃ current, InOrder early current current s) stopCurrent fun e s =>
      match e with
      | .done _ => InOrder early none none s
      | e => Over e s := by
  rintro s ⟨current, h⟩
  rw [stopCurrent, bind_apply, read_apply]
  simp only [h.current]
  cases current with
  | none => exact h
  | some n =>
    have hstop : Ensures (InOrder early none (some n))
        (do
          exceptException (await .stop) (pure ())
          update fun s => { s with kafkaConsumer := none }) fun e s => match e with
        | .done _ => InOrder early none none s
        | e => Over e s := by
      refine Ensures.bind ((calm_await _).exceptException Calm.pure) (fun e s h => ⟨_, h.late⟩)
        (fun s h => ⟨_, _, h⟩) fun _ => ?_
      exact fun s h => ⟨h.legal, h.unstopped, rfl, h.releases, h.uncancelled⟩
    exact hstop _ h.stopping

section Loop

variable {alertOf : String → Option AlertEvent} {live : List ConsumerEvent → List WebSocket}

/-- The `try` block: at its end the consumer left running is the one in the shared state. -/
theorem ensures_consume (n : ℕ) :
    Ensures (InOrder True none none) (consume alertOf live n) fun e s =>
      ∃ current, After True current current e s := by
  refine Ensures.bind (ensures_retrying 10) (fun e s h => ⟨none, After.raised h⟩)
    (fun s h => ⟨none, h⟩) fun consumer => ?_
  have hrest : Calm True (some consumer) (some consumer) (do
      messages alertOf live n
      pure .again : Code AppState Flow) := (calm_messages n).bind fun _ => Calm.pure
  -- the assignment: the consumer left running is now the one in the shared state
  intro s h
  exact ⟨some consumer, hrest _ ⟨h.legal, h.unstopped, rfl, h.releases, h.uncancelled⟩⟩

/-- The `except` clauses: the loop is left where the cancellation has been delivered. -/
def Caught : Ending Flow → AppState → Prop
  | .done .stop, s => ∃ current, InOrder False current current s
  | e, s => ∃ current, After True current current e s

/-- Where an iteration ends, no consumer is left running, and the loop goes on only where
the cancellation has not been delivered. -/
def Iterated : Ending Flow → AppState → Prop
  | .done .again, s => InOrder True none none s
  | e, s => Over e s

/-- The `finally` clause before the end of an iteration. -/
theorem stopCurrent_then {early : Prop} {c : Code AppState Flow}
    (hc : Ensures (InOrder early none none) c Iterated) :
    Ensures (fun s => ∃ current, InOrder early current current s) (do stopCurrent; c) Iterated :=
  Ensures.bind ensures_stopCurrent (fun _ _ h => h) (fun _ h => h) fun _ => hc

/-- **An iteration of the loop** stops its consumer, whatever ends it. -/
theorem ensures_consumeOnce (n : ℕ) :
    Ensures (InOrder True none none) (consumeOnce alertOf live n) Iterated := by
  refine Ensures.tryFinally (Q := Caught) (Ensures.tryExcept (ensures_consume n) (fun a s h => ?_)
    (fun _ h => h) fun e => ?_) (fun s h => ?_) (fun a => ?_) fun e => ?_
  · cases a with
    | again => exact h
    | stop => exact h.imp fun _ hs => InOrder.late hs
  · cases e with
    | error =>
      -- the back-off is outside the `try`: a cancellation in it leaves the loop by itself
      rintro s ⟨current, h⟩
      have hbackoff : Ensures (InOrder True current current)
          (do await .backoff; pure .again : Code AppState Flow) Caught :=
        Ensures.bind (calm_await _) (fun _ _ hs => ⟨current, hs.raised⟩) (fun _ hs => ⟨current, hs⟩)
          fun _ _ hs => ⟨current, hs⟩
      exact hbackoff s h
    | cancelled => exact fun _ h => h
  · obtain ⟨current, hs⟩ := h
    exact ⟨current, current, hs⟩
  · cases a with
    | again =>
      have hagain : Ensures (InOrder True none none) (pure .again) Iterated := fun _ h => h
      exact stopCurrent_then hagain
    | stop =>
      have hstop : Ensures (InOrder False none none) (pure .stop) Iterated := fun _ h => ⟨none, h⟩
      exact stopCurrent_then hstop
  · have hraise : Ensures (InOrder False none none) (raise e) Iterated := fun _ h => ⟨none, h⟩
    exact (stopCurrent_then hraise).weaken (fun s h => h.imp fun _ hs => After.late hs)
      fun _ _ h => h

theorem ensures_kafkaConsumerLoop (n : ℕ) :
    Ensures (InOrder True none none) (kafkaConsumerLoop alertOf live n) Over := by
  refine Ensures.whileTrue ((ensures_consumeOnce n).weaken (fun _ h => h) fun e s h => ?_)
    (fun _ h => ⟨_, _, h.late⟩) n
  rcases e with (_ | _) | _ | _ <;> exact h

/-! ### The lifespan -/

theorem inOrder_start {awaits : List Await} (h : ReleasesReturn awaits) :
    InOrder True none none (AppState.start awaits) where
  legal := History.legal_nil
  unstopped _ hn := absurd hn History.not_since_nil
  current := rfl
  releases := h
  uncancelled _ := List.not_mem_nil

/-- The shutdown stops the consumer there is, and starts none. -/
theorem calm_shutdown {current : Option ℕ} : Calm False none current shutdown := by
  have hclose : Calm False none current (do
      if ← read (·.dbPool) then
        await .closePool) := by
    refine Calm.read.bind fun dbPool => ?_
    cases dbPool with
    | false => exact Calm.pure
    | true => exact calm_await _
  have hstopping : ∀ n, Calm False none current (happen (.stopping n)) := fun n =>
    Calm.happen nofun False.elim fun _ _ => trivial
  have hstop : ∀ n, Calm False none current (stopConsumer n) := fun n =>
    (hstopping n).bind fun _ => calm_await _
  refine Calm.read.bind fun consumer => ?_
  cases consumer with
  | none => exact hclose
  | some consumer => exact (hstop consumer).bind fun _ => hclose

/-- The startup of the pool, whether it fails or not. -/
theorem calm_startup :
    Calm True none none (exceptException
      (do
        await .createPool
        update fun s => { s with dbPool := true })
      (update fun s => { s with dbPool := false })) := by
  have hupdate : ∀ b, Calm True none none (update fun s => { s with dbPool := b }) :=
    fun b s h => ⟨h.legal, h.unstopped, h.current, h.releases, h.uncancelled⟩
  exact ((calm_await _).bind fun _ => hupdate true).exceptException (hupdate false)

/-- **The lifespan** leaves no consumer running. -/
theorem ensures_lifespan (n : ℕ) :
    Ensures (InOrder True none none) (lifespan alertOf live n) Over := by
  have htask : Ensures (InOrder True none none) (awaitTask alertOf live n) Over := by
    refine Ensures.tryExcept (ensures_kafkaConsumerLoop n) (fun _ _ h => h) (fun _ h => h)
      fun e => ?_
    cases e with
    | error | cancelled => exact fun _ h => h
  have hshutdown : Ensures (fun s => ∃ current, InOrder False none current s) shutdown Over := by
    rintro s ⟨current, h⟩
    have hs := calm_shutdown s h
    rcases hend : shutdown s with ⟨_ | e | _, s'⟩ <;> rw [hend] at hs
    · exact ⟨current, hs⟩
    · exact ⟨current, After.late hs⟩
    · exact ⟨none, current, hs⟩
  refine Ensures.bind calm_startup (fun e s h => ⟨none, After.late h⟩) (fun s h => ⟨_, _, h⟩)
    fun _ => ?_
  exact Ensures.bind htask (fun _ _ h => h) (fun _ h => h) fun _ => hshutdown

/-- **Every consumer is stopped**: in every run in which no release drops the cancellation,
no consumer is started before all those started earlier have had their `stop` called;
none is created and no message is taken up after the cancellation; and when the
lifespan is over, however it ends, every consumer started has had its `stop` called. -/
theorem lifespan_stops_consumers (alertOf : String → Option AlertEvent)
    (live : List ConsumerEvent → List WebSocket) (n : ℕ) {awaits : List Await}
    (h : ReleasesReturn awaits) :
    History.Legal ConsumerEvent.LegalAfter (lifespan alertOf live n (.start awaits)).2.log ∧
      ((lifespan alertOf live n (.start awaits)).1 ≠ .halted →
        ∀ k, ¬Unstopped k (lifespan alertOf live n (.start awaits)).2.log) := by
  have hover : Over (lifespan alertOf live n (.start awaits)).1
      (lifespan alertOf live n (.start awaits)).2 := ensures_lifespan n _ (inOrder_start h)
  rcases hend : lifespan alertOf live n (.start awaits) with ⟨_ | _ | _, s⟩ <;> rw [hend] at hover
  · obtain ⟨current, hs⟩ := hover
    exact ⟨hs.legal, fun _ k hk => nomatch hs.unstopped k hk⟩
  · obtain ⟨current, hs⟩ := hover
    exact ⟨hs.legal, fun _ k hk => nomatch hs.unstopped k hk⟩
  · obtain ⟨running, current, hs⟩ := hover
    exact ⟨hs.legal, fun hne => absurd rfl hne⟩

end Loop

/-! ### The cancellation dropped -/

/-- An alert with nothing in it. -/
def bareAlert : AlertEvent := ⟨none, none, none, none, none, none, none, ""⟩

/-- A consumer is started, and the cancellation hits the insert of its first alert; the
release of the connection ends with a reply. -/
def cancelledInsert (release : Reply) : List Await :=
  [⟨.createPool, .returned⟩, ⟨.start, .returned⟩, ⟨.next, .message "first"⟩, ⟨.acquire, .returned⟩,
    ⟨.execute, .raised .cancelled⟩, ⟨.release, release⟩]

/-- **When the release raises, the loop takes up the next message.** -/
theorem not_lifespan_stops_consumers_release :
    ¬History.Legal ConsumerEvent.LegalAfter
      (lifespan (fun _ => some bareAlert) (fun _ => []) 2
        (.start (cancelledInsert (.raised .error) ++ [⟨.next, .message "second"⟩]))).2.log := by
  intro h
  have hsecond := h [.created 0, .starting 0, .started 0, .received "first", .cancelled]
    (.received "second") [] rfl
  exact hsecond (by decide)

/-- When it returns, the consumer is stopped, the pool closed and the lifespan over. -/
theorem lifespan_stops_consumers_release :
    (lifespan (fun _ => some bareAlert) (fun _ => []) 2
        (.start (cancelledInsert .returned
          ++ [⟨.stop, .returned⟩, ⟨.closePool, .returned⟩]))).1 = .done () ∧
      ∀ k, ¬Unstopped k (lifespan (fun _ => some bareAlert) (fun _ => []) 2
        (.start (cancelledInsert .returned
          ++ [⟨.stop, .returned⟩, ⟨.closePool, .returned⟩]))).2.log :=
  ⟨rfl, (@lifespan_stops_consumers (fun _ => some bareAlert) (fun _ => []) 2
    (cancelledInsert .returned ++ [⟨.stop, .returned⟩, ⟨.closePool, .returned⟩])
    (by unfold ReleasesReturn; decide)).2 nofun⟩

end AiopsLog
