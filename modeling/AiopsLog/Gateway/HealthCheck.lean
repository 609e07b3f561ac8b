import AiopsLog.Gateway.KafkaConsumer

/-!
# The health check

`/health` calls the consumer running as long as the shared state has one. It has one from the
moment its `start` returns to the moment its `stop` is over, so the answer can be read off the
awaits of the task: a `start` has returned, and no `stop` has ended since
(`AiopsLog.healthCheck_follows_awaits`).

The `finally` clause, which stops the consumer, comes behind the back-off. While the loop waits
after a crash, and nothing is consumed, the consumer is therefore still called running. The pool
is called connected if it was created, whatever becomes of the database.
-/

namespace AiopsLog

open Py Py.Code

/-! ### The endpoint -/

/-- The `dependencies` of the answer. -/
structure Dependencies where
  postgres : String
  kafkaConsumer : String

/-- The answer. -/
structure HealthReport where
  status : String
  timestamp : String
  dependencies : Dependencies

/-- `health_check`, at the time `now` as `isoformat` writes it. -/
def healthCheck (now : String) (s : AppState) : HealthReport where
  status := "ok"
  timestamp := now ++ "Z"
  dependencies :=
    { postgres := if s.dbPool then "connected" else "degraded"
      kafkaConsumer := if s.kafkaConsumer.isSome then "running" else "starting" }

/-- `lifespan` up to the shutdown, when requests are no longer answered. -/
def serving (alertOf : String → Option AlertEvent) (live : List ConsumerEvent → List WebSocket)
    (n : ℕ) : Code AppState Unit := do
  exceptException
    (do
      await .createPool
      update fun s => { s with dbPool := true })
    (update fun s => { s with dbPool := false })
  awaitTask alertOf live n

/-! ### What the awaits say -/

/-- The await does not raise. -/
def Await.Returns (a : Await) : Prop := ∀ e, a.reply ≠ .raised e

/-- A `start` returns. -/
def Await.Starts (a : Await) : Prop := a.site = .start ∧ a.Returns

/-- A `stop` is over, its errors being dropped. -/
def Await.Stops (a : Await) : Prop := a.site = .stop ∧ a.reply ≠ .raised .cancelled

/-- A consumer has been started, and none stopped since. -/
def Running : List Await → Prop := History.Since Await.Starts Await.Stops

/-- A message is waited for only while a consumer is running. -/
def Await.LegalAfter (past : List Await) (a : Await) : Prop := a.site = .next → Running past

/-- **The answer follows the awaits** there have been. -/
structure HealthReport.Follows (report : HealthReport) (past : List Await) : Prop where
  kafkaConsumer : report.dependencies.kafkaConsumer = "running" ↔ Running past
  postgres : report.dependencies.postgres = "connected" ↔
    ∃ a ∈ past.head?, a.site = .createPool ∧ a.Returns
  /-- The iteration has just raised: what follows is the back-off. -/
  crashed : past.getLast? = some ⟨.next, .raised .error⟩ →
    report.dependencies.kafkaConsumer = "running"

/-! ### The assertions -/

/-- Of the awaits `all` of the run some are over, the first one included: a consumer is running as
`on` says, and the pool is there as the first one says. The shared state has this consumer and
this pool. -/
structure Knows (all : List Await) (pool : Bool) (on : Prop) (current : Option ℕ) (s : AppState) :
    Prop where
  past : ∃ first past, all = first :: past ++ s.awaits ∧ (Running (first :: past) ↔ on) ∧
    History.Legal Await.LegalAfter (first :: past) ∧
    (pool = true ↔ first.site = .createPool ∧ first.Returns)
  current : s.kafkaConsumer = current
  pool : s.dbPool = pool

/-- Nobody is between a `start` and the assignment of its consumer. -/
def Settled (all : List Await) (pool : Bool) (s : AppState) : Prop :=
  ∃ current : Option ℕ, Knows all pool (current.isSome = true) current s

section Assertions

variable {all : List Await} {pool : Bool} {on : Prop} {current : Option ℕ} {s : AppState}
  {α β : Type}

theorem Knows.congr {on' : Prop} (h : Knows all pool on current s) (hon : on ↔ on') :
    Knows all pool on' current s := by
  rwa [propext hon.symm]

/-- **One more await is over.** -/
theorem Knows.advance {a : Await} {awaits : List Await} (h : Knows all pool on current s)
    (hawaits : s.awaits = a :: awaits) (hnext : a.site = .next → on) :
    Knows all pool (a.Starts ∨ on ∧ ¬a.Stops) current { s with awaits } where
  past := by
    obtain ⟨first, past, hall, hrunning, hlegal, hpool⟩ := h.past
    refine ⟨first, past ++ [a], ?_, ?_, ?_, hpool⟩
    · rw [hall, hawaits]
      simp
    · rw [← List.cons_append, Running, History.since_append_singleton, ← hrunning]
      rfl
    · rw [← List.cons_append, History.legal_append_singleton]
      exact ⟨hlegal, fun hsite => hrunning.mpr (hnext hsite)⟩
  current := h.current
  pool := h.pool

/-- **What an await does to the account**: nothing, unless it is a `start` or a `stop`. -/
theorem ensures_suspend {site : AwaitSite} (hnext : site = .next → on) :
    Ensures (Knows all pool on current) (suspend site) fun e s => match e with
      | .done _ => Knows all pool (site = .start ∨ on ∧ site ≠ .stop) current s
      | .raised .error => Knows all pool (on ∧ site ≠ .stop) current s
      | .raised .cancelled | .halted => Knows all pool on current s := by
  intro s h
  rcases hawaits : s.awaits with _ | ⟨⟨here, reply⟩, awaits⟩
  · have heq : suspend site s = (.halted, s) := by rw [suspend, hawaits]
    rw [heq]
    exact h
  · by_cases hsite : here = site
    · subst hsite
      have heq : suspend here s = reply.take { s with awaits } := by
        rw [suspend, hawaits]
        exact if_pos rfl
      have hpast := h.advance hawaits hnext
      rw [heq]
      rcases reply with _ | text | (_ | _)
      · exact hpast.congr (by simp [Await.Starts, Await.Stops, Await.Returns])
      · exact hpast.congr (by simp [Await.Starts, Await.Stops, Await.Returns])
      · exact hpast.congr (by simp [Await.Starts, Await.Stops, Await.Returns])
      · have hon : Knows all pool on current { s with awaits } :=
          hpast.congr (by simp [Await.Starts, Await.Stops, Await.Returns])
        exact ⟨hon.past, hon.current, hon.pool⟩
    · have heq : suspend site s = (.halted, s) := by
        rw [suspend, hawaits]
        exact if_neg hsite
      rw [heq]
      exact h

theorem keeps_happen (e : ConsumerEvent) : Keeps (Knows all pool on current) (happen e) :=
  fun _ h => ⟨h.past, h.current, h.pool⟩

/-- **Other awaits** start no consumer and stop none. -/
theorem keeps_suspend {site : AwaitSite} (hnext : site = .next → on) (hstart : site ≠ .start)
    (hstop : site ≠ .stop) : Keeps (Knows all pool on current) (suspend site) := by
  refine (ensures_suspend hnext).weaken (fun _ h => h) fun e s h => ?_
  rcases e with v | (_ | _) | _
  · exact h.congr (by simp [hstart, hstop])
  · exact h.congr (by simp [hstop])
  · exact h
  · exact h

theorem keeps_await {site : AwaitSite} (hnext : site ≠ .next) (hstart : site ≠ .start)
    (hstop : site ≠ .stop) : Keeps (Knows all pool on current) (await site) :=
  (keeps_suspend (fun h => absurd h hnext) hstart hstop).bind fun _ => Keeps.pure

/-! ### A consumer -/

/-- One assertion where a block returns, and another where it does not. -/
def Returning (P Q : AppState → Prop) : Ending α → AppState → Prop
  | .done _, s => P s
  | _, s => Q s

/-- One assertion where a block is over or has raised an error, and another elsewhere. -/
def Dropping (P Q : AppState → Prop) : Ending α → AppState → Prop
  | .done _, s | .raised .error, s => P s
  | _, s => Q s

/-- A consumer started, and not yet assigned to the shared state; or none. -/
def Begun (all : List Await) (pool : Bool) : Ending α → AppState → Prop :=
  Returning (Knows all pool True none) (Knows all pool False none)

/-- **An attempt** starts a consumer where it returns. -/
theorem begun_startConsumer :
    Ensures (Knows all pool False none) startConsumer (Begun all pool) := by
  have hraised : ∀ {α : Type} {c : Code AppState α} {f : α → Code AppState ℕ},
      Keeps (Knows all pool False none) c →
      (∀ a, Ensures (Knows all pool False none) (f a) (Begun all pool)) →
      Ensures (Knows all pool False none) (c >>= f) (Begun all pool) := fun hc hf =>
    Ensures.bind hc (fun _ _ h => h) (fun _ h => h) hf
  have hmade : Keeps (Knows all pool False none)
      (update fun s => { s with created := s.created + 1 }) :=
    fun s h => ⟨h.past, h.current, h.pool⟩
  refine hraised Keeps.read fun n => hraised hmade fun _ => hraised (keeps_happen _) fun _ =>
    hraised (keeps_happen _) fun _ => ?_
  have hstart : Ensures (Knows all pool False none) (await .start) (Begun all pool) := by
    have hnext : AwaitSite.start = .next → False := AwaitSite.noConfusion
    refine Ensures.bind (ensures_suspend hnext) (fun e s h => ?_) (fun _ h => h) fun _ s h => ?_
    · cases e with
      | error => exact h.congr (by simp)
      | cancelled => exact h
    · exact h.congr (by simp)
  refine Ensures.bind hstart (fun _ _ h => h) (fun _ h => h) fun _ => ?_
  exact fun s h => ⟨h.past, h.current, h.pool⟩

/-- `_create_kafka_consumer`, however many attempts it takes. -/
theorem begun_retrying (k : ℕ) :
    Ensures (Knows all pool False none) (retrying startConsumer k) (Begun all pool) := by
  induction k with
  | zero => exact fun _ h => h
  | succ k ih =>
    refine Ensures.tryExcept begun_startConsumer (fun _ _ h => h) (fun _ h => h) fun e => ?_
    cases e with
    | cancelled => exact fun _ h => h
    | error =>
      by_cases hk : k = 0
      · subst hk
        exact ih
      · have hwait : Keeps (Knows all pool False none) (await .retryWait) :=
          keeps_await AwaitSite.noConfusion AwaitSite.noConfusion AwaitSite.noConfusion
        have hagain : Ensures (Knows all pool False none)
            (do await .retryWait; retrying startConsumer k) (Begun all pool) :=
          Ensures.bind hwait (fun _ _ h => h) (fun _ h => h) fun _ => ih
        show Ensures (Knows all pool False none) _ (Begun all pool)
        simpa [hk] using hagain

/-! ### The loop -/

/-- The `finally` clause leaves no consumer, or is interrupted. -/
theorem settled_stopCurrent : Ensures (Settled all pool) stopCurrent
    (Returning (Knows all pool False none) (Settled all pool)) := by
  rintro s ⟨current, h⟩
  rw [stopCurrent, bind_apply, read_apply]
  simp only [h.current]
  cases current with
  | none => exact h.congr (by simp)
  | some n =>
    have hstopping : Knows all pool True (some n) { s with log := s.log ++ [.stopping n] } :=
      ⟨(h.congr (by simp)).past, h.current, h.pool⟩
    have hawait : Ensures (Knows all pool True (some n)) (await .stop)
        (Dropping (Knows all pool False (some n)) (Knows all pool True (some n))) := by
      have hnext : AwaitSite.stop = .next → True := fun _ => trivial
      refine Ensures.bind (ensures_suspend hnext) (fun e s h => ?_) (fun _ h => h) fun _ s h => ?_
      · cases e with
        | error => exact h.congr (by simp)
        | cancelled => exact h
      · exact h.congr (by simp)
    have hstop : Ensures (Knows all pool True (some n)) (exceptException (await .stop) (pure ()))
        (Returning (Knows all pool False (some n)) (Knows all pool True (some n))) :=
      Ensures.exceptException hawait (fun _ _ h => h) (fun _ h => h) (fun _ h => h)
        (Ensures.pure fun _ h => h)
    have hclear : Ensures (Knows all pool True (some n))
        (do
          exceptException (await .stop) (pure ())
          update fun s => { s with kafkaConsumer := none })
        (Returning (Knows all pool False none) (Settled all pool)) :=
      Ensures.bind hstop (fun _ _ h => ⟨some n, h.congr (by simp)⟩)
        (fun _ h => ⟨some n, h.congr (by simp)⟩) fun _ s h => ⟨h.past, rfl, h.pool⟩
    exact hclear _ hstopping

section Loop

variable {alertOf : String → Option AlertEvent} {live : List ConsumerEvent → List WebSocket}

/-- What is done with a message has no part in it. -/
theorem keeps_handleMessage (raw : String) :
    Keeps (Knows all pool on current) (handleMessage alertOf live raw) := by
  have hsend : Keeps (Knows all pool on current) (sendAll live) := by
    refine Keeps.read.bind fun clients => Keeps.forEach (fun _ => ?_) clients
    refine Keeps.exceptException ?_ Keeps.pure
    exact keeps_await AwaitSite.noConfusion AwaitSite.noConfusion AwaitSite.noConfusion
  have hinsert : Keeps (Knows all pool on current) insertAlert := by
    refine Keeps.bind ?_ fun _ => Keeps.tryFinally ?_ ?_ <;>
      exact keeps_await AwaitSite.noConfusion AwaitSite.noConfusion AwaitSite.noConfusion
  refine Keeps.exceptException ?_ Keeps.pure
  cases alertOf raw with
  | none => exact Keeps.raise
  | some alert =>
    refine Keeps.read.bind fun dbPool => ?_
    cases dbPool with
    | false => exact hsend
    | true => exact (hinsert.exceptException Keeps.pure).bind fun _ => hsend

/-- The messages are waited for while the consumer is running. -/
theorem keeps_messages (n : ℕ) : Keeps (Knows all pool True current) (messages alertOf live n) := by
  have hnext : Keeps (Knows all pool True current) (suspend .next) :=
    keeps_suspend (fun _ => trivial) AwaitSite.noConfusion AwaitSite.noConfusion
  refine Keeps.whileTrue (hnext.bind fun value => ?_) n
  cases value with
  | none => exact Keeps.pure
  | some raw =>
    exact (keeps_happen _).bind fun _ => (keeps_handleMessage raw).bind fun _ => Keeps.pure

/-- The `try` block. -/
theorem settled_consume (n : ℕ) :
    Ensures (Knows all pool False none) (consume alertOf live n) fun _ => Settled all pool := by
  have hnone : ∀ s, Knows all pool False none s → Settled all pool s := fun s h =>
    ⟨none, h.congr (by simp)⟩
  refine Ensures.bind (begun_retrying 10) (fun _ => hnone) hnone fun consumer => ?_
  have hrest : Keeps (Knows all pool True (some consumer)) (do
      messages alertOf live n
      pure .again : Code AppState Flow) := (keeps_messages n).bind fun _ => Keeps.pure
  intro s h
  have hassigned := hrest { s with kafkaConsumer := some consumer } ⟨h.past, rfl, h.pool⟩
  exact ⟨some consumer, hassigned.congr (by simp)⟩

/-- **An iteration** goes on to the next one without a consumer. -/
theorem settled_consumeOnce (n : ℕ) :
    Ensures (Knows all pool False none) (consumeOnce alertOf live n) fun e s => match e with
      | .done .again => Knows all pool False none s
      | _ => Settled all pool s := by
  have hnone : ∀ s, Knows all pool False none s → Settled all pool s := fun s h =>
    ⟨none, h.congr (by simp)⟩
  have hbackoff : Ensures (Settled all pool) (do await .backoff; pure .again : Code AppState Flow)
      fun _ => Settled all pool := by
    rintro s ⟨current, h⟩
    have hkeeps : Keeps (Knows all pool (current.isSome = true) current)
        (do await .backoff; pure .again : Code AppState Flow) :=
      (keeps_await AwaitSite.noConfusion AwaitSite.noConfusion AwaitSite.noConfusion).bind fun _ =>
        Keeps.pure
    exact ⟨current, hkeeps s h⟩
  refine Ensures.tryFinally (Q := fun _ => Settled all pool) (Ensures.tryExcept (settled_consume n)
    (fun _ _ h => h) (fun _ h => h) fun e => ?_) (fun _ h => h) (fun a => ?_) fun e => ?_
  · cases e with
    | error => exact hbackoff
    | cancelled => exact fun _ h => h
  · refine Ensures.bind settled_stopCurrent (fun _ _ h => h) (fun _ h => h) fun _ s h => ?_
    cases a with
    | again => exact h
    | stop => exact hnone s h
  · exact Ensures.bind settled_stopCurrent (fun _ _ h => h) (fun _ h => h) fun _ s h => hnone s h

/-- The task, however it ends. -/
theorem settled_awaitTask (n : ℕ) :
    Ensures (Knows all pool False none) (awaitTask alertOf live n) fun _ => Settled all pool := by
  have hloop : Ensures (Knows all pool False none) (kafkaConsumerLoop alertOf live n)
      fun _ => Settled all pool := by
    refine Ensures.whileTrue ((settled_consumeOnce n).weaken (fun _ h => h) fun e s h => ?_)
      (fun s h => ⟨none, h.congr (by simp)⟩) n
    rcases e with (_ | _) | _ | _ <;> exact h
  refine Ensures.tryExcept hloop (fun _ _ h => h) (fun _ h => h) fun e => ?_
  cases e with
  | error | cancelled => exact fun _ h => h

end Loop

/-! ### The answer -/

theorem running_iff_isSome (now : String) (s : AppState) :
    (healthCheck now s).dependencies.kafkaConsumer = "running" ↔ s.kafkaConsumer.isSome = true := by
  have hne : "starting" ≠ "running" := by decide
  show (if s.kafkaConsumer.isSome then "running" else "starting") = "running" ↔ _
  split
  · next hsome => exact iff_of_true rfl hsome
  · next hnone => exact iff_of_false hne hnone

theorem connected_iff_dbPool (now : String) (s : AppState) :
    (healthCheck now s).dependencies.postgres = "connected" ↔ s.dbPool = true := by
  have hne : "degraded" ≠ "connected" := by decide
  show (if s.dbPool then "connected" else "degraded") = "connected" ↔ _
  split
  · next hpool => exact iff_of_true rfl hpool
  · next hpool => exact iff_of_false hne hpool

/-- What the answer is between two turns of the task. -/
theorem Settled.follows (now : String) (h : Settled all pool s) :
    ∃ past, all = past ++ s.awaits ∧ (healthCheck now s).Follows past := by
  obtain ⟨current, ⟨first, past, hall, hrunning, hlegal, hfirst⟩, hcurrent, hpool⟩ := h
  have hanswer : (healthCheck now s).dependencies.kafkaConsumer = "running" ↔
      Running (first :: past) := by
    rw [running_iff_isSome, hcurrent, hrunning]
  refine ⟨first :: past, hall, hanswer, ?_, fun hlast => hanswer.mpr ?_⟩
  · rw [connected_iff_dbPool, hpool, hfirst]
    simp
  · -- a message was waited for, so a consumer was running; and the await has stopped none
    obtain ⟨before, hbefore⟩ := List.getLast?_eq_some_iff.mp hlast
    have hbefore_running := hlegal before _ [] hbefore rfl
    rw [hbefore, Running, History.since_append_singleton]
    exact Or.inr ⟨hbefore_running, fun hstops => AwaitSite.noConfusion hstops.1⟩

/-- The state once the pool has been created, or not. -/
theorem knows_created {reply : Reply} (hpool : pool = true ↔ ∀ e, reply ≠ .raised e)
    (rest : List Await) (log : List ConsumerEvent) :
    Knows (⟨.createPool, reply⟩ :: rest) pool False none ⟨pool, none, 0, rest, log⟩ where
  past := by
    refine ⟨⟨.createPool, reply⟩, [], rfl, iff_of_false (fun h => ?_) id, ?_, ?_⟩
    · obtain ⟨a, ha, hstarts⟩ := History.exists_mem_of_since h
      rw [List.mem_singleton.mp ha] at hstarts
      exact AwaitSite.noConfusion hstarts.1
    · exact History.legal_append_singleton.mpr
        ⟨History.legal_nil, fun hnext => AwaitSite.noConfusion hnext⟩
    · rw [hpool, and_iff_right rfl]
      rfl
  current := rfl
  pool := rfl

/-- **What the health check answers**: at any point of any run up to the shutdown, the consumer is
`running` if and only if a `start` has returned and no `stop` has ended since, and the database is
`connected` if and only if the pool was created; and while the loop is in the back-off that
follows a crash of the iteration, the consumer is still `running`. -/
theorem healthCheck_follows_awaits (now : String) (alertOf : String → Option AlertEvent)
    (live : List ConsumerEvent → List WebSocket) (n : ℕ) (awaits : List Await) :
    ∃ past, awaits = past ++ (serving alertOf live n (.start awaits)).2.awaits ∧
      (healthCheck now (serving alertOf live n (.start awaits)).2).Follows past := by
  have hbefore : ∀ s : AppState, s.awaits = awaits → s.kafkaConsumer = none → s.dbPool = false →
      ∃ past, awaits = past ++ s.awaits ∧ (healthCheck now s).Follows past := by
    rintro s hawaits hnone hpool
    refine ⟨[], hawaits.symm, ?_, ?_, fun h => absurd h.symm (Option.some_ne_none _)⟩
    · rw [running_iff_isSome, hnone]
      exact iff_of_false Bool.false_ne_true History.not_since_nil
    · rw [connected_iff_dbPool, hpool]
      simp
  rcases awaits with _ | ⟨⟨site, reply⟩, rest⟩
  · exact hbefore (.start []) rfl rfl rfl
  · by_cases hsite : site = .createPool
    · subst hsite
      have hready : ∀ pool : Bool, (pool = true ↔ ∀ e, reply ≠ .raised e) →
          ∃ past, ⟨.createPool, reply⟩ :: rest
            = past ++ (awaitTask alertOf live n ⟨pool, none, 0, rest, []⟩).2.awaits ∧
            (healthCheck now (awaitTask alertOf live n ⟨pool, none, 0, rest, []⟩).2).Follows past :=
        fun pool hpool => Settled.follows now (settled_awaitTask n _ (knows_created hpool rest []))
      rcases reply with _ | text | (_ | _)
      · exact hready true (by simp)
      · exact hready true (by simp)
      · exact hready false (by simp)
      · have hcancelled : Knows (⟨.createPool, .raised .cancelled⟩ :: rest) false False none
            ⟨false, none, 0, rest, [.cancelled]⟩ := knows_created (by simp) rest [.cancelled]
        exact Settled.follows now ⟨none, hcancelled.congr (by simp)⟩
    · have hhalted : suspend .createPool (.start (⟨site, reply⟩ :: rest))
          = (.halted, .start (⟨site, reply⟩ :: rest)) := if_neg hsite
      have hserving : serving alertOf live n (.start (⟨site, reply⟩ :: rest))
          = (.halted, .start (⟨site, reply⟩ :: rest)) := by
        rw [serving, bind_halted]
        exact exceptException_halted (bind_halted (bind_halted hhalted))
      rw [hserving]
      exact hbefore _ rfl rfl rfl

end Assertions

end AiopsLog
