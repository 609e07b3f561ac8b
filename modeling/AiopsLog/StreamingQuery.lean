import AiopsLog.Fluentd.Lakehouse
import AiopsLog.KilledCalls
import AiopsLog.Lib.MicroBatch
import AiopsLog.Lib.Run

/-!
# The streaming query

`main` makes a `BatchProcessor` and has Spark call it on one micro-batch of `system-logs` after
another, with a checkpoint. The query begins behind what is on the topic when it is first started.
Where the handler raises, or the process is killed, the query is over; when `main` is run again,
it makes another `BatchProcessor` and goes on from the checkpoint. The topic keeps its records for
a day, and with `failOnDataLoss` off the query passes over what has been deleted before it got
there.

So the rows of a batch can be appended to `processed_logs` once for each start of the query, and
a row that was on the topic before the first start never is. As long as none of the exceptions is
logged that the handler takes for no reason to stop, every row up to the last commit is there that
has not been passed over (`AiopsLog.StreamingQuery.rows_stored`). But it need not be labelled twice
in the same way: each `BatchProcessor` trains on the first batch it gets, and the table is a run of
rows for each of them (`AiopsLog.StreamingQuery.logs_by_lifetime`).
-/

namespace AiopsLog

open Py MicroBatch

variable {P Nlp Km Features : Type}

/-- The query of `main`: what Spark has read and is to read, and the job. -/
structure StreamingQuery (P Nlp Km : Type) where
  reader : Reader P FluentdRecord
  job : Job Nlp Km

namespace StreamingQuery

inductive Action (P : Type) where
  /-- Records arrive on the topic. -/
  | arrive : Topic P FluentdRecord → Action P
  /-- The brokers delete records that are older than the retention allows, up to some offsets. -/
  | purge : Offsets P → Action P
  /-- The next batch is planned. -/
  | plan : Offsets P → Action P
  /-- The handler is called on it, in an environment. -/
  | call : Env → Action P
  /-- The batch is committed. -/
  | commit : Action P
  /-- The process is over, wherever it is, and `main` is run again. -/
  | restart : Action P

/-- `main` is run for the first time. -/
def start (topic : Topic P FluentdRecord) : StreamingQuery P Nlp Km :=
  ⟨Reader.start topic, ⟨BatchProcessor.init, Sinks.initial⟩⟩

section Step

variable (ml : SparkML Nlp Km Features) (parsers : Parsers) (partitions : List P)

def step (q : StreamingQuery P Nlp Km) : Action P → Option (StreamingQuery P Nlp Km)
  | .arrive more => some { q with reader := q.reader.arrive more }
  | .purge oldest => do
    let reader ← q.reader.purge partitions oldest
    pure { q with reader := reader }
  | .plan ends => do
    let reader ← q.reader.plan partitions ends
    pure { q with reader := reader }
  | .call env => do
    let entries ← q.reader.batch partitions
    let result := process ml env (readKafkaStream parsers entries) q.reader.batchId q.job
    pure ⟨q.reader.ended partitions (decide (result.1 = .done ())), result.2⟩
  | .commit => do
    let reader ← q.reader.commit
    pure { q with reader := reader }
  -- another `BatchProcessor`, the same sinks
  | .restart => some ⟨q.reader.restart, ⟨BatchProcessor.init, q.job.sinks⟩⟩

end Step

/-! ### Whose rows are stored -/

variable {ml : SparkML Nlp Km Features} {parsers : Parsers} {partitions : List P}

/-- The rows of some records with these columns. -/
def rowsWith (parsers : Parsers) (x : LogColumns) (records : List FluentdRecord) : ℕ :=
  ((readKafkaStream parsers records).map (·.columns)).count x

theorem rowsWith_eq_countP (x : LogColumns) (records : List FluentdRecord) :
    rowsWith parsers x records = records.countP fun record =>
      ((enrich parsers record).map fun row => row.columns == x).getD false := by
  rw [rowsWith, List.count, List.countP_map, readKafkaStream, List.countP_filterMap]
  rfl

/-- The stored rows are those of records that the reader may have had kept, and where all calls
are safe has had kept. -/
structure Sound (parsers : Parsers) (partitions : List P) (safe : Prop)
    (q : StreamingQuery P Nlp Km) : Prop where
  models : q.job.self.HasModels
  kept : ∃ kept, q.reader.Sound partitions kept ∧ (safe → q.reader.Kept partitions kept) ∧
    q.job.sinks.logColumns = (readKafkaStream parsers kept).map (·.columns)

section Sound

variable {safe : Prop} {q q' : StreamingQuery P Nlp Km}

theorem sound_start (topic : Topic P FluentdRecord) :
    Sound parsers partitions safe (start topic : StreamingQuery P Nlp Km) where
  models := hasModels_init
  kept := ⟨[], Reader.sound_start topic, fun _ => Reader.kept_start topic, rfl⟩

theorem hasModels_of_trains {batch : List LogRow} {self self' : BatchProcessor Nlp Km}
    (h : Trains ml batch self self') (hself : self.HasModels) : self'.HasModels := by
  rcases h with rfl | ⟨-, nlp, km, c, -, rfl⟩
  · exact hself
  · exact fun _ => ⟨rfl, rfl⟩

/-- The columns of what is stored once labelled rows are appended. -/
theorem logColumns_append {s s' : Sinks} {nlp : Nlp} {km : Km} {c n : ℕ} {batch : List LogRow}
    (h : s'.processedLogs = s.processedLogs ++ (labelRows ml nlp km c batch).zipIdx n) :
    s'.logColumns = s.logColumns ++ batch.map (·.columns) := by
  rw [Sinks.logColumns, h, List.map_append, ← map_columns_labelRows ml nlp km c batch]
  conv_rhs => rw [← List.zipIdx_map_fst n (labelRows ml nlp km c batch), List.map_map]
  rfl

/-- **A call of the handler**, however it ends. -/
theorem Sound.call (h : Sound parsers partitions safe q) {env : Env}
    (hsafe : safe → env.RowsSafe) (hstep : step ml parsers partitions q (.call env) = some q') :
    Sound parsers partitions safe q' := by
  obtain ⟨entries, hbatch, heq⟩ := Option.bind_eq_some_iff.mp hstep
  obtain rfl := Option.some.inj heq
  obtain ⟨kept, hsound, hkept, hlogs⟩ := h.kept
  have hleft : Left ml env (readKafkaStream parsers entries) q.job
      (process ml env (readKafkaStream parsers entries) q.reader.batchId q.job) :=
    left_process h.models
  cases hleft with
  | unwritten htrains hsame hreturned =>
    refine ⟨hasModels_of_trains htrains h.models, ?_⟩
    by_cases hdone : (process ml env (readKafkaStream parsers entries) q.reader.batchId q.job).1
        = .done () ∧ readKafkaStream parsers entries = []
    · -- there was nothing to append
      refine ⟨kept ++ entries, hsound.ended hbatch _ (Or.inl rfl), fun hall =>
        (hkept hall).ended hsound hbatch fun _ => rfl, ?_⟩
      have hnone : (readKafkaStream parsers (kept ++ entries)).map (·.columns)
          = (readKafkaStream parsers kept).map (·.columns) := by
        rw [readKafkaStream, List.filterMap_append, ← readKafkaStream, ← readKafkaStream, hdone.2,
          List.append_nil]
      rw [hnone, ← hlogs]
      exact congrArg (List.map _) hsame
    · refine ⟨kept ++ [], hsound.ended hbatch _ (Or.inr rfl), fun hall =>
        (hkept hall).ended hsound hbatch fun hreturn => ?_, ?_⟩
      · have hreturn := of_decide_eq_true hreturn
        exact absurd (hsafe hall) (hreturned hreturn fun hnil => hdone ⟨hreturn, hnil⟩)
      · rw [List.append_nil, ← hlogs]
        exact congrArg (List.map _) hsame
  | written nlp km c n htrains _ happended =>
    refine ⟨hasModels_of_trains htrains h.models, kept ++ entries,
      hsound.ended hbatch _ (Or.inl rfl), fun hall => (hkept hall).ended hsound hbatch fun _ => rfl,
      ?_⟩
    refine (logColumns_append happended).trans ?_
    rw [hlogs, readKafkaStream, readKafkaStream, readKafkaStream, List.filterMap_append,
      List.map_append]

theorem Sound.step (h : Sound parsers partitions safe q) {action : Action P}
    (hsafe : safe → ∀ env, action = .call env → env.RowsSafe)
    (hstep : step ml parsers partitions q action = some q') : Sound parsers partitions safe q' := by
  obtain ⟨kept, hsound, hkept, hlogs⟩ := h.kept
  cases action with
  | arrive more =>
    obtain rfl := Option.some.inj hstep
    exact ⟨h.models, kept, hsound.arrive more, fun hall => (hkept hall).arrive hsound more, hlogs⟩
  | purge oldest =>
    obtain ⟨reader, hpurge, heq⟩ := Option.bind_eq_some_iff.mp hstep
    obtain rfl := Option.some.inj heq
    exact ⟨h.models, kept, hsound.purge hpurge, fun hall => (hkept hall).purge hpurge, hlogs⟩
  | plan ends =>
    obtain ⟨reader, hplan, heq⟩ := Option.bind_eq_some_iff.mp hstep
    obtain rfl := Option.some.inj heq
    exact ⟨h.models, kept, hsound.plan hplan, fun hall => (hkept hall).plan hplan, hlogs⟩
  | call env => exact h.call (fun hall => hsafe hall env rfl) hstep
  | commit =>
    obtain ⟨reader, hcommit, heq⟩ := Option.bind_eq_some_iff.mp hstep
    obtain rfl := Option.some.inj heq
    exact ⟨h.models, kept, hsound.commit hcommit, fun hall => (hkept hall).commit hcommit, hlogs⟩
  | restart =>
    obtain rfl := Option.some.inj hstep
    exact ⟨hasModels_init, kept, hsound.restart, fun hall => (hkept hall).restart hsound, hlogs⟩

end Sound

/-! ### Every run -/

section Run

variable {topic : Topic P FluentdRecord} {actions : List (Action P)}
  {q : StreamingQuery P Nlp Km}

/-- **Every row is stored that is not passed over, and once for each start at most**: whatever the
interleaving of the records that arrive and are deleted, the batches, the calls that return, raise
or are killed, the commits and the restarts, what is stored of any columns is at most what has been
planned of them since the query was first started, once for each start. Where no call logs an error
in the training, the inference or the append, it is at least what has been committed of them, less
what was deleted before its batch was read; and where there has been no restart and no such
deletion besides, and no call has stopped the query, it is exactly what the handler has returned
from. -/
theorem rows_stored
    (hrun : Lts.run (step ml parsers partitions) actions (start topic) = some q) (x : LogColumns) :
    q.job.sinks.logColumns.count x ≤ (q.reader.restarts + 1) *
        rowsWith parsers x (between partitions q.reader.topic q.reader.first q.reader.goal) ∧
      ((∀ env, .call env ∈ actions → env.RowsSafe) →
        rowsWith parsers x (between partitions q.reader.topic q.reader.first q.reader.committed)
            ≤ q.job.sinks.logColumns.count x + rowsWith parsers x q.reader.passedOver ∧
          (q.reader.restarts = 0 → q.reader.phase ≠ .failed → q.reader.passedOver = [] →
            q.job.sinks.logColumns.count x = rowsWith parsers x
              (between partitions q.reader.topic q.reader.first q.reader.settled))) := by
  have h : Sound parsers partitions (∀ env, .call env ∈ actions → env.RowsSafe) q :=
    Lts.run_invariant
      (I := Sound parsers partitions (∀ env, .call env ∈ actions → env.RowsSafe))
      (P := fun action => action ∈ actions)
      (fun _ _ _ hs haction hstep =>
        hs.step (fun hall env heq => hall env (heq ▸ haction)) hstep)
      (sound_start topic) (fun _ haction => haction) hrun
  obtain ⟨kept, hsound, hkept, hlogs⟩ := h.kept
  have hcount : q.job.sinks.logColumns.count x = rowsWith parsers x kept := by
    rw [hlogs, rowsWith]
  rw [hcount]
  simp only [rowsWith_eq_countP]
  refine ⟨hsound.countP_le_starts _, fun hall => ⟨?_, fun hnone hphase hover => ?_⟩⟩
  · refine Nat.le_trans (countP_between_mono _ hsound.first_le fun p hp => ?_) (hkept hall _)
    rw [Reader.settled]
    split
    · exact hsound.committed_le p hp
    · exact Nat.le_refl _
  · exact (hkept hall).countP_eq hsound hnone hphase hover _

end Run

/-! ### Whose models have labelled them -/

section Lifetimes

variable (ml parsers partitions)

/-- Rows between offsets that have been planned since the query was first started. -/
def Planned (q : StreamingQuery P Nlp Km) (batch : List LogRow) : Prop :=
  ∃ a b : Offsets P, (∀ p ∈ partitions, q.reader.first p ≤ a p ∧ b p ≤ q.reader.goal p) ∧
    batch = readKafkaStream parsers (between partitions q.reader.topic a b)

/-- The models are fitted on a batch. -/
def Fitted (q : StreamingQuery P Nlp Km) (nlp : Nlp) (km : Km) (c : ℕ) : Prop :=
  ∃ sample, Planned parsers partitions q sample ∧
    trainModel ml enrichedColumns sample = some (nlp, km, c)

/-- Stored rows that models have labelled. -/
def LabelledRows (q : StreamingQuery P Nlp Km) (nlp : Nlp) (km : Km) (c : ℕ)
    (stored : List (ProcessedRow × Uuid)) : Prop :=
  ∀ r ∈ stored, ∃ batch, Planned parsers partitions q batch ∧ ∃ row ∈ batch,
    LabelledBy ml nlp km c row r.1

/-- The stored rows of one `BatchProcessor`. -/
def OfOneProcessor (q : StreamingQuery P Nlp Km) (stored : List (ProcessedRow × Uuid)) : Prop :=
  ∃ nlp km c, Fitted ml parsers partitions q nlp km c ∧
    LabelledRows ml parsers partitions q nlp km c stored

/-- The table is the rows of the processors before, and of the one that is there. -/
structure Lifetimes (q : StreamingQuery P Nlp Km) (before : List (List (ProcessedRow × Uuid)))
    (current : List (ProcessedRow × Uuid)) : Prop where
  models : q.job.self.HasModels
  reader : ∃ kept, q.reader.Sound partitions kept
  logs : q.job.sinks.processedLogs = before.flatten ++ current
  length_le : before.length ≤ q.reader.restarts
  before : ∀ stored ∈ before, OfOneProcessor ml parsers partitions q stored
  current : q.job.self.trained = false ∧ current = [] ∨
    ∃ nlp km c, q.job.self = ⟨some nlp, some km, c, true⟩ ∧
      Fitted ml parsers partitions q nlp km c ∧
      LabelledRows ml parsers partitions q nlp km c current

end Lifetimes

section Grow

variable {q q' : StreamingQuery P Nlp Km} {nlp : Nlp} {km : Km} {c : ℕ}
  {stored current : List (ProcessedRow × Uuid)} {before : List (List (ProcessedRow × Uuid))}

section Mono

variable (hgrow : q.reader.Grows partitions q'.reader)

include hgrow

theorem Planned.mono {batch : List LogRow} (h : Planned parsers partitions q batch) :
    Planned parsers partitions q' batch := by
  obtain ⟨a, b, hab, rfl⟩ := h
  refine ⟨a, b, fun p hp => ⟨?_, (hab p hp).2.trans (hgrow.goal_le p hp)⟩, ?_⟩
  · rw [hgrow.first]
    exact (hab p hp).1
  · rw [hgrow.between a b fun p hp => (hab p hp).2]

theorem Fitted.mono (h : Fitted ml parsers partitions q nlp km c) :
    Fitted ml parsers partitions q' nlp km c := by
  obtain ⟨sample, hsample, hmodel⟩ := h
  exact ⟨sample, hsample.mono hgrow, hmodel⟩

theorem LabelledRows.mono (h : LabelledRows ml parsers partitions q nlp km c stored) :
    LabelledRows ml parsers partitions q' nlp km c stored := by
  intro r hr
  obtain ⟨batch, hbatch, hrow⟩ := h r hr
  exact ⟨batch, hbatch.mono hgrow, hrow⟩

theorem OfOneProcessor.mono (h : OfOneProcessor ml parsers partitions q stored) :
    OfOneProcessor ml parsers partitions q' stored := by
  obtain ⟨nlp, km, c, hfitted, hrows⟩ := h
  exact ⟨nlp, km, c, hfitted.mono hgrow, hrows.mono hgrow⟩

/-- The reader goes on, the job does nothing. -/
theorem Lifetimes.grow (h : Lifetimes ml parsers partitions q before current)
    (hreader : ∃ kept, q'.reader.Sound partitions kept) (hjob : q'.job = q.job)
    (hrestarts : q'.reader.restarts = q.reader.restarts) :
    Lifetimes ml parsers partitions q' before current where
  models := hjob ▸ h.models
  reader := hreader
  logs := hjob ▸ h.logs
  length_le := hrestarts ▸ h.length_le
  before stored hstored := (h.before stored hstored).mono hgrow
  current := by
    rw [hjob]
    rcases h.current with huntrained | ⟨nlp, km, c, hself, hfitted, hrows⟩
    · exact Or.inl huntrained
    · exact Or.inr ⟨nlp, km, c, hself, hfitted.mono hgrow, hrows.mono hgrow⟩

end Mono

/-- The batch of a call is planned. -/
theorem planned_of_batch {kept entries : List FluentdRecord}
    (hsound : q.reader.Sound partitions kept) (hbatch : q.reader.batch partitions = some entries) :
    Planned parsers partitions q (readKafkaStream parsers entries) := by
  obtain ⟨-, rfl⟩ := Reader.of_batch hbatch
  refine ⟨q.reader.resume, q.reader.goal, fun p hp => ⟨?_, Nat.le_refl _⟩, rfl⟩
  exact (hsound.first_le p hp).trans (Reader.committed_le_resume (hsound.committed_le p hp))

theorem labelledRows_append {batch : List LogRow} (n : ℕ)
    (hbatch : Planned parsers partitions q batch)
    (h : LabelledRows ml parsers partitions q nlp km c stored) :
    LabelledRows ml parsers partitions q nlp km c
      (stored ++ (labelRows ml nlp km c batch).zipIdx n) := by
  intro r hr
  rcases List.mem_append.mp hr with hr | hr
  · exact h r hr
  · exact ⟨batch, hbatch, Lifetime.exists_of_mem_labelRows (List.fst_mem_of_mem_zipIdx hr)⟩

/-- **What a call leaves**: the processor that is there gets its models, or has them. -/
theorem Lifetimes.left (h : Lifetimes ml parsers partitions q before current) {env : Env}
    {batch : List LogRow} {result : Ending Unit × Job Nlp Km}
    (hplanned : Planned parsers partitions q batch) (hleft : Left ml env batch q.job result) :
    ∃ current', Lifetimes ml parsers partitions ⟨q.reader, result.2⟩ before current' := by
  cases hleft with
  | unwritten htrains hsame _ =>
    refine ⟨current, hasModels_of_trains htrains h.models, h.reader, hsame.trans h.logs,
      h.length_le, h.before, ?_⟩
    rcases htrains with hself | ⟨huntrained, nlp, km, c, hmodel, hself⟩
    · rw [hself]
      exact h.current
    · rcases h.current with ⟨-, rfl⟩ | ⟨_, _, _, hmodels, -⟩
      · exact Or.inr ⟨nlp, km, c, hself, ⟨_, hplanned, hmodel⟩,
          fun _ hr => absurd hr List.not_mem_nil⟩
      · rw [hmodels] at huntrained
        exact nomatch huntrained
  | written nlp km c n htrains hself happended =>
    refine ⟨current ++ (labelRows ml nlp km c batch).zipIdx n,
      hasModels_of_trains htrains h.models, h.reader, ?_, h.length_le, h.before,
      Or.inr ⟨nlp, km, c, hself, ?_⟩⟩
    · refine happended.trans ?_
      rw [h.logs, List.append_assoc]
    · -- the models are those that were there, or are fitted on the batch
      rcases htrains with hsame | ⟨huntrained, nlp', km', c', hmodel, hnew⟩
      · rcases h.current with ⟨huntrained, -⟩ | ⟨_, _, _, hmodels, hfitted, hrows⟩
        · rw [← hsame, hself] at huntrained
          exact nomatch huntrained
        · obtain ⟨hnlp, hkm, rfl, -⟩ :=
            BatchProcessor.mk.inj (hself.symm.trans (hsame.trans hmodels))
          obtain rfl := Option.some_injective _ hnlp
          obtain rfl := Option.some_injective _ hkm
          exact ⟨hfitted, labelledRows_append n hplanned hrows⟩
      · obtain ⟨hnlp, hkm, rfl, -⟩ := BatchProcessor.mk.inj (hself.symm.trans hnew)
        obtain rfl := Option.some_injective _ hnlp
        obtain rfl := Option.some_injective _ hkm
        rcases h.current with ⟨-, rfl⟩ | ⟨_, _, _, hmodels, -⟩
        · exact ⟨⟨_, hplanned, hmodel⟩,
            labelledRows_append n hplanned fun _ hr => absurd hr List.not_mem_nil⟩
        · rw [hmodels] at huntrained
          exact nomatch huntrained

/-- **A call of the handler**, on the batch that is planned. -/
theorem Lifetimes.call (h : Lifetimes ml parsers partitions q before current) {env : Env}
    (hstep : step ml parsers partitions q (.call env) = some q') :
    ∃ current', Lifetimes ml parsers partitions q' before current' := by
  obtain ⟨entries, hbatch, heq⟩ := Option.bind_eq_some_iff.mp hstep
  obtain rfl := Option.some.inj heq
  obtain ⟨kept, hsound⟩ := h.reader
  have hleft : Left ml env (readKafkaStream parsers entries) q.job
      (process ml env (readKafkaStream parsers entries) q.reader.batchId q.job) :=
    left_process h.models
  generalize process ml env (readKafkaStream parsers entries) q.reader.batchId q.job = result
    at hleft
  let ended : StreamingQuery P Nlp Km :=
    ⟨q.reader.ended partitions (decide (result.1 = .done ())), q.job⟩
  have hgrow : q.reader.Grows partitions ended.reader := Reader.grows_ended _
  have hended : Lifetimes ml parsers partitions ended before current :=
    h.grow hgrow ⟨kept ++ [], hsound.ended hbatch _ (Or.inr rfl)⟩ rfl (Reader.restarts_ended _)
  exact hended.left ((planned_of_batch hsound hbatch).mono hgrow) hleft

/-- **`main` is run again**: the processor that was there is one of those before. -/
theorem Lifetimes.restart (h : Lifetimes ml parsers partitions q before current) :
    ∃ before', Lifetimes ml parsers partitions
      ⟨q.reader.restart, ⟨BatchProcessor.init, q.job.sinks⟩⟩ before' [] := by
  obtain ⟨kept, hsound⟩ := h.reader
  have hgrow : q.reader.Grows partitions q.reader.restart := Reader.Grows.of_goal rfl rfl rfl
  have hbefore : ∀ stored ∈ before, OfOneProcessor ml parsers partitions
      ⟨q.reader.restart, ⟨BatchProcessor.init, q.job.sinks⟩⟩ stored :=
    fun stored hstored => (h.before stored hstored).mono hgrow
  rcases h.current with ⟨-, hnone⟩ | ⟨nlp, km, c, -, hfitted, hrows⟩
  · refine ⟨before, hasModels_init, ⟨kept, hsound.restart⟩, ?_, Nat.le_succ_of_le h.length_le,
      hbefore, Or.inl ⟨rfl, rfl⟩⟩
    rw [← hnone]
    exact h.logs
  · refine ⟨before ++ [current], hasModels_init, ⟨kept, hsound.restart⟩, ?_, ?_, ?_,
      Or.inl ⟨rfl, rfl⟩⟩
    · rw [List.flatten_append, List.flatten_singleton, List.append_nil]
      exact h.logs
    · rw [List.length_append, List.length_singleton]
      exact Nat.succ_le_succ h.length_le
    · intro stored hstored
      rcases List.mem_append.mp hstored with hstored | hstored
      · exact hbefore stored hstored
      · rw [List.mem_singleton.mp hstored]
        exact ⟨nlp, km, c, hfitted.mono hgrow, hrows.mono hgrow⟩

theorem Lifetimes.step (h : Lifetimes ml parsers partitions q before current) {action : Action P}
    (hstep : step ml parsers partitions q action = some q') :
    ∃ before' current', Lifetimes ml parsers partitions q' before' current' := by
  obtain ⟨kept, hsound⟩ := h.reader
  cases action with
  | arrive more =>
    obtain rfl := Option.some.inj hstep
    exact ⟨before, current, h.grow (hsound.grows_arrive more) ⟨kept, hsound.arrive more⟩ rfl rfl⟩
  | purge oldest =>
    obtain ⟨reader, hpurge, heq⟩ := Option.bind_eq_some_iff.mp hstep
    obtain rfl := Option.some.inj heq
    refine ⟨before, current, h.grow (Reader.grows_purge hpurge) ⟨kept, hsound.purge hpurge⟩ rfl ?_⟩
    exact Reader.restarts_purge hpurge
  | plan ends =>
    obtain ⟨reader, hplan, heq⟩ := Option.bind_eq_some_iff.mp hstep
    obtain rfl := Option.some.inj heq
    refine ⟨before, current, h.grow (Reader.grows_plan hplan) ⟨kept, hsound.plan hplan⟩ rfl ?_⟩
    exact Reader.restarts_plan hplan
  | call env =>
    obtain ⟨current', h'⟩ := h.call hstep
    exact ⟨before, current', h'⟩
  | commit =>
    obtain ⟨reader, hcommit, heq⟩ := Option.bind_eq_some_iff.mp hstep
    obtain rfl := Option.some.inj heq
    refine ⟨before, current, h.grow (Reader.grows_commit hcommit) ⟨kept, hsound.commit hcommit⟩
      rfl ?_⟩
    exact Reader.restarts_commit hcommit
  | restart =>
    obtain rfl := Option.some.inj hstep
    obtain ⟨before', h'⟩ := h.restart
    exact ⟨before', [], h'⟩

end Grow

/-- **The table is a run of rows for each start of the query**: whatever the interleaving,
`processed_logs` is cut into at most as many runs of rows as the query has been started, such
that the rows of each are labelled by one pair of models with one anomaly cluster, fitted on a
batch of records that have arrived since the first start; and each is a row of such a batch. -/
theorem logs_by_lifetime {topic : Topic P FluentdRecord} {actions : List (Action P)}
    {q : StreamingQuery P Nlp Km}
    (hrun : Lts.run (step ml parsers partitions) actions (start topic) = some q) :
    ∃ lifetimes : List (List (ProcessedRow × Uuid)),
      q.job.sinks.processedLogs = lifetimes.flatten ∧
      lifetimes.length ≤ q.reader.restarts + 1 ∧
      ∀ stored ∈ lifetimes, OfOneProcessor ml parsers partitions q stored := by
  obtain ⟨before, current, h⟩ := Lts.run_invariant
    (I := fun q => ∃ before current, Lifetimes ml parsers partitions q before current)
    (P := fun _ => True)
    (fun _ _ _ ⟨_, _, h⟩ _ hstep => h.step hstep)
    ⟨[], [], hasModels_init, ⟨[], Reader.sound_start topic⟩, rfl, Nat.le_refl _,
      fun _ h => absurd h List.not_mem_nil, Or.inl ⟨rfl, rfl⟩⟩ (fun _ _ => trivial) hrun
  rcases h.current with ⟨-, rfl⟩ | ⟨nlp, km, c, -, hfitted, hrows⟩
  · refine ⟨before, ?_, Nat.le_succ_of_le h.length_le, h.before⟩
    rw [h.logs, List.append_nil]
  · refine ⟨before ++ [current], ?_, ?_, ?_⟩
    · rw [h.logs, List.flatten_append, List.flatten_singleton]
    · rw [List.length_append, List.length_singleton]
      exact Nat.succ_le_succ h.length_le
    · intro stored hstored
      rcases List.mem_append.mp hstored with hstored | hstored
      · exact h.before stored hstored
      · rw [List.mem_singleton.mp hstored]
        exact ⟨nlp, km, c, hfitted, hrows⟩

/-! ### A batch that is written and not committed, and a record that is deleted -/

/-- A record with a message. -/
def helloRecord : FluentdRecord := { message := some "" }

/-- Two records, the first of which is deleted before they are read. Their batch is written before
the process is killed, and again after the restart. -/
def writtenTwice : List (Action Unit) :=
  [.arrive fun _ => [helloRecord, helloRecord], .purge fun _ => 1, .plan fun _ => 2]
    ++ [.call (Env.serving.crashAfter 6), .restart, .call Env.serving, .commit]

/-- The batch is planned. -/
def plannedReader : Reader Unit FluentdRecord where
  topic _ := [helloRecord, helloRecord]
  oldest _ := 1
  first _ := 0
  committed _ := 0
  batchId := 0
  planned := some fun _ => 2
  phase := .idle
  restarts := 0
  passedOver := []

/-- The call that is killed, on the one record that is left. -/
def killedCall : Ending Unit × Job Unit Unit :=
  process (SparkML.ofRule fun _ => 0) (Env.serving.crashAfter 6)
    (readKafkaStream Fluentd.parsersOfExample [helloRecord]) 0 ⟨BatchProcessor.init, Sinks.initial⟩

/-- The call after the restart. -/
def finishedCall : Ending Unit × Job Unit Unit :=
  process (SparkML.ofRule fun _ => 0) Env.serving
    (readKafkaStream Fluentd.parsersOfExample [helloRecord]) 0
    ⟨BatchProcessor.init, killedCall.2.sinks⟩

/-- The batch is committed. -/
def committedReader : Reader Unit FluentdRecord :=
  { plannedReader with
    committed := fun _ => 2
    batchId := 1
    planned := none
    restarts := 1
    passedOver := [helloRecord] }

/-- A call that does not return, the restart, and a call on the same batch that does. -/
theorem run_calledTwice {q : StreamingQuery P Nlp Km} {env env' : Env}
    {entries : List FluentdRecord} {killed finished : Ending Unit × Job Nlp Km}
    (hbatch : q.reader.batch partitions = some entries)
    (hkilled : process ml env (readKafkaStream parsers entries) q.reader.batchId q.job = killed)
    (hfinished : process ml env' (readKafkaStream parsers entries) q.reader.batchId
      ⟨BatchProcessor.init, killed.2.sinks⟩ = finished)
    (hends : killed.1 ≠ .done ()) (hreturns : finished.1 = .done ()) :
    Lts.run (step ml parsers partitions) [.call env, .restart, .call env', .commit] q
      = (((q.reader.ended partitions false).restart.ended partitions true).commit).map
          fun reader => ⟨reader, finished.2⟩ := by
  have hcall : step ml parsers partitions q (.call env)
      = some ⟨q.reader.ended partitions false, killed.2⟩ := by
    rw [step, hbatch, ← decide_eq_false hends, ← hkilled]
    rfl
  have hagain : step ml parsers partitions
      ⟨(q.reader.ended partitions false).restart, ⟨BatchProcessor.init, killed.2.sinks⟩⟩
      (.call env')
        = some ⟨(q.reader.ended partitions false).restart.ended partitions true, finished.2⟩ := by
    rw [step, Reader.batch_restart_ended hbatch, ← decide_eq_true hreturns, ← hfinished]
    rfl
  rw [Lts.run_cons hcall, Lts.run_cons rfl, Lts.run_cons hagain]
  rfl

theorem run_writtenTwice :
    Lts.run (step (SparkML.ofRule fun _ => 0) Fluentd.parsersOfExample [()]) writtenTwice
      (start fun _ => []) = some ⟨committedReader, finishedCall.2⟩ := by
  have hplanned : Lts.run (step (SparkML.ofRule fun _ => 0) Fluentd.parsersOfExample [()])
      [.arrive fun _ => [helloRecord, helloRecord], .purge fun _ => 1, .plan fun _ => 2]
      (start fun _ => []) = some ⟨plannedReader, ⟨BatchProcessor.init, Sinks.initial⟩⟩ := rfl
  have hbatch : plannedReader.batch [()] = some [helloRecord] := rfl
  rw [writtenTwice, Lts.run_append, hplanned, Option.bind_some]
  exact run_calledTwice hbatch rfl rfl (by decide) (by decide)

theorem rowsSafe_writtenTwice (env : Env) (h : .call env ∈ writtenTwice) : env.RowsSafe := by
  simp only [writtenTwice, List.cons_append, List.nil_append, List.mem_cons, Action.call.injEq,
    reduceCtorEq, List.not_mem_nil, false_or, or_false] at h
  rcases h with rfl | rfl <;> exact ⟨by decide, by decide, by decide⟩

/-- One of the two is stored twice, which is as often as the query has been started, and the other
not at all. -/
theorem rows_stored_writtenTwice :
    ∃ q, Lts.run (step (SparkML.ofRule fun _ => 0) Fluentd.parsersOfExample [()]) writtenTwice
        (start fun _ => []) = some q ∧
      q.job.sinks.logColumns.count (bareRow "UNKNOWN").columns = 2 ∧
      q.job.sinks.logColumns.count (bareRow "UNKNOWN").columns
        ≤ 2 * rowsWith Fluentd.parsersOfExample (bareRow "UNKNOWN").columns
          (between [()] q.reader.topic q.reader.first q.reader.goal) ∧
      rowsWith Fluentd.parsersOfExample (bareRow "UNKNOWN").columns
          (between [()] q.reader.topic q.reader.first q.reader.committed)
        ≤ q.job.sinks.logColumns.count (bareRow "UNKNOWN").columns
          + rowsWith Fluentd.parsersOfExample (bareRow "UNKNOWN").columns [helloRecord] := by
  obtain ⟨hle, hsafe⟩ := rows_stored run_writtenTwice (bareRow "UNKNOWN").columns
  exact ⟨_, run_writtenTwice, by decide, hle, (hsafe rowsSafe_writtenTwice).1⟩

/-- And in two lifetimes at most. -/
theorem logs_by_lifetime_writtenTwice :
    ∃ q, Lts.run (step (SparkML.ofRule fun _ => 0) Fluentd.parsersOfExample [()]) writtenTwice
        (start fun _ => []) = some q ∧
      ∃ lifetimes : List (List (ProcessedRow × Uuid)),
        q.job.sinks.processedLogs = lifetimes.flatten ∧ lifetimes.length ≤ 2 := by
  obtain ⟨lifetimes, hlogs, hlength, -⟩ := logs_by_lifetime run_writtenTwice
  exact ⟨_, run_writtenTwice, lifetimes, hlogs, hlength⟩

end StreamingQuery

end AiopsLog
