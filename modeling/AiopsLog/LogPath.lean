import AiopsLog.Fluentd.Output
import AiopsLog.StreamingQuery

/-!
# From the log file to the table

The agent reads the log file and sends its lines to `system-logs`, and the streaming query reads
the topic and appends their rows to `processed_logs`. Both may be killed wherever they are and are
started again; sendings fail; batches are handled again. Each part makes up for its own failures
by doing a thing once more, so the factors multiply: of any kind, no more rows are stored than
lines were written, times the starts of the agent, times the attempts to send, times the starts of
the query (`AiopsLog.LogPath.lines_to_rows`). And where the buffer is empty and the query has come
to the end of the topic, as many are stored as the agent has read, but for those that no chunk of
the buffer can hold, those that had been sent before the query was first started, and those that
the topic has not kept until they were read, and unless a call has logged an exception and gone on.
So no line is missing from the table that fits a chunk, where the query was there first and is
never away for too long (`AiopsLog.LogPath.every_line_stored`).

The time of ingestion is that of the reading, so the rows of a line that is read twice differ in
it. In all their other columns they are the same, and rows are counted by these.
-/

namespace AiopsLog

open Fluentd LogReplay MicroBatch

/-- The log file with the agent, and the query. -/
structure LogPath (P Nlp Km : Type) where
  agent : Forwarding
  query : StreamingQuery P Nlp Km

namespace LogPath

variable {P Nlp Km Features : Type}

/-! ### Lines and rows -/

section Rows

variable (parsers : Parsers) (upcase : Text → Text)

/-- The record that is sent of a line. -/
def sentRecord (sending : Sending) : Option FluentdRecord :=
  (emit upcase sending.2 sending.1).map fromJson

/-- The columns but for the time of ingestion. -/
def timeless (columns : LogColumns) : LogColumns := { columns with ingestedAt := none }

/-- These columns of the row of a record. -/
def rowOf (record : FluentdRecord) : Option LogColumns :=
  (enrich parsers record).map fun row => timeless row.columns

/-- The row of a record is of a kind. -/
def RowShows (kind : LogColumns → Bool) (record : FluentdRecord) : Bool :=
  (rowOf parsers record).any kind

/-- These columns of the row of a line. -/
def lineColumns (line : Text) : Option LogColumns :=
  (sentRecord upcase (line, [])).bind (rowOf parsers)

/-- The row of a line is of a kind. -/
def Shows (kind : LogColumns → Bool) (line : Text) : Bool :=
  (lineColumns parsers upcase line).any kind

variable {parsers upcase}

theorem rowOf_congr {record record' : FluentdRecord}
    (h : { record with ingestedAt := none } = { record' with ingestedAt := none }) :
    rowOf parsers record = rowOf parsers record' := by
  have hnone : ∀ record : FluentdRecord,
      rowOf parsers record = rowOf parsers { record with ingestedAt := none } := by
    intro record
    rw [rowOf, rowOf, enrich, enrich, Option.map_map, Option.map_map]
    rfl
  rw [hnone record, hnone record', h]

/-- **The row of a line** does not depend on when it is read. -/
theorem rowOf_sentRecord (sending : Sending) :
    (sentRecord upcase sending).bind (rowOf parsers) = lineColumns parsers upcase sending.1 := by
  rw [lineColumns, sentRecord, sentRecord, emit, emit]
  cases parse sending.1 with
  | none => rfl
  | some record =>
    refine rowOf_congr ?_
    have hkey := @lookup_recordTransformer upcase sending.2 record []
    simp only [fromJson, FluentdRecord.mk.injEq]
    refine ⟨?_, ?_, ?_, ?_, ?_, ?_, ?_, ?_, ?_, trivial, ?_⟩ <;>
      rw [hkey (by decide) (by decide)]

/-- A line whose row is of a kind matches. -/
theorem isSome_parse_of_shows {kind : LogColumns → Bool} {line : Text}
    (hline : Shows parsers upcase kind line = true) : (parse line).isSome = true := by
  rw [Shows, lineColumns, sentRecord, emit] at hline
  cases hparse : parse line with
  | none =>
    rw [hparse] at hline
    exact absurd hline Bool.false_ne_true
  | some record => rfl

variable (parsers upcase) in
/-- Those of these lines that fit a chunk are buffered. -/
theorem matching_shows (sizes : Sizes) (kind : LogColumns → Bool) :
    Matching sizes fun line => Shows parsers upcase kind line && sizes.fits line := by
  intro line hline
  obtain ⟨hshows, hfits⟩ := (Bool.and_eq_true _ _).mp hline
  exact ⟨isSome_parse_of_shows hshows, hfits⟩

/-- The row of a line in the layout of BGL. -/
theorem lineColumns_text (b : BglLine) :
    lineColumns parsers upcase b.text = some (timeless (b.columns parsers upcase [])) := by
  obtain ⟨record, row, hrecord, hrow, hcolumns⟩ := exists_row parsers upcase [] b
  rw [lineColumns, sentRecord, hrecord, Option.map_some, Option.bind_some, rowOf, hrow,
    Option.map_some, hcolumns]

/-- **The rows of what is sent**, by their lines. -/
theorem countP_filterMap_sentRecord (kind : LogColumns → Bool) (sendings : List Sending) :
    (sendings.filterMap (sentRecord upcase)).countP (RowShows parsers kind)
      = copies (Shows parsers upcase kind) sendings := by
  rw [copies, List.countP_filterMap]
  refine List.countP_congr fun sending _ => ?_
  rw [Shows, ← rowOf_sentRecord sending]
  cases sentRecord upcase sending with
  | none => simp
  | some record => simp [RowShows]

/-- **The rows that are stored** of records. -/
theorem countP_columns_readKafkaStream (kind : LogColumns → Bool) (records : List FluentdRecord) :
    (((readKafkaStream parsers records).map (·.columns)).countP fun columns =>
        kind (timeless columns))
      = records.countP (RowShows parsers kind) := by
  rw [List.countP_map, readKafkaStream, List.countP_filterMap]
  refine List.countP_congr fun record _ => ?_
  rw [RowShows, rowOf]
  cases enrich parsers record with
  | none => simp
  | some row => simp

end Rows

/-! ### The system -/

inductive Action (P : Type) where
  /-- The log file is written, or the agent does something; what it gets out goes to these
  partitions. -/
  | agent : ForwardingAction → (ℕ → P) → Action P
  /-- The query does something. -/
  | query : StreamingQuery.Action P → Action P

section System

variable [DecidableEq P] (upcase : Text → Text)

/-- The records of what is sent, each in its partition. -/
def arrivals (partitionOf : ℕ → P) (sendings : List Sending) : Topic P FluentdRecord :=
  spread (sendings.zipIdx.filterMap fun (sending, i) =>
    (sentRecord upcase sending).map fun record => (partitionOf i, record))

variable (sleepInterval : NNRat) (dataset : List Text) (sizes : Sizes) (totalLimit : ℕ)
  (ml : SparkML Nlp Km Features) (parsers : Parsers) (partitions : List P)

/-- The query is first started when the agent is there. -/
def start (agent : Forwarding) (topic : Topic P FluentdRecord) : LogPath P Nlp Km :=
  ⟨agent, StreamingQuery.start topic⟩

def step (s : LogPath P Nlp Km) : Action P → Option (LogPath P Nlp Km)
  | .agent action partitionOf => do
    let agent ← s.agent.step sleepInterval dataset sizes totalLimit action
    let sent := agent.outbox.sent.drop s.agent.outbox.sent.length
    let query ← s.query.step ml parsers partitions (.arrive (arrivals upcase partitionOf sent))
    pure ⟨agent, query⟩
  -- nobody else sends to the topic
  | .query (.arrive _) => none
  | .query action => do
    let query ← s.query.step ml parsers partitions action
    pure { s with query := query }

variable {upcase sleepInterval dataset sizes totalLimit ml parsers partitions} in
/-- While the query runs alone, the agent stands still. -/
theorem run_query {actions : List (StreamingQuery.Action P)}
    (hown : ∀ action ∈ actions, ∀ more, action ≠ .arrive more) (agent : Forwarding)
    (query : StreamingQuery P Nlp Km) :
    Lts.run (step upcase sleepInterval dataset sizes totalLimit ml parsers partitions)
        (actions.map .query) ⟨agent, query⟩
      = (Lts.run (StreamingQuery.step ml parsers partitions) actions query).map (⟨agent, ·⟩) := by
  refine Lts.run_map (fun query => (⟨agent, query⟩ : LogPath P Nlp Km)) Action.query
    (fun action haction query => ?_) query
  cases action with
  | arrive more => exact absurd rfl (hown _ haction more)
  | purge | plan | call | commit | restart =>
    rw [Option.map_eq_bind]
    rfl

variable {upcase} in
/-- What is sent arrives, and nothing else. -/
theorem countP_arrivals {partitions : List P} (hnodup : partitions.Nodup)
    (hall : ∀ p, p ∈ partitions) (partitionOf : ℕ → P) (sendings : List Sending)
    (f : FluentdRecord → Bool) :
    (partitions.flatMap (arrivals upcase partitionOf sendings)).countP f
      = (sendings.filterMap (sentRecord upcase)).countP f := by
  have hrecords : (sendings.zipIdx.filterMap fun (sending, i) =>
      (sentRecord upcase sending).map fun record => (partitionOf i, record)).map Prod.snd
        = sendings.filterMap (sentRecord upcase) := by
    rw [List.map_filterMap]
    conv_rhs => rw [← List.zipIdx_map_fst 0 sendings, List.filterMap_map]
    refine List.filterMap_congr fun entry _ => ?_
    rw [Option.map_map]
    exact Option.map_id'
  rw [← hrecords]
  exact countP_spread hnodup hall f

end System

/-! ### The invariant -/

/-- Both parts are sound, and what has arrived since the query was first started is what has been
sent since then. -/
structure Sound (upcase : Text → Text) (sleepInterval : NNRat) (dataset : List Text)
    (sizes : Sizes) (parsers : Parsers) (partitions : List P) (safe : Prop) (before : List Sending)
    (s : LogPath P Nlp Km) : Prop where
  agent : ∃ handed, s.agent.Sound sleepInterval dataset sizes handed
  query : s.query.Sound parsers partitions safe
  arrived : ∃ since, s.agent.outbox.sent = before ++ since ∧
    ∀ f : FluentdRecord → Bool, (s.query.reader.arrived partitions).countP f
      = (since.filterMap (sentRecord upcase)).countP f

section Sound

variable [DecidableEq P] {upcase : Text → Text} {sleepInterval : NNRat} {dataset : List Text}
  {sizes : Sizes} {totalLimit : ℕ} {ml : SparkML Nlp Km Features} {parsers : Parsers}
  {partitions : List P} {safe : Prop} {before : List Sending} {s s' : LogPath P Nlp Km}

omit [DecidableEq P] in
/-- Only what arrives has arrived. -/
theorem arrived_step {q q' : StreamingQuery P Nlp Km} {action : StreamingQuery.Action P}
    (hstep : q.step ml parsers partitions action = some q') (h : ∀ more, action ≠ .arrive more) :
    q'.reader.arrived partitions = q.reader.arrived partitions := by
  cases action with
  | arrive more => exact absurd rfl (h more)
  | purge oldest =>
    obtain ⟨reader, hpurge, heq⟩ := Option.bind_eq_some_iff.mp hstep
    obtain rfl := Option.some.inj heq
    exact Reader.arrived_purge hpurge
  | plan ends =>
    obtain ⟨reader, hplan, heq⟩ := Option.bind_eq_some_iff.mp hstep
    obtain rfl := Option.some.inj heq
    exact Reader.arrived_plan hplan
  | call env =>
    obtain ⟨entries, -, heq⟩ := Option.bind_eq_some_iff.mp hstep
    obtain rfl := Option.some.inj heq
    exact Reader.arrived_ended _
  | commit =>
    obtain ⟨reader, hcommit, heq⟩ := Option.bind_eq_some_iff.mp hstep
    obtain rfl := Option.some.inj heq
    exact Reader.arrived_commit hcommit
  | restart =>
    obtain rfl := Option.some.inj hstep
    rfl

omit [DecidableEq P] in
theorem sound_start {agent : Forwarding} {topic : Topic P FluentdRecord}
    (hagent : ∃ handed, agent.Sound sleepInterval dataset sizes handed) :
    Sound upcase sleepInterval dataset sizes parsers partitions safe agent.outbox.sent
      (start agent topic : LogPath P Nlp Km) where
  agent := hagent
  query := StreamingQuery.sound_start topic
  arrived := by
    refine ⟨[], (List.append_nil _).symm, fun f => ?_⟩
    show ((Reader.start topic).arrived partitions).countP f = _
    rw [Reader.arrived_start]
    rfl

variable (hdataset : ∀ line ∈ dataset, '\n' ∉ line) (hnodup : partitions.Nodup)
  (hall : ∀ p, p ∈ partitions)

include hdataset hnodup hall

/-- **A step of the agent**: what it gets out arrives. -/
theorem Sound.agentStep
    (h : Sound upcase sleepInterval dataset sizes parsers partitions safe before s)
    {action : ForwardingAction} {partitionOf : ℕ → P}
    (hstep : s.step upcase sleepInterval dataset sizes totalLimit ml parsers partitions
      (.agent action partitionOf) = some s') :
    Sound upcase sleepInterval dataset sizes parsers partitions safe before s' := by
  obtain ⟨agent, hagent, hstep⟩ := Option.bind_eq_some_iff.mp hstep
  obtain ⟨query, hquery, hs'⟩ := Option.bind_eq_some_iff.mp hstep
  obtain rfl := Option.some.inj hs'
  obtain ⟨handed, hsound⟩ := h.agent
  obtain ⟨since, hsent, harrived⟩ := h.arrived
  obtain ⟨kept, hreader, -, -⟩ := h.query.kept
  obtain ⟨more, hmore⟩ := (Forwarding.step_counts hagent).2.2
  have hdrop : agent.outbox.sent.drop s.agent.outbox.sent.length = more := by
    rw [← hmore, List.drop_left]
  refine ⟨hsound.step hdataset hagent, h.query.step (fun _ _ heq => by cases heq) hquery,
    since ++ more, ?_, fun f => ?_⟩
  · rw [← hmore, hsent, List.append_assoc]
  · obtain rfl := Option.some.inj hquery
    rw [hdrop]
    refine (hreader.countP_arrived _ f).trans ?_
    rw [harrived, countP_arrivals hnodup hall, List.filterMap_append, List.countP_append]

omit hnodup hall hdataset in
/-- **A step of the query.** -/
theorem Sound.queryStep
    (h : Sound upcase sleepInterval dataset sizes parsers partitions safe before s)
    {action : StreamingQuery.Action P} (hsafe : safe → ∀ env, action = .call env → env.RowsSafe)
    (hstep : s.step upcase sleepInterval dataset sizes totalLimit ml parsers partitions
      (.query action) = some s') :
    Sound upcase sleepInterval dataset sizes parsers partitions safe before s' := by
  have hnever : ∀ more, action ≠ .arrive more := by
    rintro more rfl
    exact absurd hstep.symm (Option.some_ne_none s')
  have hstep : (do
      let query ← s.query.step ml parsers partitions action
      pure { s with query := query }) = some s' := by
    cases action with
    | arrive more => exact absurd rfl (hnever more)
    | purge _ | plan _ | call _ | commit | restart => exact hstep
  obtain ⟨query, hquery, hs'⟩ := Option.bind_eq_some_iff.mp hstep
  obtain rfl := Option.some.inj hs'
  obtain ⟨since, hsent, harrived⟩ := h.arrived
  refine ⟨h.agent, h.query.step hsafe hquery, since, hsent, fun f => ?_⟩
  rw [← harrived]
  exact congrArg (List.countP f) (arrived_step hquery hnever)

theorem sound_run {actions : List (Action P)} {agent : Forwarding}
    {topic : Topic P FluentdRecord}
    (hagent : ∃ handed, agent.Sound sleepInterval dataset sizes handed)
    (hrun : Lts.run (step upcase sleepInterval dataset sizes totalLimit ml parsers partitions)
      actions (start agent topic) = some s) :
    Sound upcase sleepInterval dataset sizes parsers partitions
      (∀ env, .query (.call env) ∈ actions → env.RowsSafe) agent.outbox.sent s := by
  have hstep : ∀ (t : LogPath P Nlp Km) (action : Action P) (t' : LogPath P Nlp Km),
      Sound upcase sleepInterval dataset sizes parsers partitions
        (∀ env, .query (.call env) ∈ actions → env.RowsSafe) agent.outbox.sent t →
      action ∈ actions →
      t.step upcase sleepInterval dataset sizes totalLimit ml parsers partitions action = some t' →
      Sound upcase sleepInterval dataset sizes parsers partitions
        (∀ env, .query (.call env) ∈ actions → env.RowsSafe) agent.outbox.sent t' := by
    intro t action t' hsound haction ht
    cases action with
    | agent action partitionOf => exact hsound.agentStep hdataset hnodup hall ht
    | query action =>
      exact hsound.queryStep (fun hsafe env heq => hsafe env (heq ▸ haction)) ht
  exact Lts.run_invariant hstep (sound_start hagent) (fun _ haction => haction) hrun

end Sound

/-! ### The whole path -/

/-- The rows of a kind that are stored, whenever they were read. -/
def stored (kind : LogColumns → Bool) (s : LogPath P Nlp Km) : ℕ :=
  s.query.job.sinks.logColumns.countP fun columns => kind (timeless columns)

section Bounds

variable {upcase : Text → Text} {sleepInterval : NNRat} {dataset : List Text} {sizes : Sizes}
  {parsers : Parsers} {partitions : List P} {safe : Prop} {before : List Sending}
  {s : LogPath P Nlp Km}
  (h : Sound upcase sleepInterval dataset sizes parsers partitions safe before s)

include h

/-- What has arrived of a kind is what has been sent of it. -/
theorem Sound.exists_since (kind : LogColumns → Bool) :
    ∃ since, s.agent.outbox.sent = before ++ since ∧
      (s.query.reader.arrived partitions).countP (RowShows parsers kind)
        = copies (Shows parsers upcase kind) since := by
  obtain ⟨since, hsent, harrived⟩ := h.arrived
  exact ⟨since, hsent, (harrived _).trans (countP_filterMap_sentRecord kind since)⟩

/-- **Not too many rows.** -/
theorem Sound.stored_le (kind : LogColumns → Bool) :
    s.stored kind ≤ (s.query.reader.restarts + 1) * ((s.agent.outbox.failures + 1) *
      ((s.agent.kills + 1) * s.agent.written.countP (Shows parsers upcase kind))) := by
  obtain ⟨handed, hagent⟩ := h.agent
  obtain ⟨kept, hreader, -, hlogs⟩ := h.query.kept
  obtain ⟨since, hsent, hsince⟩ := h.exists_since kind
  have hle := hagent.copies_le_written (Shows parsers upcase kind)
  rw [hsent, copies_append] at hle
  rw [stored, hlogs, countP_columns_readKafkaStream]
  refine (hreader.countP_le_starts _).trans (Nat.mul_le_mul_left _ ?_)
  refine (hreader.countP_goal_le _).trans ?_
  rw [hsince]
  omega

/-- **Not too few rows**, once all is handled. -/
theorem Sound.le_stored (hsafe : safe) (hpending : s.agent.outbox.pending = [])
    (hend : ∀ p, s.query.reader.committed p = (s.query.reader.topic p).length)
    (kind : LogColumns → Bool) :
    (s.agent.shipping.tail.lines.countP fun line =>
        Shows parsers upcase kind line && sizes.fits line)
      ≤ copies (Shows parsers upcase kind) before + s.stored kind
        + s.query.reader.passedOver.countP (RowShows parsers kind) := by
  obtain ⟨handed, hagent⟩ := h.agent
  obtain ⟨kept, hreader, hkept, hlogs⟩ := h.query.kept
  obtain ⟨since, hsent, hsince⟩ := h.exists_since kind
  have hread := hagent.tail_le_copies (matching_shows parsers upcase sizes kind)
  have hnone : copies (fun line => Shows parsers upcase kind line && sizes.fits line)
      s.agent.outbox.pending = 0 := by
    rw [hpending]
    rfl
  have hfit : copies (fun line => Shows parsers upcase kind line && sizes.fits line)
      s.agent.outbox.sent ≤ copies (Shows parsers upcase kind) s.agent.outbox.sent :=
    List.countP_mono_left fun _ _ hshows => (Bool.and_eq_true_iff.mp hshows).1
  have hhandled : (between partitions s.query.reader.topic s.query.reader.first
      s.query.reader.committed).countP (RowShows parsers kind)
        ≤ kept.countP (RowShows parsers kind)
          + s.query.reader.passedOver.countP (RowShows parsers kind) :=
    (countP_between_mono _ hreader.first_le fun p hp =>
      s.query.reader.committed_le_settled (hreader.committed_le p hp)).trans (hkept hsafe _)
  rw [Reader.between_eq_arrived fun p _ => hend p, hsince] at hhandled
  rw [stored, hlogs, countP_columns_readKafkaStream]
  refine hread.trans ?_
  rw [hnone, Nat.add_zero]
  refine hfit.trans ?_
  rw [hsent, copies_append, Nat.add_assoc]
  exact Nat.add_le_add_left hhandled _

end Bounds

section Path

variable [DecidableEq P] (upcase : Text → Text) (sleepInterval : NNRat) {content : Option Text}
  {dataset : List Text} (hload : loadDataset content = .ok dataset) (sizes : Sizes)
  (totalLimit : ℕ) (ml : SparkML Nlp Km Features) (parsers : Parsers) {partitions : List P}
  (hnodup : partitions.Nodup) (hall : ∀ p, p ∈ partitions)
  {before : List ForwardingAction} {agent : Forwarding}
  (hbefore : Lts.run (Forwarding.step sleepInterval dataset sizes totalLimit) before
    Forwarding.start = some agent)
  {topic : Topic P FluentdRecord} {actions : List (Action P)} {s : LogPath P Nlp Km}
  (hrun : Lts.run (step upcase sleepInterval dataset sizes totalLimit ml parsers partitions) actions
    (start agent topic) = some s)

include hload hnodup hall hbefore hrun

/-- **From the lines to the rows**: whatever is killed, fails or is started again, no more rows
of a kind are stored than lines of the kind were written, times the starts of the agent, times
the attempts to send, times the starts of the query. And once the buffer is empty and the topic
is handled, with no call that has logged an exception of the training, the inference or the
append, they are as many as the lines of the kind that the agent has read and that fit a chunk, but
for those sent before the query was first started and those deleted from the topic before their
batch was read. -/
theorem lines_to_rows (kind : LogColumns → Bool) :
    s.stored kind ≤ (s.query.reader.restarts + 1) * ((s.agent.outbox.failures + 1) *
        ((s.agent.kills + 1) * s.agent.written.countP (Shows parsers upcase kind))) ∧
      ((∀ env, .query (.call env) ∈ actions → env.RowsSafe) → s.agent.outbox.pending = [] →
        (∀ p, s.query.reader.committed p = (s.query.reader.topic p).length) →
        (s.agent.shipping.tail.lines.countP fun line =>
            Shows parsers upcase kind line && sizes.fits line)
          ≤ copies (Shows parsers upcase kind) agent.outbox.sent + s.stored kind
            + s.query.reader.passedOver.countP (RowShows parsers kind)) := by
  have hdataset := not_mem_of_loadDataset hload
  have h := sound_run hdataset hnodup hall
    (Forwarding.exists_sound_run hdataset ⟨[], Forwarding.sound_start⟩ hbefore) hrun
  exact ⟨h.stored_le kind, fun hsafe hpending hend => h.le_stored hsafe hpending hend kind⟩

/-- **Every line is in the table**: where the query was first started before anything was sent,
nothing was deleted from the topic before its batch was read, all is handled, and no call has
logged such an exception, each line in the layout of BGL that the agent has read and that fits a
chunk has a row with its columns. -/
theorem every_line_stored (hsent : agent.outbox.sent = [])
    (hover : s.query.reader.passedOver = [])
    (hsafe : ∀ env, .query (.call env) ∈ actions → env.RowsSafe)
    (hpending : s.agent.outbox.pending = [])
    (hend : ∀ p, s.query.reader.committed p = (s.query.reader.topic p).length) (b : BglLine)
    (hfits : sizes.fits b.text = true) (hline : b.text ∈ s.agent.shipping.tail.lines) :
    ∃ columns ∈ s.query.job.sinks.logColumns,
      timeless columns = timeless (b.columns parsers upcase []) := by
  have hdataset := not_mem_of_loadDataset hload
  have h := sound_run hdataset hnodup hall
    (Forwarding.exists_sound_run hdataset ⟨[], Forwarding.sound_start⟩ hbefore) hrun
  have hle := h.le_stored hsafe hpending hend
    fun columns => columns = timeless (b.columns parsers upcase [])
  have hread : 0 < s.agent.shipping.tail.lines.countP fun line =>
      Shows parsers upcase (fun columns => columns = timeless (b.columns parsers upcase [])) line
        && sizes.fits line := by
    refine List.countP_pos_iff.mpr ⟨b.text, hline, ?_⟩
    rw [Shows, lineColumns_text, hfits, Bool.and_true]
    exact decide_eq_true rfl
  rw [hsent, hover, List.countP_nil, Nat.add_zero] at hle
  obtain ⟨columns, hcolumns, heq⟩ := List.countP_pos_iff.mp
    (Nat.lt_of_lt_of_le hread (hle.trans (Nat.le_of_eq (Nat.zero_add _))))
  exact ⟨columns, hcolumns, of_decide_eq_true heq⟩

end Path

/-! ### A line that is stored four times -/

theorem token_singleton {c : Char} (h : nonSpace c = true) :
    [c] ≠ [] ∧ ∀ x ∈ [c], nonSpace x = true :=
  ⟨List.cons_ne_nil c [], List.forall_mem_singleton.mpr h⟩

/-- A line in the layout of BGL. -/
def shortBgl : BglLine where
  alertCode := ⟨['-'], token_singleton rfl⟩
  epoch := ⟨['1'], List.cons_ne_nil _ _, List.forall_mem_singleton.mpr rfl⟩
  date := ⟨['a'], token_singleton rfl⟩
  node := ⟨['b'], token_singleton rfl⟩
  timestamp := ⟨['c'], token_singleton rfl⟩
  nodeRepeat := ⟨['d'], token_singleton rfl⟩
  recordType := ⟨['e'], token_singleton rfl⟩
  component := ⟨['f'], token_singleton rfl⟩
  level := ⟨['g'], token_singleton rfl⟩
  message := ⟨['h'], by decide⟩
  gap _ := ⟨[' '], ⟨List.cons_ne_nil _ _, List.forall_mem_singleton.mpr rfl⟩, by decide⟩

/-- Its text. -/
def shortLine : EchoLine := ⟨"- 1 a b c d e f g h".toList, by decide⟩

theorem text_shortBgl : shortBgl.text = shortLine.1 := rfl

/-- It has been read, and its chunk is in the queue. -/
def loaded : Forwarding where
  shipping := ⟨shortLine.1 ++ ['\n'], 0, ⟨20, [], [shortLine.1]⟩, [(.other, shortLine.1)]⟩
  saved := ⟨0, [], []⟩
  kills := 0
  outbox := ⟨[], [[(shortLine.1, [])]], [], 0⟩

theorem run_loaded :
    Lts.run (Forwarding.step 0 ["ok".toList] Forwarding.exampleSizes (128 * chunkLimitSize))
      [.append shortLine, .read 20 [], .enqueue 1] Forwarding.start = some loaded := rfl

/-- The record that is sent of it. -/
def shortRecord : FluentdRecord where
  alertCode := some "-"
  epoch := some "1"
  dateStr := some "a"
  nodeId := some "b"
  timestamp := some "c"
  component := some "e"
  severity := some "f"
  message := some "g h"
  isAnomaly := some 0
  ingestedAt := some ""
  source := some "fluentd-agent"

/-- It is on the topic twice, as the first sending was not acknowledged. -/
def delivered : LogPath Unit Unit Unit where
  agent := { loaded with outbox := ⟨[], [], [(shortLine.1, []), (shortLine.1, [])], 1⟩ }
  query := ⟨(Reader.start fun _ => []).arrive fun _ => [shortRecord, shortRecord],
    ⟨BatchProcessor.init, Sinks.initial⟩⟩

def agentActions : List (Action Unit) :=
  [.agent (.fail 0 fun _ => true) fun _ => (), .agent (.flush 0) fun _ => ()]

theorem run_agentActions :
    Lts.run (step id 0 ["ok".toList] Forwarding.exampleSizes (128 * chunkLimitSize)
        (SparkML.ofRule fun _ => 0) parsersOfExample [()]) agentActions (start loaded fun _ => [])
      = some delivered := rfl

/-- The process is killed between the append and the commit. -/
def queryActions : List (Action Unit) :=
  [.query (.plan fun _ => 2), .query (.call (Env.serving.crashAfter 6)), .query .restart,
    .query (.call Env.serving), .query .commit]

/-- The batch of both records is planned. -/
def plannedReader : Reader Unit FluentdRecord :=
  { delivered.query.reader with planned := some fun _ => 2 }

/-- The call that is killed. -/
def killedCall : Py.Ending Unit × Job Unit Unit :=
  process (SparkML.ofRule fun _ => 0) (Env.serving.crashAfter 6)
    (readKafkaStream parsersOfExample [shortRecord, shortRecord]) 0
    ⟨BatchProcessor.init, Sinks.initial⟩

/-- The call after the restart. -/
def finishedCall : Py.Ending Unit × Job Unit Unit :=
  process (SparkML.ofRule fun _ => 0) Env.serving
    (readKafkaStream parsersOfExample [shortRecord, shortRecord]) 0
    ⟨BatchProcessor.init, killedCall.2.sinks⟩

/-- The batch is committed. -/
def committed : LogPath Unit Unit Unit where
  agent := delivered.agent
  query := ⟨{ plannedReader with
    committed := fun _ => 2
    batchId := 1
    planned := none
    restarts := 1 }, finishedCall.2⟩

theorem run_queryActions :
    Lts.run (step id 0 ["ok".toList] Forwarding.exampleSizes (128 * chunkLimitSize)
        (SparkML.ofRule fun _ => 0) parsersOfExample [()]) queryActions delivered
      = some committed := by
  have hbatch : plannedReader.batch [()] = some [shortRecord, shortRecord] := rfl
  have hplan : StreamingQuery.step (SparkML.ofRule fun _ => 0) parsersOfExample [()]
      delivered.query (.plan fun _ => 2)
        = some ⟨plannedReader, ⟨BatchProcessor.init, Sinks.initial⟩⟩ := rfl
  have hkilled : killedCall.1 ≠ .done () := by decide +kernel
  have hfinished : finishedCall.1 = .done () := by decide +kernel
  have hquery := (Lts.run_cons hplan).trans
    (StreamingQuery.run_calledTwice hbatch rfl rfl hkilled hfinished)
  refine (run_query (fun action haction more => ?_) delivered.agent delivered.query).trans
    (congrArg (Option.map fun query => (⟨delivered.agent, query⟩ : LogPath Unit Unit Unit)) hquery)
  rintro rfl
  simp at haction

theorem stored_committed : committed.stored (fun _ => true) = 4 := by decide +kernel

/-- The whole run. -/
theorem exists_run_storedFourTimes :
    ∃ s, Lts.run (step id 0 ["ok".toList] Forwarding.exampleSizes (128 * chunkLimitSize)
        (SparkML.ofRule fun _ => 0) parsersOfExample [()]) (agentActions ++ queryActions)
        (start loaded fun _ => []) = some s ∧
      s.agent.shipping.tail.lines = [shortLine.1] ∧ s.agent.outbox.pending = [] ∧
      (∀ p, s.query.reader.committed p = (s.query.reader.topic p).length) ∧
      s.query.reader.passedOver = [] ∧ s.stored (fun _ => true) = 4 := by
  refine ⟨committed, ?_, rfl, rfl, fun _ => rfl, rfl, stored_committed⟩
  rw [Lts.run_append, run_agentActions, Option.bind_some, run_queryActions]

theorem rowsSafe_queryActions (env : Env)
    (h : Action.query (.call env) ∈ agentActions ++ queryActions) : env.RowsSafe := by
  simp only [agentActions, queryActions, List.cons_append, List.nil_append, List.mem_cons,
    Action.query.injEq, StreamingQuery.Action.call.injEq, reduceCtorEq, List.not_mem_nil, false_or,
    or_false] at h
  rcases h with rfl | rfl <;> exact ⟨by decide, by decide, by decide⟩

theorem lines_to_rows_storedFourTimes :
    ∃ s, Lts.run (step id 0 ["ok".toList] Forwarding.exampleSizes (128 * chunkLimitSize)
        (SparkML.ofRule fun _ => 0) parsersOfExample [()]) (agentActions ++ queryActions)
        (start loaded fun _ => []) = some s ∧
      4 ≤ (s.query.reader.restarts + 1) * ((s.agent.outbox.failures + 1) * ((s.agent.kills + 1)
        * s.agent.written.countP (Shows parsersOfExample id fun _ => true))) ∧
      (s.agent.shipping.tail.lines.countP fun line =>
        Shows parsersOfExample id (fun _ => true) line
          && Forwarding.exampleSizes.fits line) ≤ 4 := by
  obtain ⟨s, hrun, -, hpending, hend, hover, hstored⟩ := exists_run_storedFourTimes
  obtain ⟨hle, hge⟩ := lines_to_rows id 0 Shipping.loadDataset_one Forwarding.exampleSizes _
    (SparkML.ofRule fun _ => 0) parsersOfExample (List.nodup_singleton ())
    (fun _ => List.mem_singleton.mpr rfl) run_loaded hrun fun _ => true
  have hge := hge rowsSafe_queryActions hpending hend
  have hnone : copies (Shows parsersOfExample id fun _ => true) loaded.outbox.sent = 0 := rfl
  rw [hstored] at hle
  rw [hstored, hnone, hover, List.countP_nil, Nat.zero_add] at hge
  exact ⟨s, hrun, hle, hge⟩

theorem every_line_stored_storedFourTimes :
    ∃ s, Lts.run (step id 0 ["ok".toList] Forwarding.exampleSizes (128 * chunkLimitSize)
        (SparkML.ofRule fun _ => 0) parsersOfExample [()]) (agentActions ++ queryActions)
        (start loaded fun _ => []) = some s ∧
      ∃ columns ∈ s.query.job.sinks.logColumns,
        timeless columns = timeless (shortBgl.columns parsersOfExample id []) := by
  obtain ⟨s, hrun, hlines, hpending, hend, hover, -⟩ := exists_run_storedFourTimes
  have hline : shortBgl.text ∈ s.agent.shipping.tail.lines := by
    rw [hlines, text_shortBgl]
    exact List.mem_cons_self
  exact ⟨s, hrun, every_line_stored id 0 Shipping.loadDataset_one Forwarding.exampleSizes _
    (SparkML.ofRule fun _ => 0) parsersOfExample (List.nodup_singleton ())
    (fun _ => List.mem_singleton.mpr rfl) run_loaded hrun rfl hover rowsSafe_queryActions hpending
    hend shortBgl (by decide) hline⟩

end LogPath

end AiopsLog
