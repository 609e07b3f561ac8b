import AiopsLog.Numerals
import Mathlib.Algebra.BigOperators.Ring.Finset
import Mathlib.Algebra.Order.Group.Nat
import Mathlib.Algebra.Order.Ring.Int
import Mathlib.Algebra.Order.BigOperators.Group.List

/-!
# The crash of the log collector

The scenario stops Fluentd, waits, starts it again and polls the end offsets of the topic
until their sum exceeds the one it began with. A sum is all it keeps of the partitions.

The wait ends with the first poll that finds more, and this poll alone decides what is reported
(`AiopsLog.FluentdCrash.run_of_grown`). Where each poll reads the partitions that were read at
first, the sums compare as the partitions do, because an end offset never falls: the verdict is
that both commands have succeeded and that some partition has grown before the deadline, and the
number reported is that of the messages that are new when the wait ends
(`AiopsLog.FluentdCrash.run_of_sameOffsets`). A partition that could not be read at first makes up
for it later with all it has ever held (`AiopsLog.FluentdCrash.run_of_missed`), and nothing need
have been delivered.
-/

namespace AiopsLog

namespace FluentdCrash

/-- `KAFKA_TOPIC`. -/
def kafkaTopic : Text := "system-logs".toList

/-! ### The checks -/

/-- What a line of the output adds to the total. -/
def offsetOf (line : Text) : ℤ :=
  match (strip (String.ofList line)).toList.splitOn ':' with
  | [_, _, offset] => (int offset).getD 0
  | _ => 0

/-- `_get_kafka_offset`, of what the shell has returned. -/
def getKafkaOffset (result : CompletedProcess) : ℤ :=
  if result.ok then
    ((splitlines (strip (String.ofList result.stdout)).toList).map offsetOf).sum
  else -1

/-- `_docker_stop`. -/
def dockerStop (result : CompletedProcess) : Bool := result.ok

/-- `_docker_start`. -/
def dockerStart (result : CompletedProcess) : Bool := result.ok

/-- `_check_fluentd_buffer_nonempty`: the count is logged, where it is one. -/
def checkFluentdBufferNonempty (result : CompletedProcess) : Bool :=
  match int (strip (String.ofList result.stdout)).toList with
  | some _ => true
  | none => true

/-! ### The report -/

/-- The `checks` of `run`. -/
structure Checks where
  fluentdStoppedCleanly : Bool
  bufferFilesPresentDuringOutage : Bool
  fluentdRestartedCleanly : Bool
  kafkaOffsetGrewAfterRecovery : Bool

/-- `all(checks.values())`. -/
def Checks.all (checks : Checks) : Bool :=
  checks.fluentdStoppedCleanly && checks.bufferFilesPresentDuringOutage &&
    checks.fluentdRestartedCleanly && checks.kafkaOffsetGrewAfterRecovery

/-- The `metrics` of `run`; a key that is not set is none. -/
structure Metrics where
  offsetBeforeCrash : ℤ
  offsetAfterRecovery : Option ℤ
  messagesDeliveredAfterCrash : Option ℤ

structure Report where
  passed : Bool
  checks : Checks
  metrics : Metrics
  error : Option Text

/-- What the scenario finds, in its order. -/
structure Findings where
  /-- The shell, at first. -/
  before : CompletedProcess
  stop : CompletedProcess
  /-- The count of the files in the buffer. -/
  buffer : CompletedProcess
  start : CompletedProcess
  /-- The shell, polled until the deadline. -/
  polls : List CompletedProcess
  /-- The shell, behind the deadline. -/
  last : CompletedProcess

/-- The reading that ends the loop, if one does before the deadline. -/
def grown (offsetBefore : ℤ) (polls : List CompletedProcess) : Option ℤ :=
  (polls.map getKafkaOffset).find? (offsetBefore < ·)

/-- `run`. -/
def run (found : Findings) : Report :=
  let offsetBefore := getKafkaOffset found.before
  if offsetBefore < 0 then
    { passed := false
      checks := ⟨false, false, false, false⟩
      metrics := ⟨offsetBefore, none, none⟩
      error := some "Kafka unreachable".toList }
  else
    let grown := grown offsetBefore found.polls
    let offsetAfter := grown.getD (getKafkaOffset found.last)
    let checks : Checks := {
      fluentdStoppedCleanly := dockerStop found.stop
      bufferFilesPresentDuringOutage := checkFluentdBufferNonempty found.buffer
      fluentdRestartedCleanly := dockerStart found.start
      kafkaOffsetGrewAfterRecovery := grown.isSome }
    { passed := checks.all
      checks := checks
      metrics := ⟨offsetBefore, some offsetAfter, some (max 0 (offsetAfter - offsetBefore))⟩
      error := none }

/-- The count of the buffer's files has no part in the verdict. -/
theorem checkFluentdBufferNonempty_eq_true (result : CompletedProcess) :
    checkFluentdBufferNonempty result = true := by
  rw [checkFluentdBufferNonempty]
  split <;> rfl

section Wait

variable {offsetBefore : ℤ} {quiet rest : List CompletedProcess} {poll : CompletedProcess}
  {found : Findings}

/-- **The wait ends with the first poll that finds more.** -/
theorem grown_append_cons (hquiet : ∀ q ∈ quiet, getKafkaOffset q ≤ offsetBefore)
    (hmore : offsetBefore < getKafkaOffset poll) :
    grown offsetBefore (quiet ++ poll :: rest) = some (getKafkaOffset poll) := by
  have hfirst : (getKafkaOffset poll :: rest.map getKafkaOffset).find? (offsetBefore < ·)
      = some (getKafkaOffset poll) := by
    rw [List.find?_cons, decide_eq_true hmore]
  rw [grown, List.map_append, List.map_cons, List.find?_append, List.find?_eq_none.mpr,
    Option.none_or, hfirst]
  intro offset hoffset
  obtain ⟨q, hq, rfl⟩ := List.mem_map.mp hoffset
  rw [decide_eq_true_eq, not_lt]
  exact hquiet q hq

/-- A poll that finds more has a first one before it. -/
theorem exists_quiet {polls : List CompletedProcess}
    (h : ∃ poll ∈ polls, offsetBefore < getKafkaOffset poll) :
    ∃ quiet poll rest, polls = quiet ++ poll :: rest ∧
      (∀ q ∈ quiet, getKafkaOffset q ≤ offsetBefore) ∧ offsetBefore < getKafkaOffset poll := by
  have hsome : (polls.find? fun poll => decide (offsetBefore < getKafkaOffset poll)).isSome := by
    simpa only [List.find?_isSome, decide_eq_true_eq] using h
  obtain ⟨poll, hpoll⟩ := Option.isSome_iff_exists.mp hsome
  obtain ⟨hfirst, quiet, rest, heq, hquiet⟩ := List.find?_eq_some_iff_append.mp hpoll
  refine ⟨quiet, poll, rest, heq, fun q hq => ?_, of_decide_eq_true hfirst⟩
  have hnot := hquiet q hq
  rwa [Bool.not_eq_true', decide_eq_false_iff_not, not_lt] at hnot

theorem isSome_grown_iff {polls : List CompletedProcess} :
    (grown offsetBefore polls).isSome = true ↔
      ∃ poll ∈ polls, offsetBefore < getKafkaOffset poll := by
  simp only [grown, List.find?_isSome, List.mem_map, exists_exists_and_eq_and, decide_eq_true_eq]

/-- **The verdict**: both commands have succeeded, and a poll has found more. -/
theorem run_passed_iff (h : 0 ≤ getKafkaOffset found.before) :
    (run found).passed = true ↔ found.stop.ok = true ∧ found.start.ok = true ∧
      ∃ poll ∈ found.polls, getKafkaOffset found.before < getKafkaOffset poll := by
  have hpassed : (run found).passed = (found.stop.ok &&
      checkFluentdBufferNonempty found.buffer && found.start.ok &&
      (grown (getKafkaOffset found.before) found.polls).isSome) := by
    simp only [run, if_neg (not_lt.mpr h), Checks.all, dockerStop, dockerStart]
  rw [hpassed, checkFluentdBufferNonempty_eq_true, Bool.and_true, Bool.and_eq_true,
    Bool.and_eq_true, isSome_grown_iff, and_assoc]

/-- **What is reported where the wait ends**: the verdict is that of the two commands, and as
delivered counts what the poll that ends it has found more. -/
theorem run_of_grown (h : 0 ≤ getKafkaOffset found.before)
    (hpolls : found.polls = quiet ++ poll :: rest)
    (hquiet : ∀ q ∈ quiet, getKafkaOffset q ≤ getKafkaOffset found.before)
    (hmore : getKafkaOffset found.before < getKafkaOffset poll) :
    ((run found).passed = true ↔ found.stop.ok = true ∧ found.start.ok = true) ∧
      (run found).metrics.messagesDeliveredAfterCrash
        = some (getKafkaOffset poll - getKafkaOffset found.before) := by
  constructor
  · rw [run_passed_iff h, hpolls]
    have hfound : ∃ late ∈ quiet ++ poll :: rest,
        getKafkaOffset found.before < getKafkaOffset late :=
      ⟨poll, List.mem_append_right _ List.mem_cons_self, hmore⟩
    rw [and_iff_left hfound]
  · have hdelivered : (run found).metrics.messagesDeliveredAfterCrash
        = some (max 0 ((grown (getKafkaOffset found.before) found.polls).getD
            (getKafkaOffset found.last) - getKafkaOffset found.before)) := by
      simp only [run, if_neg (not_lt.mpr h)]
    rw [hdelivered, hpolls, grown_append_cons hquiet hmore, Option.getD_some,
      max_eq_right (by omega)]

end Wait

/-! ### What the shell prints -/

/-- The end offsets of the partitions: how many messages each has ever been given. -/
structure EndOffsets where
  of : ℕ → ℕ
  lt : ∀ partition, of partition < 2 ^ 63

namespace EndOffsets

variable (offsets : EndOffsets)

/-- The line of a partition. -/
def line (partition : ℕ) : Text :=
  kafkaTopic ++ ':' :: (decimal partition ++ ':' :: decimal (offsets.of partition))

/-- What the shell returns where it reads these partitions. -/
def shell (partitions : List ℕ) : CompletedProcess :=
  ⟨0, Lines.unlines '\n' (partitions.map offsets.line)⟩

theorem shell_ok (partitions : List ℕ) : (offsets.shell partitions).ok = true := rfl

/-- The messages of these partitions. -/
def total (partitions : List ℕ) : ℕ := (partitions.map offsets.of).sum

theorem not_isPythonSpace_line {partition : ℕ} :
    ∀ c ∈ offsets.line partition, isPythonSpace c = false := by
  have hdecimal : ∀ n, ∀ c ∈ decimal n, isPythonSpace c = false := fun n c hc =>
    isPythonSpace_of_isDigit (isDigit_of_mem_decimal hc)
  have htopic : kafkaTopic.any isPythonSpace = false := rfl
  intro c hc
  rcases List.mem_append.mp hc with hc | hc
  · exact Bool.eq_false_iff.mpr (List.any_eq_false.mp htopic c hc)
  · rcases List.mem_cons.mp hc with rfl | hc
    · rfl
    · rcases List.mem_append.mp hc with hc | hc
      · exact hdecimal _ c hc
      · rcases List.mem_cons.mp hc with rfl | hc
        · rfl
        · exact hdecimal _ c hc

theorem offsetOf_line (partition : ℕ) :
    offsetOf (offsets.line partition) = offsets.of partition := by
  have hcolon : ∀ n, ':' ∉ decimal n := fun n => not_mem_decimal rfl
  have hsplit : (offsets.line partition).splitOn ':'
      = [kafkaTopic, decimal partition, decimal (offsets.of partition)] := by
    rw [line, List.splitOn_append_cons_self_of_not_mem (by decide),
      List.splitOn_append_cons_self_of_not_mem (hcolon _), List.splitOn_eq_singleton (hcolon _)]
  rw [offsetOf, strip_of_forall offsets.not_isPythonSpace_line, hsplit]
  simp only [int_decimal_of_lt (offsets.lt partition) (by decide), Option.getD_some]

/-- **What is read off the shell's output** is the number of the messages. -/
theorem getKafkaOffset_shell (partitions : List ℕ) :
    getKafkaOffset (offsets.shell partitions) = offsets.total partitions := by
  have hlines : splitlines (strip (String.ofList (offsets.shell partitions).stdout)).toList
      = partitions.map offsets.line := by
    refine splitlines_strip_unlines fun line hline => ?_
    obtain ⟨partition, -, rfl⟩ := List.mem_map.mp hline
    exact ⟨List.append_ne_nil_of_left_ne_nil (by decide) _, offsets.not_isPythonSpace_line⟩
  rw [getKafkaOffset, if_pos (offsets.shell_ok partitions), hlines, List.map_map, total,
    Nat.cast_list_sum, List.map_map]
  refine congrArg List.sum (List.map_congr_left fun partition _ => ?_)
  rw [Function.comp_apply, offsetOf_line]
  rfl

end EndOffsets

/-- A poll: the shell has failed, or it has read partitions. -/
inductive Poll where
  | failed : (result : CompletedProcess) → result.ok = false → Poll
  | read : EndOffsets → List ℕ → Poll

/-- What the shell has returned. -/
def Poll.result : Poll → CompletedProcess
  | .failed result _ => result
  | .read offsets partitions => offsets.shell partitions

/-- A poll that finds more has read more messages. -/
theorem lt_getKafkaOffset_result_iff {n : ℕ} {poll : Poll} :
    (n : ℤ) < getKafkaOffset poll.result ↔
      ∃ after partitions, poll = .read after partitions ∧ n < after.total partitions := by
  cases poll with
  | failed result h =>
    have hlost : getKafkaOffset result = -1 := by
      rw [getKafkaOffset, if_neg (h.trans_ne Bool.false_ne_true)]
    refine iff_of_false (fun hlt => ?_) ?_
    · rw [Poll.result, hlost] at hlt
      omega
    · rintro ⟨_, _, ⟨⟩, _⟩
  | read after partitions =>
    rw [Poll.result, after.getKafkaOffset_shell, Nat.cast_lt]
    constructor
    · exact fun hlt => ⟨after, partitions, rfl, hlt⟩
    · rintro ⟨_, _, ⟨⟩, hlt⟩
      exact hlt

/-- Offsets that have not fallen differ by the messages given in between. -/
theorem EndOffsets.total_add {before after : EndOffsets} (partitions : List ℕ)
    (h : ∀ partition, before.of partition ≤ after.of partition) :
    before.total partitions
        + (partitions.map fun partition => after.of partition - before.of partition).sum
      = after.total partitions := by
  rw [total, total, ← List.sum_map_add]
  exact congrArg List.sum (List.map_congr_left fun partition _ => by have := h partition; omega)

/-- Some of the partitions has grown. -/
def EndOffsets.Grown (before after : EndOffsets) (partitions : List ℕ) : Prop :=
  ∃ partition ∈ partitions, before.of partition < after.of partition

/-- Their sums compare as the partitions do. -/
theorem EndOffsets.total_lt_total_iff {before after : EndOffsets} {partitions : List ℕ}
    (h : ∀ partition, before.of partition ≤ after.of partition) :
    before.total partitions < after.total partitions ↔ before.Grown after partitions :=
  ⟨List.exists_lt_of_sum_lt _ _, List.sum_lt_sum _ _ fun partition _ => h partition⟩

/-- A poll finds more where it reads a partition that has grown. -/
theorem lt_result_iff_grown {before : EndOffsets} {partitions : List ℕ} {polls : List Poll}
    (hgrows : ∀ after known, Poll.read after known ∈ polls →
      known = partitions ∧ ∀ partition, before.of partition ≤ after.of partition)
    {poll : Poll} (hpoll : poll ∈ polls) :
    (before.total partitions : ℤ) < getKafkaOffset poll.result ↔
      ∃ after, poll = .read after partitions ∧ before.Grown after partitions := by
  rw [lt_getKafkaOffset_result_iff]
  constructor
  · rintro ⟨after, known, rfl, hlt⟩
    obtain ⟨rfl, hle⟩ := hgrows after known hpoll
    exact ⟨after, rfl, (EndOffsets.total_lt_total_iff hle).mp hlt⟩
  · rintro ⟨after, rfl, hgrown⟩
    have hle := (hgrows after partitions hpoll).2
    exact ⟨after, partitions, rfl, (EndOffsets.total_lt_total_iff hle).mpr hgrown⟩

/-- **The verdict, of offsets that never fall.** The scenario passes where both commands
succeed and some partition has been given a message by a poll before the deadline, as long as
each poll that succeeds reads the partitions read at first; and it reports how many messages
have been given by the first poll that shows one. -/
theorem run_of_sameOffsets {found : Findings} {before : EndOffsets} {partitions : List ℕ}
    {polls : List Poll} (hbefore : found.before = before.shell partitions)
    (hpolls : found.polls = polls.map Poll.result)
    (hgrows : ∀ after known, Poll.read after known ∈ polls →
      known = partitions ∧ ∀ partition, before.of partition ≤ after.of partition) :
    ((run found).passed = true ↔ found.stop.ok = true ∧ found.start.ok = true ∧
      ∃ after, Poll.read after partitions ∈ polls ∧ before.Grown after partitions) ∧
    ((run found).passed = true → ∃ quiet after rest,
      polls = quiet ++ Poll.read after partitions :: rest ∧
      (∀ earlier, Poll.read earlier partitions ∈ quiet → ¬before.Grown earlier partitions) ∧
      before.Grown after partitions ∧
      (run found).metrics.messagesDeliveredAfterCrash = some ((partitions.map fun partition =>
        after.of partition - before.of partition).sum : ℕ)) := by
  have hoffset : getKafkaOffset found.before = before.total partitions := by
    rw [hbefore, before.getKafkaOffset_shell]
  have hread : 0 ≤ getKafkaOffset found.before := by
    rw [hoffset]
    exact Int.natCast_nonneg _
  have hmore : ∀ poll ∈ polls, getKafkaOffset found.before < getKafkaOffset poll.result ↔
      ∃ after, poll = .read after partitions ∧ before.Grown after partitions := by
    intro poll hpoll
    rw [hoffset]
    exact lt_result_iff_grown hgrows hpoll
  have hverdict : (run found).passed = true ↔ found.stop.ok = true ∧ found.start.ok = true ∧
      ∃ after, Poll.read after partitions ∈ polls ∧ before.Grown after partitions := by
    rw [run_passed_iff hread, hpolls]
    refine and_congr_right fun _ => and_congr_right fun _ => ?_
    constructor
    · rintro ⟨_, hmem, hlt⟩
      obtain ⟨poll, hpoll, rfl⟩ := List.mem_map.mp hmem
      obtain ⟨after, rfl, hgrown⟩ := (hmore poll hpoll).mp hlt
      exact ⟨after, hpoll, hgrown⟩
    · rintro ⟨after, hpoll, hgrown⟩
      exact ⟨_, List.mem_map_of_mem hpoll, (hmore _ hpoll).mpr ⟨after, rfl, hgrown⟩⟩
  refine ⟨hverdict, fun hpassed => ?_⟩
  obtain ⟨quiet', poll', rest', heq, hquiet, hlt⟩ :=
    exists_quiet ((run_passed_iff hread).mp hpassed).2.2
  -- the same decomposition of the polls themselves
  obtain ⟨quiet, late, hsplit, rfl, hlate⟩ := List.map_eq_append_iff.mp (hpolls.symm.trans heq)
  obtain ⟨poll, rest, rfl, rfl, rfl⟩ := List.map_eq_cons_iff.mp hlate
  have hpoll : poll ∈ polls := hsplit ▸ List.mem_append_right _ List.mem_cons_self
  obtain ⟨after, rfl, hgrown⟩ := (hmore poll hpoll).mp hlt
  refine ⟨quiet, after, rest, hsplit, fun earlier hearlier hmoved => ?_, hgrown, ?_⟩
  · have hmem : Poll.read earlier partitions ∈ polls := hsplit ▸ List.mem_append_left _ hearlier
    exact absurd ((hmore _ hmem).mpr ⟨earlier, rfl, hmoved⟩)
      (not_lt.mpr (hquiet _ (List.mem_map_of_mem hearlier)))
  · have hsum := EndOffsets.total_add partitions (hgrows _ _ hpoll).2
    rw [(run_of_grown hread heq hquiet hlt).2, hoffset, Poll.result, after.getKafkaOffset_shell]
    exact congrArg some (by omega)

/-! ### Partitions that come and go -/

/-- Five messages in each partition. -/
def fiveMessages : EndOffsets := ⟨fun _ => 5, fun _ => by decide⟩

/-- Seven messages in each partition. -/
def sevenMessages : EndOffsets := ⟨fun _ => 7, fun _ => by decide⟩

/-- Nine messages in each partition. -/
def nineMessages : EndOffsets := ⟨fun _ => 9, fun _ => by decide⟩

/-- The shell fails once, and finds nothing new once, before two messages are seen in each of two
partitions. -/
def recovery : List Poll :=
  [.failed ⟨1, []⟩ rfl, .read fiveMessages [0, 1], .read sevenMessages [0, 1],
    .read nineMessages [0, 1]]

/-- What the scenario finds then. -/
def recovered : Findings where
  before := fiveMessages.shell [0, 1]
  stop := ⟨0, []⟩
  buffer := ⟨0, []⟩
  start := ⟨0, []⟩
  polls := recovery.map Poll.result
  last := ⟨1, []⟩

theorem run_of_sameOffsets_recovered :
    (run recovered).passed = true ∧ ∃ quiet after rest,
      recovery = quiet ++ Poll.read after [0, 1] :: rest ∧
      (∀ earlier, Poll.read earlier [0, 1] ∈ quiet → ¬fiveMessages.Grown earlier [0, 1]) ∧
      fiveMessages.Grown after [0, 1] ∧
      (run recovered).metrics.messagesDeliveredAfterCrash
        = some (([0, 1].map fun partition => after.of partition - 5).sum : ℕ) := by
  have hgrows : ∀ after known, Poll.read after known ∈ recovery →
      known = [0, 1] ∧ ∀ partition, fiveMessages.of partition ≤ after.of partition := by
    intro after known hread
    simp only [recovery, List.mem_cons, Poll.read.injEq, reduceCtorEq, List.not_mem_nil, false_or,
      or_false] at hread
    rcases hread with ⟨rfl, rfl⟩ | ⟨rfl, rfl⟩ | ⟨rfl, rfl⟩
    · exact ⟨rfl, fun _ => Nat.le_refl 5⟩
    · exact ⟨rfl, fun _ => (by decide : 5 ≤ 7)⟩
    · exact ⟨rfl, fun _ => (by decide : 5 ≤ 9)⟩
  have h := @run_of_sameOffsets recovered fiveMessages [0, 1] recovery rfl rfl hgrows
  have hpassed : (run recovered).passed = true := h.1.mpr ⟨rfl, rfl, sevenMessages,
    List.mem_cons_of_mem _ (List.mem_cons_of_mem _ List.mem_cons_self), 0, List.mem_cons_self,
    (by decide : 5 < 7)⟩
  exact ⟨hpassed, h.2 hpassed⟩

/-- **A partition that is missed at first makes up for it.** The end offsets stay as they are, the
first reading has missed some partitions, and so have the polls that succeed, until one poll reads
them too. Where the two commands succeed and one of the missed partitions holds a message, the
scenario passes with this poll though nothing has been delivered, whatever the polls after it
find; and it reports all that the missed partitions hold. -/
theorem run_of_missed {found : Findings} {offsets : EndOffsets} {seen missed known : List ℕ}
    {quiet : List Poll} {rest : List CompletedProcess}
    (hbefore : found.before = offsets.shell seen)
    (hpolls : found.polls = quiet.map Poll.result ++ offsets.shell known :: rest)
    (hquiet : ∀ after partitions, Poll.read after partitions ∈ quiet →
      after = offsets ∧ partitions.Sublist seen)
    (hknown : known.Perm (seen ++ missed))
    (hstop : found.stop.ok = true) (hstart : found.start.ok = true)
    (hheld : ∃ partition ∈ missed, 0 < offsets.of partition) :
    (run found).passed = true ∧
      (run found).metrics.messagesDeliveredAfterCrash = some (offsets.total missed : ℤ) := by
  have hoffset : getKafkaOffset found.before = offsets.total seen := by
    rw [hbefore, offsets.getKafkaOffset_shell]
  have hread : 0 ≤ getKafkaOffset found.before := by
    rw [hoffset]
    exact Int.natCast_nonneg _
  have htotal : offsets.total known = offsets.total seen + offsets.total missed := by
    rw [EndOffsets.total, (hknown.map _).sum_eq, List.map_append, List.sum_append]
    rfl
  have hpos : 0 < offsets.total missed := by
    obtain ⟨partition, hmissed, hpos⟩ := hheld
    exact hpos.trans_le (List.single_le_sum (fun _ _ => Nat.zero_le _) _
      (List.mem_map_of_mem hmissed))
  have hmore : getKafkaOffset found.before < getKafkaOffset (offsets.shell known) := by
    rw [hoffset, offsets.getKafkaOffset_shell, htotal]
    omega
  have hless : ∀ q ∈ quiet.map Poll.result, getKafkaOffset q ≤ getKafkaOffset found.before := by
    intro q hq
    obtain ⟨poll, hpoll, rfl⟩ := List.mem_map.mp hq
    rw [hoffset, ← not_lt, lt_getKafkaOffset_result_iff]
    rintro ⟨after, partitions, rfl, hlt⟩
    obtain ⟨rfl, hsub⟩ := hquiet after partitions hpoll
    exact absurd hlt (not_lt.mpr ((hsub.map _).sum_le_sum fun _ _ => Nat.zero_le _))
  obtain ⟨hpassed, hdelivered⟩ := run_of_grown hread hpolls hless hmore
  refine ⟨hpassed.mpr ⟨hstop, hstart⟩, ?_⟩
  rw [hdelivered, hoffset, offsets.getKafkaOffset_shell, htotal]
  exact congrArg some (by omega)

/-- Of two partitions the first is missed at first, and by a poll; the shell fails once; then both
are read, and a later poll finds more. -/
def missedOne : Findings where
  before := fiveMessages.shell [1]
  stop := ⟨0, []⟩
  buffer := ⟨0, []⟩
  start := ⟨0, []⟩
  polls := [Poll.read fiveMessages [1], .failed ⟨1, []⟩ rfl].map Poll.result
    ++ fiveMessages.shell [0, 1] :: [nineMessages.shell [0, 1]]
  last := ⟨1, []⟩

theorem run_of_missed_one :
    (run missedOne).passed = true ∧
      (run missedOne).metrics.messagesDeliveredAfterCrash = some 5 := by
  refine @run_of_missed missedOne fiveMessages [1] [0] [0, 1] _ _ rfl rfl ?_
    (List.Perm.swap 1 0 []) rfl rfl ⟨0, List.mem_cons_self, (by decide : 0 < 5)⟩
  intro after partitions hread
  simp only [List.mem_cons, Poll.read.injEq, reduceCtorEq, List.not_mem_nil, or_false] at hread
  obtain ⟨rfl, rfl⟩ := hread
  exact ⟨rfl, List.Sublist.refl _⟩

end FluentdCrash

end AiopsLog
