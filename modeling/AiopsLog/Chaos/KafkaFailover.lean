import AiopsLog.Numerals
import AiopsLog.Lib.Rounding
import Mathlib.Data.List.Infix

/-!
# The failover of a Kafka controller

The scenario kills the broker that is the controller, waits for another one, starts the
killed broker again and polls the description of the topic until the broker has rejoined the
in-sync replicas.

The poll looks for the broker's number anywhere in the description. The description names
the brokers a partition is *assigned* to before those that are in sync, and numbers its
partitions besides; so the number is almost always found. The check reads what it is meant to
read where the broker is in some in-sync list, or else is not named at all
(`AiopsLog.KafkaFailover.Describe.Unnamed`): the number stands nowhere in the header, for no
partition, no leader and no replica.
-/

namespace AiopsLog

namespace KafkaFailover

/-! ### The brokers -/

/-- The keys of `BROKERS`. -/
inductive Broker where
  | kafka1 : Broker
  | kafka2 : Broker
  | kafka3 : Broker
  deriving DecidableEq

/-- The name of the container. -/
def Broker.container : Broker → Text
  | .kafka1 => "kafka-1".toList
  | .kafka2 => "kafka-2".toList
  | .kafka3 => "kafka-3".toList

/-- `int(killed_container.split("-")[1])`, the node ID of the broker. -/
def Broker.nodeId : Broker → ℕ
  | .kafka1 => 1
  | .kafka2 => 2
  | .kafka3 => 3

/-- `ALL_CONTAINERS`. -/
def allContainers : List Broker := [.kafka1, .kafka2, .kafka3]

/-- `_node_id_to_container`. -/
def nodeIdToContainer : ℕ → Option Broker
  | 1 => some .kafka1
  | 2 => some .kafka2
  | 3 => some .kafka3
  | _ => none

/-- The node ID is what stands behind the dash. -/
theorem container_splitOn (broker : Broker) :
    broker.container.splitOn '-' = ["kafka".toList, decimal broker.nodeId] := by
  cases broker <;> decide

/-! ### The checks -/

/-- `KAFKA_TOPIC`. -/
def kafkaTopic : Text := "system-logs".toList

/-- `_topic_readable`. -/
def topicReadable (result : CompletedProcess) : Bool := result.ok && !isBlank result.stdout

/-- `_broker_rejoined`, of the output of `kafka-topics --describe`. -/
def brokerRejoined (killed : Broker) (result : CompletedProcess) : Bool :=
  if result.ok then decimal killed.nodeId <:+: result.stdout else false

/-- The containers to ask once one is killed. -/
def survivors (killed : Option Broker) : List Broker :=
  allContainers.filter fun container => some container ≠ killed

/-- The `rejoined` of the loop that polls until its deadline. Without a container to wait for,
a poll that succeeds ends in an exception, as `None` has no `split`. -/
def pollRejoined (killed : Option Broker) : List CompletedProcess → Option Bool
  | [] => some false
  | result :: polls =>
    if (survivors killed).isEmpty then pollRejoined killed polls
    else match killed with
      | some broker =>
        if brokerRejoined broker result then some true else pollRejoined killed polls
      | none => if result.ok then none else pollRejoined killed polls

/-! ### The report -/

/-- The `checks` of `run`. -/
structure Checks where
  controllerIdentified : Bool
  controllerKilled : Bool
  newControllerElected : Bool
  topicReadableAfterFailover : Bool
  killedBrokerRejoined : Bool

/-- `all(checks.values())`. -/
def Checks.all (checks : Checks) : Bool :=
  checks.controllerIdentified && checks.controllerKilled && checks.newControllerElected &&
    checks.topicReadableAfterFailover && checks.killedBrokerRejoined

/-- The `metrics` of `run`; a key that is not set, or is set to `None`, is none. -/
structure Metrics where
  killedControllerNode : Option ℕ
  killedContainer : Option Text
  electionTimeS : Option ℚ
  newControllerNode : Option ℕ

structure Report where
  passed : Bool
  checks : Checks
  metrics : Metrics

/-- What the scenario finds, in its order. -/
structure Findings where
  /-- The first `_get_controller_id()`. -/
  controllerId : Option ℕ
  kill : CompletedProcess
  /-- The rounds of the wait for an election: the time since the kill, and
  `_get_controller_id()`. -/
  elections : List (ℚ × Option ℕ)
  consumer : CompletedProcess
  /-- The descriptions polled until the deadline of the rejoin. -/
  polls : List CompletedProcess

/-- The `killed_container`, none where the node ID is no broker's. -/
def killedContainer : Option ℕ → Option Broker
  | some controllerId => nodeIdToContainer controllerId
  | none => some .kafka1

/-- A round of the wait that ends it. -/
def elected (killed : Option Broker) : ℚ × Option ℕ → Option (ℚ × ℕ)
  | (tElect, some newId) =>
    if nodeIdToContainer newId ≠ killed then some (tElect, newId) else none
  | (_, none) => none

/-- `run`; none where it raises. -/
def run (found : Findings) : Option Report := do
  let killed := killedContainer found.controllerId
  let election := found.elections.findSome? (elected killed)
  let rejoined ← pollRejoined killed found.polls
  let checks : Checks := {
    controllerIdentified := true
    controllerKilled := found.kill.ok
    newControllerElected := election.isSome
    topicReadableAfterFailover :=
      !(survivors killed).isEmpty && topicReadable found.consumer
    killedBrokerRejoined := rejoined }
  return {
    passed := checks.all
    checks := checks
    metrics := {
      killedControllerNode := found.controllerId
      killedContainer := match found.controllerId with
        | some _ => killed.map Broker.container
        | none => some "kafka-1 (fallback)".toList
      electionTimeS := election.map fun (tElect, _) =>
        Rounding.toDigits Rounding.halfEven 2 tElect
      newControllerNode := election.map fun (_, newId) => newId } }

/-! ### The description of a topic -/

/-- A line of the description: a partition, the broker that leads it if there is one, those
it is assigned to, and those of them that are in sync. -/
structure PartitionLine where
  partition : ℕ
  leader : Option Broker
  replicas : List Broker
  isr : List Broker
  isr_subset : isr ⊆ replicas

/-- Node IDs, separated by commas. -/
def nodeIds (brokers : List Broker) : Text :=
  [','].intercalate (brokers.map fun broker => decimal broker.nodeId)

/-- The node ID of a leader. -/
def leaderId : Option Broker → Text
  | some broker => decimal broker.nodeId
  | none => "none".toList

namespace PartitionLine

variable (line : PartitionLine)

/-- The fields, in their order. -/
def fields : List (Text × Text) :=
  [("Topic: ".toList, kafkaTopic), ("Partition: ".toList, decimal line.partition),
    ("Leader: ".toList, leaderId line.leader),
    ("Replicas: ".toList, nodeIds line.replicas), ("Isr: ".toList, nodeIds line.isr)]

/-- The line, a tab before each field. -/
def text : Text := line.fields.flatMap fun (label, value) => '\t' :: (label ++ value)

end PartitionLine

/-- The output of `kafka-topics --describe --topic system-logs`: a header, with the
configuration of the topic, and a line for each partition. -/
structure Describe where
  header : Text
  partitions : List PartitionLine

namespace Describe

variable (describe : Describe)

/-- The output of the command where it succeeds. -/
def result : CompletedProcess :=
  ⟨0, Lines.unlines '\n' (describe.header :: describe.partitions.map PartitionLine.text)⟩

/-- The broker is in sync for some partition. -/
def InIsr (broker : Broker) : Prop := ∃ line ∈ describe.partitions, broker ∈ line.isr

/-- The number of the broker stands nowhere: neither in the header nor in the number of a
partition, and the broker leads none and is assigned to none. -/
def Unnamed (broker : Broker) : Prop :=
  ¬decimal broker.nodeId <:+: describe.header ∧ ∀ line ∈ describe.partitions,
    ¬decimal broker.nodeId <:+: decimal line.partition ∧ line.leader ≠ some broker ∧
      broker ∉ line.replicas

end Describe

/-! ### What the poll finds -/

/-- The digit that is the number of the broker. -/
def Broker.digit : Broker → Char
  | .kafka1 => '1'
  | .kafka2 => '2'
  | .kafka3 => '3'

theorem decimal_nodeId (broker : Broker) : decimal broker.nodeId = [broker.digit] := by
  cases broker <;> rfl

theorem infix_iff (broker : Broker) (text : Text) :
    decimal broker.nodeId <:+: text ↔ broker.digit ∈ text := by
  rw [decimal_nodeId]
  exact List.singleton_infix_iff _ _

theorem digit_ne {broker : Broker} {c : Char} (h : c.isDigit = false) : broker.digit ≠ c := by
  rintro rfl
  cases broker <;> exact absurd h (by decide)

/-- No label contains a number. -/
theorem digit_not_mem_label (broker : Broker) (line : PartitionLine) :
    ∀ field ∈ line.fields, broker.digit ∉ field.1 := by
  simp only [PartitionLine.fields, List.forall_mem_cons]
  refine ⟨?_, ?_, ?_, ?_, ?_, fun _ hmem => absurd hmem List.not_mem_nil⟩ <;>
    cases broker <;> decide

theorem digit_mem_nodeIds_iff (broker : Broker) (brokers : List Broker) :
    broker.digit ∈ nodeIds brokers ↔ broker ∈ brokers := by
  have hdigit : ∀ other : Broker, broker.digit = other.digit ↔ broker = other := by
    intro other
    cases broker <;> cases other <;> decide
  rw [nodeIds, Lines.mem_intercalate_iff ',' (digit_ne rfl)]
  constructor
  · rintro ⟨id, hid, hmem⟩
    obtain ⟨other, hother, rfl⟩ := List.mem_map.mp hid
    rw [decimal_nodeId, List.mem_singleton] at hmem
    rwa [(hdigit other).mp hmem]
  · intro hmem
    refine ⟨_, List.mem_map_of_mem hmem, ?_⟩
    rw [decimal_nodeId]
    exact List.mem_singleton_self _

theorem digit_mem_leaderId_iff (broker : Broker) (leader : Option Broker) :
    broker.digit ∈ leaderId leader ↔ leader = some broker := by
  rcases leader with _ | other
  · cases broker <;> decide
  · cases broker <;> cases other <;> decide

/-- **What names a broker in a line**: the number of the partition, that it leads it, or that
it is assigned to it. -/
theorem digit_mem_text_iff (broker : Broker) (line : PartitionLine) :
    broker.digit ∈ line.text ↔
      broker.digit ∈ decimal line.partition ∨ line.leader = some broker ∨
        broker ∈ line.replicas := by
  have htopic : broker.digit ∉ kafkaTopic := by cases broker <;> decide
  have hvalue : broker.digit ∈ line.text ↔ ∃ field ∈ line.fields, broker.digit ∈ field.2 := by
    rw [PartitionLine.text, List.mem_flatMap]
    refine exists_congr fun field => and_congr_right fun hfield => ?_
    rw [List.mem_cons, or_iff_right (digit_ne rfl), List.mem_append,
      or_iff_right (digit_not_mem_label broker line field hfield)]
  rw [hvalue, PartitionLine.fields, List.exists_mem_cons_iff, or_iff_right htopic,
    List.exists_mem_cons_iff, List.exists_mem_cons_iff, digit_mem_leaderId_iff,
    List.exists_mem_cons_iff, digit_mem_nodeIds_iff, List.exists_mem_cons_iff,
    digit_mem_nodeIds_iff]
  constructor
  · rintro (hpartition | hleader | hreplica | hisr | ⟨_, hmem, -⟩)
    · exact Or.inl hpartition
    · exact Or.inr (Or.inl hleader)
    · exact Or.inr (Or.inr hreplica)
    · exact Or.inr (Or.inr (line.isr_subset hisr))
    · exact absurd hmem List.not_mem_nil
  · rintro (hpartition | hleader | hreplica)
    · exact Or.inl hpartition
    · exact Or.inr (Or.inl hleader)
    · exact Or.inr (Or.inr (Or.inl hreplica))

/-- **The poll returns false where the broker is not named, and only there.** -/
theorem brokerRejoined_eq_false_iff (broker : Broker) (describe : Describe) :
    brokerRejoined broker describe.result = false ↔ describe.Unnamed broker := by
  have hfound : brokerRejoined broker describe.result
      = decide (decimal broker.nodeId <:+: describe.result.stdout) := rfl
  rw [hfound, decide_eq_false_iff_not, infix_iff, Describe.result, 
    Lines.mem_unlines_iff '\n' (digit_ne rfl), Describe.Unnamed, infix_iff]
  constructor
  · intro h
    refine ⟨fun hheader => h ⟨_, List.mem_cons_self, hheader⟩, fun line hline => ?_⟩
    have hline : ¬broker.digit ∈ line.text := fun hmem =>
      h ⟨_, List.mem_cons_of_mem _ (List.mem_map_of_mem hline), hmem⟩
    rw [digit_mem_text_iff, not_or, not_or] at hline
    rwa [infix_iff]
  · rintro ⟨hheader, hlines⟩ ⟨text, htext, hmem⟩
    rcases List.mem_cons.mp htext with rfl | htext
    · exact hheader hmem
    · obtain ⟨line, hline, rfl⟩ := List.mem_map.mp htext
      obtain ⟨hpartition, hleader, hreplica⟩ := hlines line hline
      rw [infix_iff] at hpartition
      rcases (digit_mem_text_iff broker line).mp hmem with h | h | h
      · exact hpartition h
      · exact hleader h
      · exact hreplica h

/-- **A broker that a partition is assigned to is always found**, in sync or not. -/
theorem brokerRejoined_of_mem_replicas {broker : Broker} {describe : Describe}
    {line : PartitionLine} (hline : line ∈ describe.partitions) (h : broker ∈ line.replicas) :
    brokerRejoined broker describe.result = true := by
  by_contra hlost
  have hunnamed := (brokerRejoined_eq_false_iff broker describe).mp (Bool.eq_false_iff.mpr hlost)
  exact (hunnamed.2 line hline).2.2 h

/-- The poll reads the in-sync lists of this description. -/
def ReadsIsr (broker : Broker) (describe : Describe) : Prop :=
  brokerRejoined broker describe.result = true → describe.InIsr broker

theorem readsIsr_iff (broker : Broker) (describe : Describe) :
    ReadsIsr broker describe ↔ describe.InIsr broker ∨ describe.Unnamed broker := by
  rw [ReadsIsr, ← brokerRejoined_eq_false_iff, ← Bool.not_eq_true]
  constructor
  · intro h
    by_cases hfound : brokerRejoined broker describe.result = true
    · exact Or.inl (h hfound)
    · exact Or.inr hfound
  · rintro (hisr | hfound) hreturned
    · exact hisr
    · exact absurd hreturned hfound

theorem pollRejoined_cons {broker : Broker} {result : CompletedProcess}
    (h : brokerRejoined broker result = true) (polls : List CompletedProcess) :
    pollRejoined (some broker) (result :: polls) = some true := by
  have hsurvivors : ¬(survivors (some broker)).isEmpty = true := by cases broker <;> decide
  rw [pollRejoined, if_neg hsurvivors]
  exact if_pos h

/-- **The poll that ends the wait** is the first that finds the broker. -/
theorem exists_of_pollRejoined {broker : Broker} {polls : List CompletedProcess}
    (h : pollRejoined (some broker) polls = some true) :
    ∃ before result after, polls = before ++ result :: after ∧
      (∀ earlier ∈ before, brokerRejoined broker earlier = false) ∧
      brokerRejoined broker result = true := by
  induction polls with
  | nil => exact absurd (Option.some.inj h) Bool.false_ne_true
  | cons result polls ih =>
    rw [pollRejoined] at h
    split at h
    · next hempty => cases broker <;> exact absurd hempty (by decide)
    · split at h
      · next hfound =>
        exact ⟨[], result, polls, rfl, fun _ hmem => absurd hmem List.not_mem_nil, hfound⟩
      · next hfound =>
        obtain ⟨before, found, after, rfl, hbefore, hends⟩ := ih h
        refine ⟨result :: before, found, after, rfl, ?_, hends⟩
        rintro earlier (_ | ⟨_, hmem⟩)
        · exact Bool.eq_false_iff.mpr hfound
        · exact hbefore earlier hmem

/-- The check of a scenario is what the loop returns. -/
theorem run_killedBrokerRejoined (found : Findings) :
    (run found).map (·.checks.killedBrokerRejoined)
      = pollRejoined (killedContainer found.controllerId) found.polls := by
  rw [run]
  cases pollRejoined (killedContainer found.controllerId) found.polls <;> rfl

/-- **What the check on the rejoin is worth**: the poll reads the in-sync lists of a
description exactly where the broker is in one of them, or is not named at all. A scenario
all of whose descriptions are such sets the check only by one in which the broker is in
sync. -/
theorem killedBrokerRejoined_reads_isr (broker : Broker) :
    (∀ describe, ReadsIsr broker describe ↔ describe.InIsr broker ∨ describe.Unnamed broker) ∧
    ∀ found report, killedContainer found.controllerId = some broker →
      (∀ result ∈ found.polls, result.ok = true → ∃ describe : Describe,
        result.stdout = describe.result.stdout ∧
          (describe.InIsr broker ∨ describe.Unnamed broker)) →
      run found = some report → report.checks.killedBrokerRejoined = true →
      ∃ (before : List CompletedProcess) (describe : Describe) (after : List CompletedProcess),
        found.polls = before ++ describe.result :: after ∧
        (∀ earlier ∈ before, brokerRejoined broker earlier = false) ∧ describe.InIsr broker := by
  refine ⟨readsIsr_iff broker, ?_⟩
  intro found report hkilled hpolls hrun hrejoined
  have hpoll := run_killedBrokerRejoined found
  rw [hrun, Option.map_some, hkilled, hrejoined] at hpoll
  obtain ⟨before, result, after, hsplit, hbefore, hends⟩ := exists_of_pollRejoined hpoll.symm
  have hok : result.ok = true := by
    by_contra hfailed
    rw [brokerRejoined, if_neg hfailed] at hends
    exact Bool.false_ne_true hends
  obtain ⟨describe, hstdout, hcond⟩ := hpolls result
    (hsplit ▸ List.mem_append_right _ List.mem_cons_self) hok
  have hresult : result = describe.result := by
    obtain ⟨returncode, stdout⟩ := result
    obtain rfl : returncode = 0 := of_decide_eq_true hok
    exact congrArg _ hstdout
  rw [hresult] at hsplit hends
  exact ⟨before, describe, after, hsplit, hbefore, (readsIsr_iff broker describe).mpr hcond hends⟩

/-- A topic of one partition, which all brokers replicate. -/
def described (isr : List Broker) (h : isr ⊆ allContainers) : Describe where
  header := "Topic: system-logs\tPartitionCount: 1\tReplicationFactor: 3".toList
  partitions := [⟨0, some .kafka2, allContainers, isr, h⟩]

/-- Its first broker is killed, and back at the first poll. -/
def foundBack : Findings where
  controllerId := some 1
  kill := ⟨0, []⟩
  elections := [(10, some 2)]
  consumer := ⟨0, ['x']⟩
  polls := [(described allContainers (List.Subset.refl _)).result]

theorem brokerRejoined_described (isr : List Broker) (h : isr ⊆ allContainers) :
    brokerRejoined .kafka1 (described isr h).result = true :=
  brokerRejoined_of_mem_replicas (List.mem_singleton_self _) List.mem_cons_self

theorem run_foundBack :
    (run foundBack).map (·.checks.killedBrokerRejoined) = some true := by
  rw [run_killedBrokerRejoined]
  exact pollRejoined_cons (brokerRejoined_described _ _) []

/-- A scenario at whose end the killed broker is in sync. -/
theorem killedBrokerRejoined_reads_isr_foundBack :
    (run foundBack).map (·.checks.killedBrokerRejoined) = some true ∧
    ∃ (before : List CompletedProcess) (describe : Describe) (after : List CompletedProcess),
      foundBack.polls = before ++ describe.result :: after ∧
      (∀ earlier ∈ before, brokerRejoined .kafka1 earlier = false) ∧
      describe.InIsr .kafka1 := by
  obtain ⟨report, hrun, hrejoined⟩ := Option.map_eq_some_iff.mp run_foundBack
  refine ⟨run_foundBack, ?_⟩
  refine (killedBrokerRejoined_reads_isr .kafka1).2 foundBack report rfl ?_ hrun hrejoined
  intro result hresult _
  obtain rfl := List.mem_singleton.mp hresult
  exact ⟨_, rfl, Or.inl ⟨_, List.mem_singleton_self _, List.mem_cons_self⟩⟩

/-- The partition is assigned to the first broker, which is not in sync. -/
theorem kafka1_found_out_of_sync :
    brokerRejoined .kafka1
        (described [.kafka2, .kafka3] (List.subset_cons_self _ _)).result = true ∧
      ¬(described [.kafka2, .kafka3] (List.subset_cons_self _ _)).InIsr .kafka1 := by
  refine ⟨brokerRejoined_described _ _, ?_⟩
  rintro ⟨line, hline, hmem⟩
  obtain rfl := List.mem_singleton.mp hline
  exact absurd hmem (by decide)

end KafkaFailover

end AiopsLog
