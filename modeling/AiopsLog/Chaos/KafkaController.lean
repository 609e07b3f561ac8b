import AiopsLog.Chaos.KafkaFailover
import AiopsLog.Numerals

/-!
# The controller, as the scenario finds it

Whom to kill, and whether there is a new controller, is read off what
`kafka-metadata-quorum describe --status` prints in the first container that answers: the first
number in a line with `LeaderId` in it.

Of a status this is the leader, whatever its other lines say – but without its sign. A quorum
that has no leader gives its ID as `-1`, which is read as the first broker; so while an election
is under way that broker passes for the new controller, unless it is the one that was killed
(`AiopsLog.KafkaFailover.leader_killed_and_replaced`).
-/

namespace AiopsLog

namespace KafkaFailover

/-! ### Reading the status -/

section Read

-- `str.lower`
variable (lower : Text → Text)

/-- `"LeaderId" in line or "leaderId" in line.lower()`. -/
def namesLeader (line : Text) : Bool :=
  "LeaderId".toList <:+: line ∨ "leaderId".toList <:+: lower line

/-- The loop over the lines, none where `int` raises. -/
def leaderIn : List Text → Option (Option ℤ)
  | [] => some none
  | line :: lines =>
    if namesLeader lower line then
      match searchDigits line with
      | some digits => (int digits).map some
      | none => leaderIn lines
    else leaderIn lines

/-- `_get_controller_id`, of what the containers answer in their order. -/
def getControllerId : List CompletedProcess → Option (Option ℤ)
  | [] => some none
  | result :: results =>
    if result.ok then
      match leaderIn lower (splitlines result.stdout) with
      | some none => getControllerId results
      | found => found
    else getControllerId results

end Read

/-! ### What a status says -/

/-- A number with its sign. -/
def signed : ℤ → Text
  | .ofNat n => decimal n
  | .negSucc n => '-' :: decimal (n + 1)

/-- The status of the quorum: the cluster, its leader, and further lines. -/
structure QuorumStatus where
  clusterId : Text
  leaderId : ℤ
  further : List Text
  clusterId_line : ∀ c ∈ clusterId, isLineBoundary c = false
  clusterId_other : ¬"LeaderId".toList <:+: clusterId
  leaderId_lt : leaderId.natAbs < 2 ^ 32

namespace QuorumStatus

variable (status : QuorumStatus)

/-- The line of the cluster. -/
def clusterLine : Text := "ClusterId:              ".toList ++ status.clusterId

/-- The line of the leader. -/
def leaderLine : Text := "LeaderId:               ".toList ++ signed status.leaderId

/-- What is printed. -/
def stdout : Text :=
  Lines.unlines '\n' [status.clusterLine, status.leaderLine]
    ++ Lines.unlines '\n' status.further

end QuorumStatus

/-- What a container answers: the command fails, or it prints a status. -/
inductive Answer where
  | failed : (result : CompletedProcess) → result.ok = false → Answer
  | answered : QuorumStatus → Answer

namespace Answer

/-- What the command returns. -/
def result : Answer → CompletedProcess
  | .failed result _ => result
  | .answered status => ⟨0, status.stdout⟩

/-- The leader it names. -/
def leaderId : Answer → Option ℤ
  | .failed _ _ => none
  | .answered status => some status.leaderId

end Answer

/-- The leader that is named first. -/
def leaderOf (answers : List Answer) : Option ℤ := answers.findSome? Answer.leaderId

/-! ### The first number of the line -/

/-- The first number of a line is read without its sign. -/
theorem searchDigits_signed {label : Text} (h : ∀ c ∈ label, isDecimal c = false) (n : ℤ) :
    searchDigits (label ++ signed n) = some (decimal n.natAbs) := by
  rcases n with n | n
  · exact searchDigits_append h n
  · have hsign : ∀ c ∈ label ++ ['-'], isDecimal c = false := by
      intro c hc
      rcases List.mem_append.mp hc with hc | hc
      · exact h c hc
      · rw [List.mem_singleton.mp hc]
        exact not_isDecimal_of_ascii (by decide) rfl
    have hfound := searchDigits_append hsign (n + 1)
    rwa [List.append_assoc] at hfound

theorem searchDigits_leaderLine (status : QuorumStatus) :
    searchDigits status.leaderLine = some (decimal status.leaderId.natAbs) := by
  refine searchDigits_signed (fun c hc => ?_) status.leaderId
  have hascii : "LeaderId:               ".toList.all
      (fun c => decide (c.toNat < 128 ∧ c.isDigit = false)) = true := by
    decide
  have hc := of_decide_eq_true (List.all_eq_true.mp hascii c hc)
  exact not_isDecimal_of_ascii hc.1 hc.2

theorem not_isLineBoundary_signed (n : ℤ) : ∀ c ∈ signed n, isLineBoundary c = false := by
  have hdecimal : ∀ n, ∀ c ∈ decimal n, isLineBoundary c = false := by
    intro n c hc
    by_contra hboundary
    rw [Bool.not_eq_false] at hboundary
    have hspace := isPythonSpace_of_isDigit (isDigit_of_mem_decimal hc)
    exact Bool.false_ne_true (hspace.symm.trans (isPythonSpace_of_isLineBoundary hboundary))
  rcases n with n | n
  · exact hdecimal n
  · intro c hc
    rcases List.mem_cons.mp hc with rfl | hc
    · rfl
    · exact hdecimal _ c hc

/-- The lines of a status are read as they were written. -/
theorem splitlines_stdout (status : QuorumStatus) :
    splitlines status.stdout = status.clusterLine :: status.leaderLine ::
      splitlines (Lines.unlines '\n' status.further) := by
  have hcluster : "ClusterId:              ".toList.all (isLineBoundary · == false) = true := by
    decide
  have hleader : "LeaderId:               ".toList.all (isLineBoundary · == false) = true := by
    decide
  rw [QuorumStatus.stdout, splitlines_unlines_append]
  · rfl
  · rintro line (_ | ⟨_, _ | ⟨_, hnone⟩⟩) c hc
    · refine (List.mem_append.mp hc).elim (fun hc => ?_) (status.clusterId_line c)
      exact eq_of_beq (List.all_eq_true.mp hcluster c hc)
    · refine (List.mem_append.mp hc).elim (fun hc => ?_) (not_isLineBoundary_signed _ c)
      exact eq_of_beq (List.all_eq_true.mp hleader c hc)
    · exact absurd hnone List.not_mem_nil

/-! ### The lines that name a leader -/

/-- What begins with a character that is not in front is behind it. -/
theorem infix_of_not_mem {x : Char} {word front text : Text} (hx : x ∉ front)
    (h : x :: word <:+: front ++ text) : x :: word <:+: text := by
  induction front with
  | nil => exact h
  | cons y front ih =>
    rcases List.infix_cons_iff.mp h with hprefix | hinfix
    · obtain rfl := (List.cons_prefix_cons.mp hprefix).1
      exact absurd List.mem_cons_self hx
    · exact ih (fun hmem => hx (List.mem_cons_of_mem _ hmem)) hinfix

section Lower

variable {lower : Text → Text} (hlower : ∀ text, 'I' ∉ lower text)

include hlower

/-- **The second test never holds**: nothing in lower case has the capital it looks for. -/
theorem namesLeader_iff (line : Text) :
    namesLeader lower line = true ↔ "LeaderId".toList <:+: line := by
  have hcapital : 'I' ∈ "leaderId".toList := by decide
  have hnever : ¬"leaderId".toList <:+: lower line := fun hin =>
    hlower line (hin.subset hcapital)
  constructor
  · intro hnames
    exact (of_decide_eq_true hnames).resolve_right hnever
  · intro hinfix
    exact decide_eq_true (Or.inl hinfix)

theorem namesLeader_clusterLine (status : QuorumStatus) :
    namesLeader lower status.clusterLine = false := by
  have hhead : "LeaderId".toList = 'L' :: "eaderId".toList := by decide
  have hlabel : 'L' ∉ "ClusterId:              ".toList := by decide
  have hother := status.clusterId_other
  rw [Bool.eq_false_iff, Ne, namesLeader_iff hlower]
  rw [hhead] at hother ⊢
  exact fun hinfix => hother (infix_of_not_mem hlabel hinfix)

theorem namesLeader_leaderLine (status : QuorumStatus) :
    namesLeader lower status.leaderLine = true := by
  rw [namesLeader_iff hlower]
  have hlabel : "LeaderId".toList <+: "LeaderId:               ".toList := by decide
  exact (hlabel.trans (List.prefix_append _ _)).isInfix

/-- What is read off a status. -/
theorem leaderIn_stdout (status : QuorumStatus) :
    leaderIn lower (splitlines status.stdout) = some (some (status.leaderId.natAbs : ℤ)) := by
  rw [splitlines_stdout, leaderIn, namesLeader_clusterLine hlower, leaderIn,
    namesLeader_leaderLine hlower, searchDigits_leaderLine]
  simp only [int_decimal_of_lt status.leaderId_lt (by decide)]
  rfl

/-- **What is found** is the leader that is named first, without its sign. -/
theorem getControllerId_answers (answers : List Answer) :
    getControllerId lower (answers.map Answer.result)
      = some ((leaderOf answers).map fun n => (n.natAbs : ℤ)) := by
  induction answers with
  | nil => rfl
  | cons answer answers ih =>
    rw [List.map_cons, getControllerId]
    cases answer with
    | failed result h =>
      rw [Answer.result, if_neg (h.trans_ne Bool.false_ne_true)]
      exact ih
    | answered status =>
      have hok : (Answer.answered status).result.ok = true := rfl
      rw [if_pos hok, Answer.result, leaderIn_stdout hlower]
      rfl

end Lower

/-! ### The election -/

/-- The `controller_id` of an inquiry. -/
def controllerId (answers : List Answer) : Option ℕ := (leaderOf answers).map Int.natAbs

theorem nodeIdToContainer_eq_iff (broker : Broker) (n : ℕ) :
    nodeIdToContainer n = some broker ↔ n = broker.nodeId := by
  rw [nodeIdToContainer.eq_def]
  split <;> cases broker <;> simp_all [Broker.nodeId]

/-- **Whom the scenario kills, and what it takes for a successor.** In the first inquiry and in
each round of the wait, what is found is the leader that is named first, without its sign. Where
that is a broker at first, the broker is killed; and a new controller is found exactly if in some
round another number is named first, be it the `-1` of a quorum that has no leader. -/
theorem leader_killed_and_replaced {lower : Text → Text} (hlower : ∀ text, 'I' ∉ lower text) :
    (∀ answers : List Answer, getControllerId lower (answers.map Answer.result)
      = some ((controllerId answers).map Int.ofNat)) ∧
    ∀ (found : Findings) (initial : List Answer) (rounds : List (ℚ × List Answer))
      (broker : Broker) (report : Report),
      found.controllerId = controllerId initial →
      found.elections = rounds.map (fun (t, answers) => (t, controllerId answers)) →
      leaderOf initial = some (broker.nodeId : ℤ) → run found = some report →
      report.metrics.killedContainer = some broker.container ∧
        (report.checks.newControllerElected = true ↔
          ∃ round ∈ rounds, ∃ n, leaderOf round.2 = some n ∧ n.natAbs ≠ broker.nodeId) := by
  refine ⟨fun answers => ?_, ?_⟩
  · rw [getControllerId_answers hlower, controllerId, Option.map_map]
    rfl
  · intro found initial rounds broker report hinitial hrounds hleader hrun
    have hfound : found.controllerId = some broker.nodeId := by
      rw [hinitial, controllerId, hleader]
      rfl
    have hkilled : killedContainer found.controllerId = some broker := by
      rw [hfound, killedContainer, nodeIdToContainer_eq_iff]
    have hround : ∀ t answers, (elected (some broker) (t, controllerId answers)).isSome = true ↔
        ∃ n, leaderOf answers = some n ∧ n.natAbs ≠ broker.nodeId := by
      intro t answers
      rw [controllerId]
      rcases leaderOf answers with _ | n
      · exact iff_of_false Bool.false_ne_true fun ⟨n, hn, _⟩ => Option.some_ne_none n hn.symm
      · rw [Option.map_some, elected]
        by_cases hn : n.natAbs = broker.nodeId
        · rw [if_neg fun hne => hne ((nodeIdToContainer_eq_iff broker _).mpr hn)]
          exact iff_of_false Bool.false_ne_true
            fun ⟨m, hm, hne⟩ => hne (Option.some.inj hm ▸ hn)
        · rw [if_pos fun heq => hn ((nodeIdToContainer_eq_iff broker _).mp heq)]
          exact iff_of_true rfl ⟨n, rfl, hn⟩
    obtain ⟨rejoined, -, hreport⟩ := Option.bind_eq_some_iff.mp hrun
    obtain rfl := Option.some.inj hreport
    refine ⟨?_, ?_⟩
    · dsimp only
      rw [hkilled, hfound]
      rfl
    · show (found.elections.findSome?
        (elected (killedContainer found.controllerId))).isSome = true ↔ _
      rw [hkilled, hrounds, List.findSome?_map, List.findSome?_isSome_iff]
      constructor
      · rintro ⟨⟨t, answers⟩, hmem, helected⟩
        exact ⟨(t, answers), hmem, (hround t answers).mp helected⟩
      · rintro ⟨⟨t, answers⟩, hmem, hleader⟩
        exact ⟨(t, answers), hmem, (hround t answers).mpr hleader⟩

/-! ### A quorum without a leader -/

theorem line_of_cluster : ∀ c ∈ "MkU3OEVBNTcwNTJENDM2Qg".toList, isLineBoundary c = false := by
  have hcluster : "MkU3OEVBNTcwNTJENDM2Qg".toList.all (isLineBoundary · == false) = true := by
    decide
  exact fun c hc => eq_of_beq (List.all_eq_true.mp hcluster c hc)

theorem other_of_cluster : ¬"LeaderId".toList <:+: "MkU3OEVBNTcwNTJENDM2Qg".toList := by decide

/-- A status that names this leader. -/
def statusOf (leaderId : ℤ) (h : leaderId.natAbs < 2 ^ 32) : Answer :=
  .answered ⟨"MkU3OEVBNTcwNTJENDM2Qg".toList, leaderId, [], line_of_cluster, other_of_cluster, h⟩

/-- The second broker is killed, and the only round of the wait finds no leader. -/
def leaderless : Findings where
  controllerId := some 2
  kill := ⟨0, []⟩
  elections := [(5, some 1)]
  consumer := ⟨0, ['x']⟩
  polls := []

theorem not_mem_map_toLower (text : Text) : 'I' ∉ text.map Char.toLower := by
  intro h
  obtain ⟨c, -, hc⟩ := List.mem_map.mp h
  delta Char.toLower at hc
  split at hc
  · next hupper =>
    rw [ge_iff_le, UInt32.le_iff_toNat_le, UInt32.le_iff_toNat_le] at hupper
    have hval : (c.val + ('a'.val - 'A'.val)).toNat = 'I'.val.toNat :=
      congrArg (fun c : Char => c.val.toNat) hc
    rw [UInt32.toNat_add] at hval
    simp at hupper hval
    omega
  · next hother =>
    rw [hc] at hother
    exact hother (by decide)

/-- **No leader is taken for the first broker**, and the election for over. -/
theorem leader_killed_and_replaced_leaderless :
    (run leaderless).map (·.checks.newControllerElected) = some true := by
  obtain ⟨report, hrun⟩ : ∃ report, run leaderless = some report := ⟨_, rfl⟩
  have hkilled := (leader_killed_and_replaced not_mem_map_toLower).2 leaderless
    [statusOf 2 (by decide)] [(5, [statusOf (-1) (by decide)])] .kafka2 report rfl rfl rfl hrun
  rw [hrun, Option.map_some]
  exact congrArg some (hkilled.2.mpr ⟨_, List.mem_cons_self, -1, rfl, by decide⟩)

end KafkaFailover

end AiopsLog
