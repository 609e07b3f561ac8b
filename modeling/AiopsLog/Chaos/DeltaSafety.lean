import AiopsLog.Text

/-!
# The verdict on the Delta table

The scenario reads the version and the number of rows of the table, kills and restarts the
master of Spark, and reads them again. What cannot be read is reported as minus one, and the
verdict looks at the numbers only.

A table that was not readable before the crash counts as an empty one of version zero. A
table that is not readable after it is passed: Spark may still be starting, says the code,
and it cannot tell that from a table that is corrupt, which the check reports by the same
numbers. So the verdict is that nothing has been lost, or that nothing was seen
(`AiopsLog.DeltaSafety.run_passed_iff`).
-/

namespace AiopsLog

namespace DeltaSafety

/-! ### Reading the table -/

/-- What `run` reads of the dictionary of `_get_delta_state`, whose keys may be missing. -/
structure DeltaState where
  version : Option ℤ
  rowCount : Option ℤ
  deriving DecidableEq

/-- `state.get("version", -1)`. -/
def DeltaState.getVersion (state : DeltaState) : ℤ := state.version.getD (-1)

/-- `state.get("row_count", -1)`. -/
def DeltaState.getRowCount (state : DeltaState) : ℤ := state.rowCount.getD (-1)

/-- What comes of the script that reads the table in the container. -/
inductive Outcome where
  /-- It has read the version of the last entry of the history, and counted the rows. -/
  | read : ℕ → ℕ → Outcome
  /-- It has raised anywhere, whatever is wrong with the table or with Spark. -/
  | unreadable : Outcome

/-- What the script prints, and what is taken where nothing is printed. -/
def Outcome.state : Outcome → DeltaState
  | .read version rowCount => ⟨some version, some rowCount⟩
  | .unreadable => ⟨some (-1), some (-1)⟩

/-- The lines of the output, stripped, that look like a JSON object. -/
def objectLines (result : CompletedProcess) : List Text :=
  ((splitlines result.stdout).map fun line => (strip (String.ofList line)).toList).filter
    fun line => ['\x7b'].isPrefixOf line

/-- `_get_delta_state`, of the output of the submitted script: the first of these lines that
is a JSON object. The parser is `json.loads`, none where it raises. -/
def getDeltaState (loads : Text → Option DeltaState) (result : CompletedProcess) : DeltaState :=
  ((objectLines result).findSome? loads).getD Outcome.unreadable.state

/-- `_kill_container` and `_start_container`. -/
def containerCommand (result : CompletedProcess) : Bool := result.ok

/-- `_check_no_tmp_files`: the last line of the output, stripped, is the count. Where there is
none, or `int` raises, the directory is taken to be clean. -/
def checkNoTmpFiles (int : Text → Option ℤ) (result : CompletedProcess) : Bool :=
  match (splitlines (strip (String.ofList result.stdout)).toList).getLast? with
  | none => true
  | some line => match int line with
    | none => true
    | some count => count = 0

/-! ### The report -/

/-- The `checks` of `run`. -/
structure Checks where
  deltaVersionReadBefore : Bool
  sparkMasterKilledDuringWrite : Bool
  sparkMasterRestarted : Bool
  deltaTableNotCorrupted : Bool
  noUncommittedTmpFiles : Bool
  committedRowCountIntact : Bool

/-- `all(checks.values())`. -/
def Checks.all (checks : Checks) : Bool :=
  checks.deltaVersionReadBefore && checks.sparkMasterKilledDuringWrite &&
    checks.sparkMasterRestarted && checks.deltaTableNotCorrupted &&
    checks.noUncommittedTmpFiles && checks.committedRowCountIntact

/-- The `metrics` of `run`. -/
structure Metrics where
  versionBefore : ℤ
  rowsBefore : ℤ
  versionAfter : ℤ
  rowsAfter : ℤ

structure Report where
  passed : Bool
  checks : Checks
  metrics : Metrics

/-- What the state after the crash is compared with: `version_before` and `rows_before` once
step 1 is through. -/
def baseline (stateBefore : DeltaState) : ℤ × ℤ :=
  if 0 ≤ stateBefore.getVersion then (stateBefore.getVersion, stateBefore.getRowCount) else (0, 0)

/-- The last step of `run`, which sets the same value for the two checks on the table. -/
def tableIntact (versionBefore rowsBefore versionAfter rowsAfter : ℤ) : Bool :=
  if versionBefore ≤ versionAfter ∧ rowsBefore ≤ rowsAfter then true
  -- Spark may still be warming up
  else if versionAfter = -1 then true
  else false

/-- `run`, of what its calls return. -/
def run (stateBefore : DeltaState) (killed started noTmp : Bool) (stateAfter : DeltaState) :
    Report :=
  let (versionBefore, rowsBefore) := baseline stateBefore
  let intact :=
    tableIntact versionBefore rowsBefore stateAfter.getVersion stateAfter.getRowCount
  let checks : Checks := {
    -- set where the table was read, and where it was not: it may be a fresh deployment
    deltaVersionReadBefore := true
    sparkMasterKilledDuringWrite := killed
    sparkMasterRestarted := started
    deltaTableNotCorrupted := intact
    noUncommittedTmpFiles := noTmp
    committedRowCountIntact := intact }
  { passed := checks.all
    checks := checks
    metrics := {
      versionBefore := stateBefore.getVersion
      rowsBefore := stateBefore.getRowCount
      versionAfter := stateAfter.getVersion
      rowsAfter := stateAfter.getRowCount } }

/-! ### The verdict -/

section Verdict

variable {stateBefore stateAfter : DeltaState} {killed started noTmp : Bool}

theorem tableIntact_iff {versionBefore rowsBefore versionAfter rowsAfter : ℤ} :
    tableIntact versionBefore rowsBefore versionAfter rowsAfter = true
      ↔ (versionBefore ≤ versionAfter ∧ rowsBefore ≤ rowsAfter) ∨ versionAfter = -1 := by
  rw [tableIntact]
  split
  · next hintact => exact iff_of_true rfl (Or.inl hintact)
  · next hlower =>
    split
    · next hunread => exact iff_of_true rfl (Or.inr hunread)
    · next hread => exact iff_of_false Bool.false_ne_true (not_or.mpr ⟨hlower, hread⟩)

/-- **The verdict**: everything else went well, and nothing has been lost or nothing was
seen. -/
theorem run_passed_iff :
    (run stateBefore killed started noTmp stateAfter).passed = true
      ↔ (killed = true ∧ started = true ∧ noTmp = true) ∧
        (((baseline stateBefore).1 ≤ stateAfter.getVersion ∧
          (baseline stateBefore).2 ≤ stateAfter.getRowCount) ∨ stateAfter.getVersion = -1) := by
  rw [← tableIntact_iff]
  show Checks.all _ = true ↔ _
  simp only [Checks.all, Bool.and_eq_true, Bool.true_and]
  constructor
  · rintro ⟨⟨⟨⟨hkilled, hstarted⟩, hintact⟩, hnoTmp⟩, -⟩
    exact ⟨⟨hkilled, hstarted, hnoTmp⟩, hintact⟩
  · rintro ⟨⟨hkilled, hstarted, hnoTmp⟩, hintact⟩
    exact ⟨⟨⟨⟨hkilled, hstarted⟩, hintact⟩, hnoTmp⟩, hintact⟩

/-- The version and the rows that were there before, nothing where the table could not be
read. -/
def Outcome.committed : Outcome → ℕ × ℕ
  | .read version rowCount => (version, rowCount)
  | .unreadable => (0, 0)

theorem baseline_state (before : Outcome) :
    baseline before.state = ((before.committed.1 : ℤ), (before.committed.2 : ℤ)) := by
  cases before with
  | read version rowCount => exact if_pos (Int.natCast_nonneg version)
  | unreadable => exact if_neg (by decide)

/-- What has been read after the crash passes where it is no less than what was read
before. -/
theorem run_read_passed_iff {before : Outcome} {version rowCount : ℕ} :
    (run before.state killed started noTmp (Outcome.read version rowCount).state).passed = true
      ↔ (killed = true ∧ started = true ∧ noTmp = true) ∧
        before.committed.1 ≤ version ∧ before.committed.2 ≤ rowCount := by
  rw [run_passed_iff, baseline_state]
  show _ ∧ ((_ ≤ (version : ℤ) ∧ _ ≤ (rowCount : ℤ)) ∨ (version : ℤ) = -1) ↔ _
  constructor
  · rintro ⟨hcalls, ⟨hversion, hrows⟩ | hunread⟩
    · exact ⟨hcalls, Int.ofNat_le.mp hversion, Int.ofNat_le.mp hrows⟩
    · omega
  · rintro ⟨hcalls, hversion, hrows⟩
    exact ⟨hcalls, Or.inl ⟨Int.ofNat_le.mpr hversion, Int.ofNat_le.mpr hrows⟩⟩

/-- A table that is unreadable after the crash passes, whatever was there before. -/
theorem run_unreadable_passed_iff :
    (run stateBefore killed started noTmp Outcome.unreadable.state).passed = true
      ↔ killed = true ∧ started = true ∧ noTmp = true :=
  run_passed_iff.trans (and_iff_left (Or.inr rfl))

/-- **What the verdict is worth**: it passes a table only where it could not be read after
the restart, or where its version and its rows are both at least those read before; every
regression that can be read is caught. -/
theorem run_sound (before after : Outcome) (killed started noTmp : Bool) :
    ((run before.state killed started noTmp after.state).passed = true →
      after = .unreadable ∨ ∃ version rowCount, after = .read version rowCount ∧
        before.committed.1 ≤ version ∧ before.committed.2 ≤ rowCount) ∧
    (∀ version rowCount, after = .read version rowCount →
      version < before.committed.1 ∨ rowCount < before.committed.2 →
      (run before.state killed started noTmp after.state).passed = false) := by
  constructor
  · intro hpassed
    rcases after with ⟨version, rowCount⟩ | _
    · exact Or.inr ⟨version, rowCount, rfl, (run_read_passed_iff.mp hpassed).2⟩
    · exact Or.inl rfl
  · rintro version rowCount rfl hlower
    refine Bool.eq_false_iff.mpr fun hpassed => ?_
    obtain ⟨-, hversion, hrows⟩ := run_read_passed_iff.mp hpassed
    omega

/-- A table of a hundred rows that nothing can be read of any more is passed. -/
theorem run_passes_unread_table :
    (run (Outcome.read 5 100).state true true true Outcome.unreadable.state).passed = true ∧
      ¬∃ version rowCount, Outcome.unreadable = .read version rowCount ∧
        5 ≤ version ∧ 100 ≤ rowCount :=
  ⟨rfl, by simp⟩

end Verdict

/-! ### From the outputs -/

/-- What the commands of the scenario return, in their order. -/
structure Outputs where
  stateBefore : CompletedProcess
  kill : CompletedProcess
  start : CompletedProcess
  tmpFiles : CompletedProcess
  stateAfter : CompletedProcess

/-- The scenario, of the outputs of its commands. -/
def scenario (loads : Text → Option DeltaState) (int : Text → Option ℤ) (outputs : Outputs) :
    Report :=
  run (getDeltaState loads outputs.stateBefore) (containerCommand outputs.kill)
    (containerCommand outputs.start) (checkNoTmpFiles int outputs.tmpFiles)
    (getDeltaState loads outputs.stateAfter)

/-- Where no line is a JSON object the table is reported as unreadable. -/
theorem getDeltaState_of_not_loads {loads : Text → Option DeltaState} {result : CompletedProcess}
    (h : ∀ line ∈ objectLines result, loads line = none) :
    getDeltaState loads result = Outcome.unreadable.state := by
  rw [getDeltaState, List.findSome?_eq_none_iff.mpr h]
  rfl

/-- **Silence passes**: where neither the check of the directory nor the last reading of the
table prints anything, it is enough that the container was killed and started. -/
theorem scenario_passed_of_silence {loads : Text → Option DeltaState} {int : Text → Option ℤ}
    {outputs : Outputs} (htmp : outputs.tmpFiles.stdout = [])
    (hafter : outputs.stateAfter.stdout = []) :
    (scenario loads int outputs).passed = true
      ↔ outputs.kill.returncode = 0 ∧ outputs.start.returncode = 0 := by
  have hlines : objectLines outputs.stateAfter = [] := by
    rw [objectLines, hafter]
    rfl
  have hclean : checkNoTmpFiles int outputs.tmpFiles = true := by
    rw [checkNoTmpFiles, htmp]
    rfl
  have hunread : getDeltaState loads outputs.stateAfter = Outcome.unreadable.state :=
    getDeltaState_of_not_loads fun line hline => absurd (hlines ▸ hline) List.not_mem_nil
  rw [scenario, hunread, hclean, run_unreadable_passed_iff]
  simp [containerCommand, CompletedProcess.ok]

end DeltaSafety

end AiopsLog
