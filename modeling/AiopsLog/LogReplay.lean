import AiopsLog.Text
import AiopsLog.Lib.Batching
import Mathlib.Algebra.Order.Ring.Rat
import Mathlib.Tactic.Linarith

/-!
# The replay of a log

The generator loads the lines of a dataset and appends them to the log file again and again,
in batches, sleeping after every full batch. At the end of a pass the rest of the lines is
written, too, but nothing sleeps for it.

The loop is a buffer that cuts the lines of a pass into batches (`AiopsLog.LogReplay.InPass`,
kept by every line), and the writes of a pass are these batches, line by line. So whatever
number of passes and of writes of the next is done, the file has gained a beginning of the
endless repetition of the dataset, and its lines read back.

The sleep is another matter: a pass sleeps for its full batches only, so that the lines of
the rest are free, and the debt of a pass is the remainder of the dataset's length
(`AiopsLog.LogReplay.slept_replay`).
-/

namespace AiopsLog

namespace LogReplay

open Lines Batching

/-! ### The dataset -/

/-- `load_dataset(path)`, of a file of the given content or of none; a missing file ends the
process with an exit code. The content is the text the bytes decode to, where nothing fails
(`errors="replace"`). -/
def loadDataset : Option Text → Except ℕ (List Text)
  | none => .error 1
  | some content => .ok (((fileLines content).filter (!isBlank ·)).map (chomp '\n'))

/-- **The dataset is the lines of the file that are not blank**, in their order. -/
theorem loadDataset_some (content : Text) :
    loadDataset (some content) =
      .ok ((List.splitOn '\n' (universalNewlines content)).filter (!isBlank ·)) := by
  have hchomp : (fun line => !isBlank line) ∘ chomp '\n' = fun line => !isBlank line := by
    funext line
    rw [Function.comp_apply, isBlank_chomp]
  have hkeep := filter_chomp_keepEnds '\n' (fun line => !isBlank line) rfl
    (universalNewlines content)
  rw [List.filter_map, hchomp] at hkeep
  exact congrArg Except.ok hkeep

/-- No line of a dataset contains an end of line. -/
theorem not_mem_of_loadDataset {content : Option Text} {lines : List Text}
    (h : loadDataset content = .ok lines) : ∀ line ∈ lines, '\n' ∉ line := by
  intro line hline
  rcases content with _ | content
  · exact absurd h (by simp [loadDataset])
  · rw [loadDataset_some] at h
    rw [← Except.ok.inj h] at hline
    exact not_mem_of_mem_splitOn '\n' (List.mem_of_mem_filter hline)

/-! ### The loop -/

/-- `BATCH_SIZE`. -/
def batchSize : ℕ := 10

/-- What `replay` keeps, and what it has done to the world. -/
structure ReplayState where
  passCount : ℕ
  totalWritten : ℕ
  batch : List Text
  /-- The texts handed to `fh.write`, in order; the log file is opened for appending in
  every pass and gains them one after the other. -/
  writes : List Text
  /-- The sum of what `time.sleep` was called with. -/
  slept : NNRat

/-- `fh.write("\n".join(batch) + "\n")` and `total_written += len(batch)`. -/
def ReplayState.write (s : ReplayState) : ReplayState :=
  { s with
    writes := s.writes ++ [['\n'].intercalate s.batch ++ ['\n']]
    totalWritten := s.totalWritten + s.batch.length }

theorem ReplayState.writes_write {s : ReplayState} (h : s.batch ≠ []) :
    s.write.writes = s.writes ++ [unlines '\n' s.batch] := by
  rw [← intercalate_append_sep '\n' h]
  rfl

section Loop

-- A negative pause is left out: `time.sleep` raises on it after the first full batch, and a pass
-- that has none sleeps for no argument at all.
variable (sleepInterval : NNRat)

/-- The body of the loop over the lines. -/
def replayLine (s : ReplayState) (line : Text) : ReplayState :=
  let s := { s with batch := s.batch ++ [line] }
  if batchSize ≤ s.batch.length then
    { s.write with batch := [], slept := s.slept + sleepInterval * batchSize }
  else s

/-- One pass: the loop, and the rest. -/
def replayPass (lines : List Text) (s : ReplayState) : ReplayState :=
  let s := lines.foldl (replayLine sleepInterval)
    { s with passCount := s.passCount + 1, batch := [] }
  if s.batch.isEmpty then s else s.write

/-- `replay`, after so many complete passes of its endless loop. -/
def replay (lines : List Text) : ℕ → ReplayState
  | 0 => { passCount := 0, totalWritten := 0, batch := [], writes := [], slept := 0 }
  | passes + 1 => replayPass sleepInterval lines (replay lines passes)

/-- What the log file has gained when, after so many complete passes, so many writes of the
next are done. -/
def appended (lines : List Text) (passes writes : ℕ) : Text :=
  ((replay sleepInterval lines (passes + 1)).writes.take
    ((replay sleepInterval lines passes).writes.length + writes)).flatten

/-! ### Inside a pass -/

/-- The state in a pass that has come to the end of `done`, of which the batches `full` are
written: what the pass has added to the state `before` it. -/
structure InPass (before : ReplayState) (done : List Text) (full : List (List Text))
    (s : ReplayState) : Prop where
  cut : Cut batchSize done full s.batch
  writes : s.writes = before.writes ++ full.map (unlines '\n')
  totalWritten : s.totalWritten = before.totalWritten + full.flatten.length
  slept : s.slept = before.slept + full.length * (sleepInterval * batchSize)

variable {sleepInterval}

namespace InPass

variable {before s : ReplayState} {done : List Text} {full : List (List Text)}

theorem start (sleepInterval : NNRat) (before : ReplayState) (passCount : ℕ) :
    InPass sleepInterval before [] [] { before with passCount := passCount, batch := [] } :=
  ⟨Cut.nil (by decide), (List.append_nil _).symm, rfl, by simp⟩

/-- One line either waits in the batch or completes it, and then the batch is written. -/
theorem step (h : InPass sleepInterval before done full s) (line : Text) :
    ∃ full', InPass sleepInterval before (done ++ [line]) full'
      (replayLine sleepInterval s line) := by
  rw [replayLine]
  split
  · next hfull =>
    have hne : s.batch ++ [line] ≠ [] :=
      List.append_ne_nil_of_right_ne_nil _ (List.cons_ne_nil _ _)
    refine ⟨full ++ [s.batch ++ [line]], h.cut.snoc_full hfull, ?_, ?_, ?_⟩
    · show ReplayState.writes (ReplayState.write { s with batch := s.batch ++ [line] }) = _
      rw [ReplayState.writes_write hne, h.writes, List.map_append, List.append_assoc]
      rfl
    · show s.totalWritten + (s.batch ++ [line]).length = _
      rw [h.totalWritten, List.flatten_append, List.flatten_singleton, Nat.add_assoc]
      exact congrArg _ List.length_append.symm
    · show s.slept + sleepInterval * batchSize = _
      rw [h.slept, List.length_append, List.length_singleton, Nat.cast_succ]
      ring
  · next hwait => exact ⟨full, h.cut.snoc_rest (Nat.lt_of_not_le hwait), h.writes,
      h.totalWritten, h.slept⟩

/-- The loop over any lines, by steps. -/
theorem foldl (h : InPass sleepInterval before done full s) (lines : List Text) :
    ∃ full', InPass sleepInterval before (done ++ lines) full'
      (lines.foldl (replayLine sleepInterval) s) := by
  induction lines generalizing done full s with
  | nil => exact ⟨full, by rwa [List.append_nil]⟩
  | cons line lines ih =>
    obtain ⟨full', hstep⟩ := h.step line
    obtain ⟨full'', hrest⟩ := ih hstep
    exact ⟨full'', by rwa [List.append_assoc] at hrest⟩

end InPass

/-- **What a pass does**: it writes the dataset in batches, counts its lines, and sleeps for
the full batches. -/
theorem exists_cut_replayPass (sleepInterval : NNRat) (lines : List Text) (s : ReplayState) :
    ∃ full rest, Cut batchSize lines full rest ∧
      (replayPass sleepInterval lines s).writes
        = s.writes ++ (Cut.all full rest).map (unlines '\n') ∧
      (replayPass sleepInterval lines s).totalWritten = s.totalWritten + lines.length ∧
      (replayPass sleepInterval lines s).slept
        = s.slept + full.length * (sleepInterval * batchSize) := by
  obtain ⟨full, hloop⟩ := (InPass.start sleepInterval s (s.passCount + 1)).foldl lines
  rw [List.nil_append] at hloop
  rw [replayPass]
  generalize lines.foldl (replayLine sleepInterval) _ = t at hloop ⊢
  refine ⟨full, t.batch, hloop.cut, ?_⟩
  have hlines : lines.length = full.flatten.length + t.batch.length := by
    rw [← hloop.cut.flatten_append, List.length_append]
  rw [Cut.all, hlines, ← Nat.add_assoc]
  by_cases hrest : t.batch.isEmpty
  · rw [if_pos hrest, if_pos hrest, List.isEmpty_iff.mp hrest]
    exact ⟨hloop.writes, hloop.totalWritten, hloop.slept⟩
  · have hne : t.batch ≠ [] := fun h => hrest (List.isEmpty_iff.mpr h)
    rw [if_neg hrest, if_neg hrest]
    refine ⟨?_, ?_, hloop.slept⟩
    · rw [ReplayState.writes_write hne, hloop.writes, List.map_append, List.append_assoc]
      rfl
    · show t.totalWritten + t.batch.length = _
      rw [hloop.totalWritten]

/-! ### Any number of passes -/

section Passes

variable (sleepInterval : NNRat) (lines : List Text)

/-- The writes of some passes are the lines of that many rounds. -/
theorem flatten_writes_replay (passes : ℕ) :
    (replay sleepInterval lines passes).writes.flatten
      = unlines '\n' (List.replicate passes lines).flatten := by
  induction passes with
  | zero => rfl
  | succ passes ih =>
    obtain ⟨full, rest, hcut, hwrites, -, -⟩ :=
      exists_cut_replayPass sleepInterval lines (replay sleepInterval lines passes)
    rw [replay, hwrites, List.flatten_append, ih, flatten_map_unlines, hcut.flatten_all,
      List.replicate_succ', List.flatten_append, List.flatten_singleton, unlines_append]

theorem totalWritten_replay (passes : ℕ) :
    (replay sleepInterval lines passes).totalWritten = passes * lines.length := by
  induction passes with
  | zero => exact (Nat.zero_mul _).symm
  | succ passes ih =>
    obtain ⟨full, rest, -, -, htotal, -⟩ :=
      exists_cut_replayPass sleepInterval lines (replay sleepInterval lines passes)
    rw [replay, htotal, ih, Nat.succ_mul]

/-- **A pass sleeps for its full batches**, and the rest of the lines is free. -/
theorem slept_replay (passes : ℕ) :
    (replay sleepInterval lines passes).slept
      = passes * ((lines.length / batchSize : ℕ) * (sleepInterval * batchSize)) := by
  induction passes with
  | zero =>
    rw [Nat.cast_zero, zero_mul]
    rfl
  | succ passes ih =>
    obtain ⟨full, rest, hcut, -, -, hslept⟩ :=
      exists_cut_replayPass sleepInterval lines (replay sleepInterval lines passes)
    rw [replay, hslept, ih, hcut.length_full, Nat.cast_succ]
    ring

/-- **What the file has gained** is a beginning of the endless repetition of the dataset, at
any moment of any pass. -/
theorem appended_eq (passes writes : ℕ) :
    appended sleepInterval lines passes writes
      = unlines '\n'
        (endless lines (passes * lines.length + min (writes * batchSize) lines.length)) := by
  obtain ⟨full, rest, hcut, hwrites, -, -⟩ :=
    exists_cut_replayPass sleepInterval lines (replay sleepInterval lines passes)
  have hbegin : lines.take (writes * batchSize)
      = lines.take (min (writes * batchSize) lines.length) := by
    rw [← List.take_take, List.take_length]
  rw [appended, replay, hwrites, List.take_length_add_append, List.flatten_append,
    flatten_writes_replay, ← List.map_take, flatten_map_unlines, hcut.flatten_take, hbegin,
    endless_eq passes (min_le_right _ _), unlines_append]

end Passes

end Loop

/-! ### Nothing is lost, doubled, merged or split -/

/-- **The replay keeps the lines**: the dataset is what is not blank of the file, and after
any number of passes and of writes of the next, the log file has gained the first lines of
its endless repetition, each with exactly one end, so that they read back. -/
theorem replay_keeps_lines (content : Text) (sleepInterval : NNRat) (passes writes : ℕ) :
    ∃ lines, loadDataset (some content) = .ok lines ∧
      lines = (List.splitOn '\n' (universalNewlines content)).filter (!isBlank ·) ∧
      ∃ k, k = passes * lines.length + min (writes * batchSize) lines.length ∧
        (endless lines k).length = k ∧
        appended sleepInterval lines passes writes
          = (endless lines k).flatMap (· ++ ['\n']) ∧
        List.splitOn '\n' (appended sleepInterval lines passes writes)
          = endless lines k ++ [[]] ∧
        (replay sleepInterval lines passes).totalWritten = passes * lines.length ∧
        appended sleepInterval lines passes 0
          = (endless lines (passes * lines.length)).flatMap (· ++ ['\n']) := by
  refine ⟨_, loadDataset_some content, rfl, _, rfl, ?_⟩
  have hends := not_mem_of_loadDataset (loadDataset_some content)
  generalize (List.splitOn '\n' (universalNewlines content)).filter (!isBlank ·) = lines
    at hends ⊢
  have happended := appended_eq sleepInterval lines passes writes
  refine ⟨?_, happended, ?_, totalWritten_replay sleepInterval lines passes, ?_⟩
  · rcases eq_or_ne lines [] with rfl | hne
    · simp [endless]
    · exact length_endless hne _
  · rw [happended]
    exact splitOn_unlines '\n' fun line hline => hends line (mem_of_mem_endless hline)
  · have hpasses := appended_eq sleepInterval lines passes 0
    rwa [Nat.zero_mul, Nat.zero_min, Nat.add_zero] at hpasses

/-! ### The rate -/

/-- The pause of `sleep_interval` a line holds up to one batch: what was slept is enough for
all lines written but so many. -/
def HonoursRate (sleepInterval : NNRat) (lines : List Text) (passes : ℕ) : Prop :=
  (sleepInterval : ℚ) * ((replay sleepInterval lines passes).totalWritten - batchSize)
    ≤ (replay sleepInterval lines passes).slept

/-- What was slept falls short of the pause for all lines by that for the rests of the
passes. -/
theorem slept_add_rests (sleepInterval : NNRat) (lines : List Text) (passes : ℕ) :
    ((replay sleepInterval lines passes).slept : ℚ)
        + sleepInterval * (passes * (lines.length % batchSize) : ℕ)
      = sleepInterval * (replay sleepInterval lines passes).totalWritten := by
  have hlen : (lines.length : ℚ)
      = batchSize * (lines.length / batchSize : ℕ) + (lines.length % batchSize : ℕ) := by
    exact_mod_cast (Nat.div_add_mod lines.length batchSize).symm
  rw [slept_replay, totalWritten_replay]
  push_cast
  rw [hlen]
  ring

theorem honoursRate_iff {sleepInterval : NNRat} (h : 0 < sleepInterval) (lines : List Text)
    (passes : ℕ) :
    HonoursRate sleepInterval lines passes
      ↔ passes * (lines.length % batchSize) ≤ batchSize := by
  have hpos : (0 : ℚ) < sleepInterval := by exact_mod_cast h
  have hrests := slept_add_rests sleepInterval lines passes
  rw [← Nat.cast_le (α := ℚ), ← mul_le_mul_iff_right₀ hpos, HonoursRate, mul_sub, ← hrests]
  constructor
  · intro hrate
    linarith
  · intro hdebt
    linarith

/-- **The debt must fit into a batch**: the rate is honoured as long as the lines the passes
wrote as their rests are no more than one batch. So it is honoured forever where the passes
have no rests, and nowhere else. -/
theorem replay_honoursRate_iff {sleepInterval : NNRat} (h : 0 < sleepInterval)
    (lines : List Text) :
    (∀ passes, HonoursRate sleepInterval lines passes
      ↔ passes * (lines.length % batchSize) ≤ batchSize) ∧
    ((∀ passes, HonoursRate sleepInterval lines passes) ↔ batchSize ∣ lines.length) := by
  refine ⟨honoursRate_iff h lines, fun hrate => ?_, fun hdvd passes => ?_⟩
  · -- with a rest of one line or more, eleven passes owe more than a batch
    have hdebt := (honoursRate_iff h lines (batchSize + 1)).mp (hrate _)
    refine Nat.dvd_of_mod_eq_zero ?_
    by_contra hrest
    have hone : (batchSize + 1) * 1 ≤ (batchSize + 1) * (lines.length % batchSize) :=
      Nat.mul_le_mul_left _ (Nat.pos_of_ne_zero hrest)
    omega
  · rw [honoursRate_iff h lines passes, Nat.mod_eq_zero_of_dvd hdvd, Nat.mul_zero]
    exact Nat.zero_le _

/-- A dataset of one line, at a pause of a second a line. -/
theorem replay_honoursRate_iff_one_line :
    0 < (1 : NNRat) ∧
    ((∀ passes, HonoursRate 1 [['a']] passes ↔ passes * ([['a']].length % batchSize) ≤ batchSize) ∧
    ((∀ passes, HonoursRate 1 [['a']] passes) ↔ batchSize ∣ [['a']].length)) :=
  ⟨one_pos, replay_honoursRate_iff one_pos [['a']]⟩

/-- The same dataset after eleven passes: as many lines are written, and nothing has slept. -/
theorem eleven_passes_never_sleep :
    (replay 1 [['a']] 11).totalWritten = 11 ∧ (replay 1 [['a']] 11).slept = 0 ∧
      ¬HonoursRate 1 [['a']] 11 := by
  refine ⟨totalWritten_replay 1 [['a']] 11, ?_, ?_⟩
  · rw [slept_replay]
    simp [batchSize]
  · rw [honoursRate_iff one_pos]
    decide

end LogReplay

end AiopsLog
