import AiopsLog.Fluentd.Ingestion
import AiopsLog.Lib.Run
import AiopsLog.LogReplay

/-!
# The log file and its reader

The log file is shared. The generator appends its batches to it, others append a line with
`echo` whenever they like, and the agent reads what is new in pieces that may end anywhere. It
hands on the lines that have ended and keeps what it has read of the next; when it is started
again, it goes on behind the last line it has handed on, as its position file says.

Each write ends its last line. So the lines of the file are those that were written, in the
order of the writes, and reading in pieces is reading at once (`Lines.ended_append`): what the
agent has handed on is a beginning of these lines (`AiopsLog.Fluentd.Shipping.tail_hands_on_lines`),
whatever the pieces and however often it was started again.
-/

namespace AiopsLog

namespace Fluentd

open Lines LogReplay Batching

/-! ### The agent -/

/-- The source `input_system_log`, as it reads the file. -/
structure Tail where
  /-- How much of the file has been read. -/
  pos : ℕ
  /-- What has been read of a line that has not ended. -/
  buffer : Text
  /-- The lines handed on to the parser. -/
  lines : List Text

namespace Tail

/-- The next piece is read. -/
def read (tail : Tail) (piece : Text) : Tail where
  pos := tail.pos + piece.length
  buffer := unended '\n' (tail.buffer ++ piece)
  lines := tail.lines ++ ended '\n' (tail.buffer ++ piece)

/-- The agent is started again, with the position in its `pos_file`. -/
def restart (tail : Tail) : Tail :=
  { tail with pos := tail.pos - tail.buffer.length, buffer := [] }

/-- The agent has read this much of a file. -/
structure Reads (tail : Tail) (file : Text) : Prop where
  pos_le : tail.pos ≤ file.length
  lines : tail.lines = ended '\n' (file.take tail.pos)
  buffer : tail.buffer = unended '\n' (file.take tail.pos)

namespace Reads

variable {tail : Tail} {file : Text}

/-- A file that grows is read as far as before. -/
theorem append (h : tail.Reads file) (text : Text) : tail.Reads (file ++ text) := by
  have htake : (file ++ text).take tail.pos = file.take tail.pos :=
    List.take_append_of_le_length h.pos_le
  refine ⟨?_, ?_, ?_⟩
  · rw [List.length_append]
    exact Nat.le_add_right_of_le h.pos_le
  · rw [htake, h.lines]
  · rw [htake, h.buffer]

/-- A piece more of it. -/
theorem read (h : tail.Reads file) (n : ℕ) :
    (tail.read ((file.drop tail.pos).take n)).Reads file := by
  generalize hpiece : (file.drop tail.pos).take n = piece
  have htake : file.take (tail.pos + piece.length) = file.take tail.pos ++ piece := by
    rw [List.take_add, ← hpiece, List.length_take, ← List.take_take, List.take_length]
  have hlength : piece.length ≤ file.length - tail.pos := by
    rw [← hpiece, ← List.length_drop]
    exact List.length_take_le' n _
  obtain ⟨hended, hunended⟩ := ended_append '\n' (file.take tail.pos) piece
  refine ⟨?_, ?_, ?_⟩
  · have := h.pos_le
    show tail.pos + piece.length ≤ file.length
    omega
  · show tail.lines ++ ended '\n' (tail.buffer ++ piece) = ended '\n' (file.take (tail.pos + _))
    rw [htake, hended, h.lines, h.buffer]
  · show unended '\n' (tail.buffer ++ piece) = unended '\n' (file.take (tail.pos + _))
    rw [htake, hunended, h.buffer]

/-- A start behind the last line that has ended. -/
theorem restart (h : tail.Reads file) : tail.restart.Reads file := by
  have hsplit : unlines '\n' tail.lines ++ tail.buffer = file.take tail.pos := by
    rw [h.lines, h.buffer, unlines_ended_append]
  have hpos : (unlines '\n' tail.lines).length + tail.buffer.length = tail.pos := by
    rw [← List.length_append, hsplit, List.length_take, min_eq_left h.pos_le]
  have hkept : tail.pos - tail.buffer.length = (unlines '\n' tail.lines).length := by omega
  have htake : file.take (tail.pos - tail.buffer.length) = unlines '\n' tail.lines ++ [] := by
    calc file.take (tail.pos - tail.buffer.length)
        = (file.take tail.pos).take (unlines '\n' tail.lines).length := by
          rw [List.take_take, hkept, min_eq_left (by omega)]
      _ = unlines '\n' tail.lines ++ [] := by rw [← hsplit, List.take_left, List.append_nil]
  have hlines : ∀ line ∈ tail.lines, '\n' ∉ line := by
    rw [h.lines]
    exact fun line hline => not_mem_of_mem_ended '\n' hline
  obtain ⟨hended, hunended⟩ := ended_unlines_append '\n' hlines List.not_mem_nil
  rw [← htake] at hended hunended
  refine ⟨?_, ?_, ?_⟩
  · exact (Nat.sub_le _ _).trans h.pos_le
  · show tail.lines = ended '\n' (file.take (tail.pos - tail.buffer.length))
    exact hended.symm
  · show [] = unended '\n' (file.take (tail.pos - tail.buffer.length))
    exact hunended.symm

end Reads

end Tail

/-! ### The writers -/

/-- Who writes to the log file. -/
inductive Writer where
  | generator : Writer
  | other : Writer
  deriving DecidableEq

/-- What `echo` appends: one line. -/
abbrev EchoLine := {t : Text // '\n' ∉ t ∧ '\r' ∉ t}

/-- The log file, its writers and its reader. -/
structure Shipping where
  file : Text
  /-- How often the generator has written. -/
  writes : ℕ
  tail : Tail
  /-- Which lines were written, and by whom. -/
  log : List (Writer × Text)

/-- The generator writes, a line is appended, the agent reads up to so many characters more,
or it is started again. -/
inductive ShippingAction where
  | write : ShippingAction
  | append : EchoLine → ShippingAction
  | read : ℕ → ShippingAction
  | restart : ShippingAction

/-- The line the action appends. -/
def ShippingAction.appended : ShippingAction → Option Text
  | .append line => some line.1
  | .write | .read _ | .restart => none

namespace Shipping

/-- An empty file; `read_from_head` is set. -/
def start : Shipping := ⟨[], 0, ⟨0, [], []⟩, []⟩

/-- The lines of a writer, in their order. -/
def writtenBy (writer : Writer) (log : List (Writer × Text)) : List Text :=
  (log.filter fun entry => entry.1 = writer).map Prod.snd

theorem writtenBy_append (writer : Writer) (log log' : List (Writer × Text)) :
    writtenBy writer (log ++ log') = writtenBy writer log ++ writtenBy writer log' := by
  rw [writtenBy, List.filter_append, List.map_append]
  rfl

theorem writtenBy_map_self (writer : Writer) (lines : List Text) :
    writtenBy writer (lines.map fun line => (writer, line)) = lines := by
  rw [writtenBy, List.filter_eq_self.mpr, List.map_map]
  · exact List.map_id _
  · intro entry hentry
    obtain ⟨line, -, rfl⟩ := List.mem_map.mp hentry
    exact decide_eq_true rfl

theorem writtenBy_map_of_ne {writer writer' : Writer} (h : writer' ≠ writer) (lines : List Text) :
    writtenBy writer (lines.map fun line => (writer', line)) = [] := by
  rw [writtenBy, List.filter_eq_nil_iff.mpr, List.map_nil]
  intro entry hentry
  obtain ⟨line, -, rfl⟩ := List.mem_map.mp hentry
  simpa using h

section Step

variable (sleepInterval : NNRat) (dataset : List Text)

/-- What the generator writes next, after so many writes. -/
def nextWrite (writes : ℕ) : Option Text :=
  (replay sleepInterval dataset (writes + 1)).writes[writes]?

/-- A step of the system. A write is appended in one piece, behind whatever is there. -/
def step (s : Shipping) : ShippingAction → Option Shipping
  | .write => do
    let text ← nextWrite sleepInterval dataset s.writes
    pure { s with
      file := s.file ++ text
      writes := s.writes + 1
      log := s.log ++ (ended '\n' text).map fun line => (.generator, line) }
  | .append line => some { s with
      file := s.file ++ unlines '\n' [line.1]
      log := s.log ++ [line.1].map fun line => (.other, line) }
  | .read n => some { s with tail := s.tail.read ((s.file.drop s.tail.pos).take n) }
  | .restart => some { s with tail := s.tail.restart }

end Step

/-! ### The generator's lines -/

section Generator

variable (sleepInterval : NNRat) {dataset : List Text}

/-- The writes of some passes are batches of lines. -/
theorem exists_batches (dataset : List Text) (passes : ℕ) :
    ∃ batches : List (List Text),
      (replay sleepInterval dataset passes).writes = batches.map (unlines '\n') ∧
      batches.flatten = (List.replicate passes dataset).flatten := by
  induction passes with
  | zero => exact ⟨[], rfl, rfl⟩
  | succ passes ih =>
    obtain ⟨batches, hwrites, hlines⟩ := ih
    obtain ⟨full, rest, hcut, hpass, -, -⟩ :=
      exists_cut_replayPass sleepInterval dataset (replay sleepInterval dataset passes)
    refine ⟨batches ++ Cut.all full rest, ?_, ?_⟩
    · rw [replay, hpass, hwrites, List.map_append]
    · rw [List.flatten_append, hlines, hcut.flatten_all, List.replicate_succ', List.flatten_append,
        List.flatten_singleton]

/-- A pass only adds writes, and at least one where there are lines. -/
theorem exists_writes_replay_succ (hne : dataset ≠ []) (passes : ℕ) :
    ∃ text texts, (replay sleepInterval dataset (passes + 1)).writes
      = (replay sleepInterval dataset passes).writes ++ text :: texts := by
  obtain ⟨full, rest, hcut, hpass, -, -⟩ :=
    exists_cut_replayPass sleepInterval dataset (replay sleepInterval dataset passes)
  rcases hall : Cut.all full rest with _ | ⟨batch, batches⟩
  · exact absurd (hall ▸ hcut.flatten_all).symm hne
  · exact ⟨_, _, by rw [replay, hpass, hall, List.map_cons]⟩

theorem le_length_writes_replay (hne : dataset ≠ []) (passes : ℕ) :
    passes ≤ (replay sleepInterval dataset passes).writes.length := by
  induction passes with
  | zero => exact Nat.zero_le _
  | succ passes ih =>
    obtain ⟨text, texts, hwrites⟩ := exists_writes_replay_succ sleepInterval hne passes
    rw [hwrites, List.length_append, List.length_cons]
    omega

theorem writes_replay_nil (passes : ℕ) : (replay sleepInterval [] passes).writes = [] := by
  induction passes with
  | zero => rfl
  | succ passes ih => exact ih

/-- The first writes. -/
def firstWrites (dataset : List Text) (writes : ℕ) : List Text :=
  (replay sleepInterval dataset writes).writes.take writes

/-- **The next write** goes behind the first ones. -/
theorem firstWrites_succ {writes : ℕ} {text : Text}
    (h : nextWrite sleepInterval dataset writes = some text) :
    firstWrites sleepInterval dataset (writes + 1)
      = firstWrites sleepInterval dataset writes ++ [text] := by
  have hne : dataset ≠ [] := by
    rintro rfl
    rw [nextWrite, writes_replay_nil] at h
    exact absurd h.symm (Option.some_ne_none _)
  obtain ⟨_, texts, hwrites⟩ := exists_writes_replay_succ sleepInterval hne writes
  rw [firstWrites, List.take_add_one, ← nextWrite, h, hwrites,
    List.take_append_of_le_length (le_length_writes_replay sleepInterval hne writes)]
  rfl

section Lines

variable (hdataset : ∀ line ∈ dataset, '\n' ∉ line)

include hdataset

/-- The batches of lines, with nothing in a line that ends it. -/
theorem exists_batches_ended (passes : ℕ) :
    ∃ batches : List (List Text),
      (replay sleepInterval dataset passes).writes = batches.map (unlines '\n') ∧
      batches.flatten = (List.replicate passes dataset).flatten ∧
      ∀ batch ∈ batches, ended '\n' (unlines '\n' batch) = batch := by
  obtain ⟨batches, hwrites, hlines⟩ := exists_batches sleepInterval dataset passes
  refine ⟨batches, hwrites, hlines, fun batch hbatch => ?_⟩
  have hends : ∀ line ∈ batch, '\n' ∉ line := by
    intro line hline
    have hmem := List.mem_flatten.mpr ⟨batch, hbatch, hline⟩
    rw [hlines] at hmem
    obtain ⟨round, hround, hmem⟩ := List.mem_flatten.mp hmem
    rw [List.eq_of_mem_replicate hround] at hmem
    exact hdataset line hmem
  have hended := (ended_unlines_append '\n' hends List.not_mem_nil).1
  rwa [List.append_nil] at hended

/-- A write is lines that have ended. -/
theorem unlines_ended_nextWrite {writes : ℕ} {text : Text}
    (h : nextWrite sleepInterval dataset writes = some text) :
    unlines '\n' (ended '\n' text) = text := by
  obtain ⟨batches, hwrites, -, hended⟩ := exists_batches_ended sleepInterval hdataset (writes + 1)
  rw [nextWrite, hwrites] at h
  obtain ⟨batch, hbatch, rfl⟩ := List.mem_map.mp (List.mem_of_getElem? h)
  rw [hended batch hbatch]

/-- **The lines of the first writes** are the first lines of the endless repetition. -/
theorem exists_flatMap_firstWrites (writes : ℕ) :
    ∃ k, (firstWrites sleepInterval dataset writes).flatMap (ended '\n') = endless dataset k := by
  obtain ⟨batches, hwrites, hlines, hended⟩ :=
    exists_batches_ended sleepInterval hdataset writes
  have hfirst : (firstWrites sleepInterval dataset writes).flatMap (ended '\n')
      = (batches.take writes).flatten := by
    rw [firstWrites, hwrites, ← List.map_take, List.flatMap_map, List.flatMap_def]
    refine congrArg List.flatten
      ((List.map_congr_left fun batch hbatch => ?_).trans (List.map_id _))
    exact hended batch (List.mem_of_mem_take hbatch)
  have hprefix : (batches.take writes).flatten <+: (List.replicate writes dataset).flatten := by
    rw [← hlines]
    exact ⟨(batches.drop writes).flatten, by rw [← List.flatten_append, List.take_append_drop]⟩
  refine ⟨_, hfirst.trans ((List.prefix_iff_eq_take.mp hprefix).trans
    (take_flatten_replicate ?_))⟩
  rw [← length_flatten_replicate]
  exact hprefix.length_le

end Lines

end Generator

/-! ### The whole system -/

/-- **The file is the lines that were written**, and the agent has read some of it. -/
structure Sound (sleepInterval : NNRat) (dataset : List Text) (s : Shipping) : Prop where
  file : s.file = unlines '\n' (s.log.map Prod.snd)
  ends : ∀ line ∈ s.log.map Prod.snd, '\n' ∉ line
  reads : s.tail.Reads s.file
  generator : writtenBy .generator s.log
    = (firstWrites sleepInterval dataset s.writes).flatMap (ended '\n')

section Run

variable {sleepInterval : NNRat} {dataset : List Text} {s s' : Shipping}

theorem sound_start : Sound sleepInterval dataset start :=
  ⟨rfl, fun _ hmem => absurd hmem List.not_mem_nil, ⟨Nat.le_refl 0, rfl, rfl⟩, rfl⟩

/-- Lines that a writer appends. -/
theorem Sound.appended (h : s.Sound sleepInterval dataset) (writer : Writer) {lines : List Text}
    (hlines : ∀ line ∈ lines, '\n' ∉ line) (writes : ℕ)
    (hgenerator : writtenBy .generator (s.log ++ lines.map fun line => (writer, line))
      = (firstWrites sleepInterval dataset writes).flatMap (ended '\n')) :
    Sound sleepInterval dataset { s with
      file := s.file ++ unlines '\n' lines
      writes := writes
      log := s.log ++ lines.map fun line => (writer, line) } := by
  have hlog : (s.log ++ lines.map fun line => (writer, line)).map Prod.snd
      = s.log.map Prod.snd ++ lines := by
    rw [List.map_append, List.map_map]
    exact congrArg _ (List.map_id _)
  refine ⟨?_, ?_, h.reads.append _, hgenerator⟩
  · show s.file ++ unlines '\n' lines = unlines '\n' ((s.log ++ lines.map _).map Prod.snd)
    rw [hlog, unlines_append, h.file]
  · intro line hline
    have hmem : line ∈ s.log.map Prod.snd ++ lines := hlog ▸ hline
    exact (List.mem_append.mp hmem).elim (h.ends line) (hlines line)

variable (hdataset : ∀ line ∈ dataset, '\n' ∉ line)

include hdataset

theorem sound_step {action : ShippingAction} (h : s.Sound sleepInterval dataset)
    (hstep : s.step sleepInterval dataset action = some s') :
    s'.Sound sleepInterval dataset := by
  cases action with
  | write =>
    obtain ⟨text, htext, hs'⟩ := Option.bind_eq_some_iff.mp hstep
    obtain rfl := Option.some.inj hs'
    have hlines : unlines '\n' (ended '\n' text) = text :=
      unlines_ended_nextWrite sleepInterval hdataset htext
    have hgenerator : writtenBy .generator
        (s.log ++ (ended '\n' text).map fun line => (.generator, line))
          = (firstWrites sleepInterval dataset (s.writes + 1)).flatMap (ended '\n') := by
      rw [writtenBy_append, writtenBy_map_self, h.generator, firstWrites_succ sleepInterval htext,
        List.flatMap_append, List.flatMap_singleton]
    have hsound :=
      h.appended .generator (fun _ hline => not_mem_of_mem_ended '\n' hline) _ hgenerator
    rwa [hlines] at hsound
  | append line =>
    obtain rfl := Option.some.inj hstep
    have hline : ∀ other ∈ [line.1], '\n' ∉ other := fun _ hmem =>
      (List.mem_singleton.mp hmem).symm ▸ line.2.1
    have hgenerator : writtenBy .generator (s.log ++ [line.1].map fun line => (.other, line))
        = (firstWrites sleepInterval dataset s.writes).flatMap (ended '\n') := by
      rw [writtenBy_append, writtenBy_map_of_ne (by decide), List.append_nil, h.generator]
    exact h.appended .other hline _ hgenerator
  | read n =>
    obtain rfl := Option.some.inj hstep
    exact ⟨h.file, h.ends, h.reads.read n, h.generator⟩
  | restart =>
    obtain rfl := Option.some.inj hstep
    exact ⟨h.file, h.ends, h.reads.restart, h.generator⟩

theorem sound_run {actions : List ShippingAction}
    (hrun : Lts.run (step sleepInterval dataset) actions start = some s) :
    s.Sound sleepInterval dataset :=
  Lts.run_invariant (P := fun _ => True) (fun _ _ _ h _ hstep => sound_step hdataset h hstep)
    sound_start (fun _ _ => trivial) hrun

end Run

section Handed

variable {sleepInterval : NNRat} {dataset : List Text} {s s' : Shipping}

/-- What others have written is what they have appended. -/
theorem writtenBy_other_run {actions : List ShippingAction}
    (hrun : Lts.run (step sleepInterval dataset) actions s = some s') :
    writtenBy .other s'.log
      = writtenBy .other s.log ++ actions.filterMap ShippingAction.appended := by
  induction actions generalizing s with
  | nil =>
    obtain rfl := Option.some.inj hrun
    exact (List.append_nil _).symm
  | cons action actions ih =>
    obtain ⟨t, hstep, hrest⟩ := Lts.exists_of_run_cons hrun
    rw [ih hrest]
    cases action with
    | write =>
      obtain ⟨text, -, ht⟩ := Option.bind_eq_some_iff.mp hstep
      obtain rfl := Option.some.inj ht
      show writtenBy .other (s.log ++ _) ++ _ = _
      rw [writtenBy_append, writtenBy_map_of_ne (by decide), List.append_nil]
      rfl
    | append line =>
      obtain rfl := Option.some.inj hstep
      show writtenBy .other (s.log ++ _) ++ _ = _
      rw [writtenBy_append, writtenBy_map_self, List.append_assoc]
      rfl
    | read n =>
      obtain rfl := Option.some.inj hstep
      rfl
    | restart =>
      obtain rfl := Option.some.inj hstep
      rfl

theorem Sound.ended_file (h : s.Sound sleepInterval dataset) :
    ended '\n' s.file = s.log.map Prod.snd := by
  have hended := (ended_unlines_append '\n' h.ends List.not_mem_nil).1
  rwa [List.append_nil, ← h.file] at hended

/-- What is handed on is a beginning of what was written. -/
theorem Sound.lines_prefix (h : s.Sound sleepInterval dataset) :
    s.tail.lines <+: s.log.map Prod.snd := by
  rw [h.reads.lines, ← h.ended_file]
  conv_rhs => rw [← List.take_append_drop s.tail.pos s.file, (ended_append '\n' _ _).1]
  exact List.prefix_append _ _

/-- The agent has caught up where it has read the file. -/
theorem Sound.lines_of_read (h : s.Sound sleepInterval dataset)
    (hpos : s.file.length ≤ s.tail.pos) : s.tail.lines = s.log.map Prod.snd := by
  rw [h.reads.lines, List.take_of_length_le hpos, h.ended_file]

end Handed

/-- **The agent hands on the lines that were written**: each once, none merged, split or out of
order, however the generator and others take turns in the file, into whatever pieces the
reading is cut, and however often the agent is started again. The generator's are the first
lines of the endless repetition of its dataset, the others' those they have appended; and a
piece that reaches to the end of the file makes up for everything. -/
theorem tail_hands_on_lines (sleepInterval : NNRat) {content : Option Text} {dataset : List Text}
    (hload : loadDataset content = .ok dataset) {actions : List ShippingAction} {s : Shipping}
    (hrun : Lts.run (step sleepInterval dataset) actions start = some s) :
    s.tail.lines <+: s.log.map Prod.snd ∧
      (∃ k, writtenBy .generator s.log = endless dataset k) ∧
      writtenBy .other s.log = actions.filterMap ShippingAction.appended ∧
      ∀ n, s.file.length ≤ s.tail.pos + n → ∃ s', s.step sleepInterval dataset (.read n) = some s' ∧
        s'.tail.lines = s.log.map Prod.snd := by
  have hdataset := not_mem_of_loadDataset hload
  have hsound := sound_run hdataset hrun
  refine ⟨hsound.lines_prefix, ?_, ?_, fun n hn => ⟨_, rfl, ?_⟩⟩
  · obtain ⟨k, hk⟩ := exists_flatMap_firstWrites sleepInterval hdataset s.writes
    exact ⟨k, hsound.generator.trans hk⟩
  · rw [writtenBy_other_run hrun]
    rfl
  · have hstep : s.step sleepInterval dataset (.read n)
        = some { s with tail := s.tail.read ((s.file.drop s.tail.pos).take n) } := rfl
    have hread := sound_step hdataset hsound hstep
    refine hread.lines_of_read ?_
    show s.file.length ≤ s.tail.pos + ((s.file.drop s.tail.pos).take n).length
    rw [List.length_take, List.length_drop]
    omega

/-- A dataset of one line. -/
theorem loadDataset_one : loadDataset (some "ok\n".toList) = .ok ["ok".toList] := by
  rw [loadDataset_some]
  decide

/-- The generator writes; the agent reads a part of the line, is started again, and reads on
behind a line that was appended meanwhile. -/
theorem tail_hands_on_lines_interrupted :
    ∃ s, Lts.run (step 0 ["ok".toList])
        [.write, .read 1, .restart, .append ⟨"probe".toList, by decide⟩, .read 4] start = some s ∧
      s.tail.lines <+: s.log.map Prod.snd ∧ writtenBy .other s.log = ["probe".toList] := by
  obtain ⟨s, hrun⟩ : ∃ s, Lts.run (step 0 ["ok".toList]) [.write, .read 1, .restart,
      .append ⟨"probe".toList, by decide⟩, .read 4] start = some s := ⟨_, rfl⟩
  have hhanded := tail_hands_on_lines 0 loadDataset_one hrun
  exact ⟨s, hrun, hhanded.1, hhanded.2.2.1⟩

end Shipping

end Fluentd

end AiopsLog
