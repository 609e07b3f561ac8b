import AiopsLog.Chaos.LatencyProbe
import AiopsLog.Fluentd.Lakehouse
import AiopsLog.Fluentd.Tail
import AiopsLog.Lib.Decimal
import AiopsLog.Numerals

/-!
# The probe in the log

Before the probe publishes its alert it appends a line to the log file, and then looks for the
line in the topic that the collector ships it to. The line is in the layout of BGL, so the
collector takes it apart like any other: it is sent as a record without an anomaly, and with the
identifier of the probe in its message (`AiopsLog.LatencyProbe.probe_line_emitted`).

The consumer that looks for it begins at the end of each partition, and is made after the line
was written. What it finds is therefore not the line but whatever has the identifier in it and
comes late enough: the check holds exactly if such a message was read from where the consumer
was placed (`AiopsLog.LatencyProbe.scan_found_iff`), and a line that is shipped faster than the
consumer is placed makes the scenario fail. The search with the console consumer begins at the
beginning, and misses nothing.
-/

namespace AiopsLog

namespace LatencyProbe

/-! ### The line -/

/-- A digit of `str(uuid4())`. -/
def isHexDigit (c : Char) : Bool := c.isDigit || ('a' ≤ c && c ≤ 'f')

/-- `str(uuid.uuid4())[:8]`. -/
structure ProbeId where
  text : Text
  length : text.length = 8
  hex : ∀ c ∈ text, isHexDigit c = true

/-- The words of the `log_line` of `_inject_probe_log` at the time `ts`. -/
def words (ts : ℕ) (probeId : ProbeId) : List Text :=
  ["-".toList, decimal ts, "R00-M0-NB0".toList, "R00-M0-NB0".toList,
    "2005-06-03-15.42.".toList ++ Decimal.padded 2 (ts % 60) ++ ".836000".toList,
    "R00-M0-NB0-NB0".toList, "RAS".toList, "PROBE_MSG".toList,
    "CHAOS_PROBE_ID=".toList ++ probeId.text, "latency_test=1".toList]

/-- The `log_line`. -/
def logLine (ts : ℕ) (probeId : ProbeId) : Text := [' '].intercalate (words ts probeId)

section Line

open Fluentd

theorem nonSpace_of_isHexDigit {c : Char} (h : isHexDigit c = true) : nonSpace c = true := by
  by_contra hspace
  rw [nonSpace, Bool.not_eq_true', Bool.not_eq_false, isSpace, List.contains_iff_mem] at hspace
  simp only [List.mem_cons, List.not_mem_nil, or_false] at hspace
  rcases hspace with rfl | rfl | rfl | rfl | rfl | rfl <;> exact absurd h (by decide)

theorem nonSpace_of_isDigit {c : Char} (h : c.isDigit = true) : nonSpace c = true := by
  rw [nonSpace, digit_not_space h, Bool.not_false]

/-- The time of the line: that of the example, but for the seconds. -/
def probeTimestamp (ts : ℕ) : Text :=
  "2005-06-03-15.42.".toList ++ Decimal.padded 2 (ts % 60) ++ ".836000".toList

theorem token_probeTimestamp (ts : ℕ) :
    probeTimestamp ts ≠ [] ∧ ∀ x ∈ probeTimestamp ts, nonSpace x = true := by
  have hfront : ∀ x ∈ "2005-06-03-15.42.".toList, nonSpace x = true := by simp [nonSpace, isSpace]
  have hback : ∀ x ∈ ".836000".toList, nonSpace x = true := by simp [nonSpace, isSpace]
  have hseconds : ts % 60 < 10 ^ 2 := by omega
  refine ⟨List.append_ne_nil_of_right_ne_nil _ (by decide), fun x hx => ?_⟩
  rcases List.mem_append.mp hx with hx | hx
  · exact (List.mem_append.mp hx).elim (hfront x) fun hx =>
      nonSpace_of_isDigit (Decimal.isDigit_of_mem_padded hseconds hx)
  · exact hback x hx

theorem token_probeLevel (probeId : ProbeId) :
    "CHAOS_PROBE_ID=".toList ++ probeId.text ≠ [] ∧
      ∀ x ∈ "CHAOS_PROBE_ID=".toList ++ probeId.text, nonSpace x = true := by
  have hfront : ∀ x ∈ "CHAOS_PROBE_ID=".toList, nonSpace x = true := by simp [nonSpace, isSpace]
  refine ⟨List.append_ne_nil_of_left_ne_nil (by decide) _, fun x hx => ?_⟩
  exact (List.mem_append.mp hx).elim (hfront x) fun hx => nonSpace_of_isHexDigit (probeId.hex x hx)

theorem token_alertCode : "-".toList ≠ [] ∧ ∀ x ∈ "-".toList, nonSpace x = true := by
  simp [nonSpace, isSpace]

theorem token_recordType : "RAS".toList ≠ [] ∧ ∀ x ∈ "RAS".toList, nonSpace x = true := by
  simp [nonSpace, isSpace]

theorem gap_blank : (" ".toList ≠ [] ∧ ∀ x ∈ " ".toList, isSpace x = true) ∧ '\n' ∉ " ".toList := by
  simp [isSpace]

/-- The line by its columns. -/
def probeLine (ts : ℕ) (probeId : ProbeId) : BglLine where
  alertCode := ⟨"-".toList, token_alertCode⟩
  epoch := ⟨decimal ts, decimal_ne_nil ts, fun _ => isDigit_of_mem_decimal⟩
  date := ⟨"R00-M0-NB0".toList, by simp [nonSpace, isSpace]⟩
  node := ⟨"R00-M0-NB0".toList, by simp [nonSpace, isSpace]⟩
  timestamp := ⟨probeTimestamp ts, token_probeTimestamp ts⟩
  nodeRepeat := ⟨"R00-M0-NB0-NB0".toList, by simp [nonSpace, isSpace]⟩
  recordType := ⟨"RAS".toList, token_recordType⟩
  component := ⟨"PROBE_MSG".toList, by simp [nonSpace, isSpace]⟩
  level := ⟨"CHAOS_PROBE_ID=".toList ++ probeId.text, token_probeLevel probeId⟩
  message := ⟨"latency_test=1".toList, by decide⟩
  gap _ := ⟨" ".toList, gap_blank⟩

theorem text_probeLine (ts : ℕ) (probeId : ProbeId) :
    (probeLine ts probeId).text = logLine ts probeId := rfl

theorem nonSpace_of_mem_words (ts : ℕ) (probeId : ProbeId) :
    ∀ word ∈ words ts probeId, ∀ c ∈ word, nonSpace c = true := by
  have hmessage : ∀ c ∈ "latency_test=1".toList, nonSpace c = true := by simp [nonSpace, isSpace]
  simp only [words, List.forall_mem_cons]
  exact ⟨(probeLine ts probeId).alertCode.2.2,
    fun _ hc => nonSpace_of_isDigit (isDigit_of_mem_decimal hc),
    (probeLine ts probeId).date.2.2, (probeLine ts probeId).node.2.2,
    (token_probeTimestamp ts).2, (probeLine ts probeId).nodeRepeat.2.2,
    (probeLine ts probeId).recordType.2.2, (probeLine ts probeId).component.2.2,
    (token_probeLevel probeId).2, hmessage, fun _ hmem => absurd hmem List.not_mem_nil⟩

/-- White space but blanks is not in the line. -/
theorem not_mem_logLine (ts : ℕ) (probeId : ProbeId) {c : Char} (hc : nonSpace c = false)
    (hblank : c ≠ ' ') : c ∉ logLine ts probeId := by
  rw [logLine, Lines.mem_intercalate_iff ' ' hblank]
  rintro ⟨word, hword, hmem⟩
  exact Bool.false_ne_true (hc.symm.trans (nonSpace_of_mem_words ts probeId word hword c hmem))

/-- The line, as `echo` appends it. -/
def echoLine (ts : ℕ) (probeId : ProbeId) : EchoLine :=
  ⟨logLine ts probeId, not_mem_logLine ts probeId rfl (by decide),
    not_mem_logLine ts probeId rfl (by decide)⟩

/-! ### The record -/

/-- A character that stands in a JSON string as it is. -/
def isPlain (c : Char) : Bool := c.isAlphanum || [' ', '_', '='].contains c

/-- **A formatter of records** writes a string that needs no escape as it is. -/
def Renders (json : Record → Text) : Prop :=
  ∀ record key text, record.lookup key = some (.str text) → (∀ c ∈ text, isPlain c = true) →
    text <:+: json record

/-- The message that is emitted of the line. -/
def probeMessage (probeId : ProbeId) : Text :=
  "CHAOS_PROBE_ID=".toList ++ probeId.text ++ [' '] ++ "latency_test=1".toList

theorem isPlain_of_isHexDigit {c : Char} (h : isHexDigit c = true) : isPlain c = true := by
  rw [isHexDigit, Bool.or_eq_true, Bool.and_eq_true, decide_eq_true_eq, decide_eq_true_eq] at h
  have hletter : c.isAlphanum = true := by
    show (c.isAlpha || c.isDigit) = true
    rcases h with hdigit | ⟨hge, hle⟩
    · rw [hdigit, Bool.or_true]
    · have hlower : c.isLower = true := by
        have hz : c.val ≤ 'z'.val := UInt32.le_trans hle (by decide)
        exact Bool.and_eq_true_iff.mpr ⟨decide_eq_true hge, decide_eq_true hz⟩
      show ((c.isUpper || c.isLower) || c.isDigit) = true
      rw [hlower, Bool.or_true, Bool.true_or]
  rw [isPlain, hletter, Bool.true_or]

theorem isPlain_probeMessage (probeId : ProbeId) :
    ∀ c ∈ probeMessage probeId, isPlain c = true := by
  have hfront : "CHAOS_PROBE_ID=".toList.all isPlain = true := by decide
  have hback : "latency_test=1".toList.all isPlain = true := by decide
  intro c hc
  rcases List.mem_append.mp hc with hc | hc
  · rcases List.mem_append.mp hc with hc | hc
    · rcases List.mem_append.mp hc with hc | hc
      · exact List.all_eq_true.mp hfront c hc
      · exact isPlain_of_isHexDigit (probeId.hex c hc)
    · rw [List.mem_singleton.mp hc]
      rfl
  · exact List.all_eq_true.mp hback c hc

/-- The epoch is the time of the injection. -/
theorem decimal_decimal (n : ℕ) : Fluentd.decimal (decimal n) = n := by
  have hvalue : Fluentd.decimal (decimal n) = Nat.ofDigitChars 10 (decimal n) 0 := rfl
  rw [hvalue]
  exact Nat.ofDigitChars_ten_toDigits

/-- **What the collector makes of the line.** -/
structure FromProbe (upcase : Text → Text) (ts : ℕ) (probeId : ProbeId) (record : Record) :
    Prop where
  epoch : record.lookup "epoch" = some (.int ts)
  isAnomaly : record.lookup "is_anomaly" = some (.int 0)
  component : record.lookup "component" = some (.str "RAS".toList)
  severity : record.lookup "severity" = some (.str (upcase "PROBE_MSG".toList))
  message : record.lookup "message" = some (.str (probeMessage probeId))

theorem exists_fromProbe (upcase : Text → Text) (ingestedAt : Text) (ts : ℕ) (probeId : ProbeId) :
    ∃ record, emit upcase ingestedAt (logLine ts probeId) = some record ∧
      FromProbe upcase ts probeId record := by
  rw [← text_probeLine]
  refine ⟨_, (probeLine ts probeId).emit_text upcase ingestedAt, ?_, ?_, rfl, rfl, rfl⟩
  · have hepoch : ((probeLine ts probeId).asLine.record upcase ingestedAt).lookup "epoch"
        = some (.int (Fluentd.decimal (decimal ts))) := rfl
    rw [hepoch, decimal_decimal]
  · have hflag : ((probeLine ts probeId).asLine.record upcase ingestedAt).lookup "is_anomaly"
        = some (.int (if "-".toList = "-".toList then 0 else 1)) := rfl
    rw [hflag, if_pos rfl]

/-- What others append is in the file. -/
theorem mem_lines_of_append {sleepInterval : NNRat} {dataset : List Text}
    {actions : List ShippingAction} {s : Shipping} (hdataset : ∀ line ∈ dataset, '\n' ∉ line)
    (hrun : Lts.run (Shipping.step sleepInterval dataset) actions Shipping.start = some s)
    (hread : s.file.length ≤ s.tail.pos) {line : EchoLine} (happend : .append line ∈ actions) :
    line.1 ∈ s.tail.lines := by
  have hother : line.1 ∈ Shipping.writtenBy .other s.log := by
    rw [Shipping.writtenBy_other_run hrun]
    exact List.mem_append_right _ (List.mem_filterMap.mpr ⟨_, happend, rfl⟩)
  rw [(Shipping.sound_run hdataset hrun).lines_of_read hread]
  exact List.map_subset _ (List.filter_subset_self _) hother

/-- **The line of the probe is emitted into the buffer of the collector.** Once it has read the
file in which the line was appended, whoever else has written there and however the reading was
cut and interrupted, a record of it is among those that are emitted: one that is no anomaly, has
the injection's time as its epoch, is of the component `RAS` and the severity `PROBE_MSG`, and
has the identifier in its text. -/
theorem probe_line_emitted {json : Record → Text} (hjson : Renders json) (upcase : Text → Text)
    (clock : ℕ → Text) (sleepInterval : NNRat) {content : Option Text} {dataset : List Text}
    (hload : LogReplay.loadDataset content = .ok dataset) {actions : List ShippingAction}
    {s : Shipping}
    (hrun : Lts.run (Shipping.step sleepInterval dataset) actions Shipping.start = some s)
    (hread : s.file.length ≤ s.tail.pos) {ts : ℕ} {probeId : ProbeId}
    (happend : .append (echoLine ts probeId) ∈ actions) :
    ∃ record ∈ records upcase clock s.tail.lines,
      FromProbe upcase ts probeId record ∧ probeId.text <:+: json record := by
  have hmem : logLine ts probeId ∈ s.tail.lines :=
    mem_lines_of_append (LogReplay.not_mem_of_loadDataset hload) hrun hread happend
  obtain ⟨i, hi⟩ := List.mem_iff_getElem?.mp hmem
  obtain ⟨record, hemit, hrecord⟩ := exists_fromProbe upcase (clock i) ts probeId
  refine ⟨record, ?_, hrecord, ?_⟩
  · exact List.mem_filterMap.mpr ⟨_, List.mk_mem_zipIdx_iff_getElem?.mpr hi, hemit⟩
  · have hmessage : probeId.text <:+: probeMessage probeId :=
      (List.infix_append _ _ _).trans (List.prefix_append _ _).isInfix
    have htext : probeMessage probeId <:+: json record :=
      hjson record "message" _ hrecord.message (isPlain_probeMessage probeId)
    exact hmessage.trans htext

/-- What stands for a character in a JSON string, that of a control character apart. -/
def escape (c : Char) : Text := if c = '"' ∨ c = '\\' then ['\\', c] else [c]

/-- A value as JSON. -/
def jsonValue : Value → Text
  | .str text => ['"'] ++ text.flatMap escape ++ ['"']
  | .int n => (toString n).toList
  | .nil => "null".toList

/-- The fields of a record as JSON, one after the other. -/
def jsonFields (record : Record) : Text :=
  (record.map fun (key, value) =>
    ['"'] ++ key.toList ++ ['"', ':'] ++ (jsonValue value ++ [','])).flatten

theorem renders_jsonFields : Renders jsonFields := by
  intro record key text hlookup hplain
  have hescape : text.flatMap escape = text := by
    have hkept : text.flatMap escape = text.flatMap fun c => [c] := by
      refine List.flatMap_congr fun c hc => if_neg ?_
      rintro (rfl | rfl) <;> exact absurd (hplain _ hc) (by decide)
    rw [hkept, List.flatMap_singleton']
  have hvalue : text <:+: jsonValue (.str text) := by
    have hquoted : text.flatMap escape <:+: jsonValue (.str text) := List.infix_append _ _ _
    rwa [hescape] at hquoted
  obtain ⟨before, after, rfl, -⟩ := List.lookup_eq_some_iff.mp hlookup
  have hfield : jsonValue (.str text) <:+:
      ['"'] ++ key.toList ++ ['"', ':'] ++ (jsonValue (.str text) ++ [',']) :=
    (List.prefix_append _ _).isInfix.trans (List.suffix_append _ _).isInfix
  refine (hvalue.trans hfield).trans (List.infix_of_mem_flatten ?_)
  exact List.mem_map.mpr ⟨(key, .str text), List.mem_append_right _ List.mem_cons_self, rfl⟩

theorem hex_sample : ∀ c ∈ "0a1b2c3d".toList, isHexDigit c = true := by
  have hall : "0a1b2c3d".toList.all isHexDigit = true := by decide
  exact List.all_eq_true.mp hall

/-- The identifier of a probe. -/
def sampleProbe : ProbeId := ⟨"0a1b2c3d".toList, rfl, hex_sample⟩

/-- A file with the line of the probe in it. -/
def probeFile : Text := Lines.unlines '\n' [logLine 90 sampleProbe]

/-- The line is appended, and the file is read. -/
def probeShipping : List ShippingAction :=
  [.append (echoLine 90 sampleProbe), .read probeFile.length]

/-- What they lead to. -/
def probeRead : Shipping :=
  ⟨probeFile, 0, Tail.read ⟨0, [], []⟩ probeFile, [(.other, logLine 90 sampleProbe)]⟩

theorem run_probeShipping :
    Lts.run (Shipping.step 0 ["ok".toList]) probeShipping Shipping.start = some probeRead := by
  have htake : (probeFile.drop 0).take probeFile.length = probeFile := by
    rw [List.drop_zero, List.take_length]
  have happend : Shipping.start.step 0 ["ok".toList] (.append (echoLine 90 sampleProbe))
      = some ⟨probeFile, 0, ⟨0, [], []⟩, [(.other, logLine 90 sampleProbe)]⟩ := rfl
  have hread : Shipping.step 0 ["ok".toList]
      ⟨probeFile, 0, ⟨0, [], []⟩, [(.other, logLine 90 sampleProbe)]⟩ (.read probeFile.length)
        = some ⟨probeFile, 0, Tail.read ⟨0, [], []⟩ ((probeFile.drop 0).take probeFile.length),
          [(.other, logLine 90 sampleProbe)]⟩ := rfl
  rw [htake] at hread
  exact (Lts.run_cons happend).trans (Lts.run_cons hread)

theorem length_probeFile : probeRead.file.length ≤ probeRead.tail.pos := by
  have hpos : ∀ piece : Text, piece.length ≤ (Tail.read ⟨0, [], []⟩ piece).pos := fun piece =>
    Nat.le_add_left piece.length 0
  exact hpos probeFile

theorem probe_line_emitted_read :
    ∃ record ∈ records (·.map Char.toUpper) (fun _ => []) probeRead.tail.lines,
      FromProbe (·.map Char.toUpper) 90 sampleProbe record ∧
        sampleProbe.text <:+: jsonFields record :=
  probe_line_emitted renders_jsonFields _ _ 0 Shipping.loadDataset_one run_probeShipping
    length_probeFile List.mem_cons_self

end Line

/-! ### The search -/

/-- `_scan_kafka_docker`, of what the console consumer has printed, at the time it returns. -/
def scanKafkaDocker (probeId : ProbeId) (result : CompletedProcess) (now : Instant) :
    Option Instant :=
  if probeId.text <:+: result.stdout then some now else none

/-- Where `_scan_kafka_for_probe` stands. -/
inductive Scan where
  | scanning : Scan
  | returned : Option Instant → Scan

/-- A topic of some partitions, and the search in it. Of a partition in which the consumer has
been placed, `position` has the offset it was placed at, and the one it reads next. -/
structure Search (P : Type) where
  topic : P → List Text
  position : P → Option (ℕ × ℕ)
  scan : Scan

/-- A message is appended to a partition; the consumer is placed in one, or gets a message from
it, at some time; or it gets none for too long. -/
inductive SearchAction (P : Type) where
  | append : P → Text → SearchAction P
  | place : P → SearchAction P
  | message : P → Instant → SearchAction P
  | timeout : SearchAction P

namespace Search

variable {P : Type}

/-- Before the consumer has been placed anywhere. -/
def start (topic : P → List Text) : Search P := ⟨topic, fun _ => none, .scanning⟩

/-- The step of the search, and of those that send messages. -/
def step [DecidableEq P] (probeId : ProbeId) (deadline : ℚ) (s : Search P) :
    SearchAction P → Option (Search P)
  | .append p value => some { s with topic := Function.update s.topic p (s.topic p ++ [value]) }
  -- `auto_offset_reset="latest"`
  | .place p => match s.position p with
    | none => some { s with
        position := Function.update s.position p (some ((s.topic p).length, (s.topic p).length)) }
    | some _ => none
  | .message p now => match s.scan, s.position p with
    | .scanning, some (first, next) => do
      let value ← (s.topic p)[next]?
      let position := Function.update s.position p (some (first, next + 1))
      if probeId.text <:+: value then pure { s with position, scan := .returned (some now) }
      else if deadline < now then pure { s with position, scan := .returned none }
      else pure { s with position }
    | _, _ => none
  | .timeout => match s.scan with
    | .scanning => some { s with scan := .returned none }
    | .returned _ => none

/-- What the consumer has read of a partition. -/
def read (s : Search P) (p : P) : List Text :=
  match s.position p with
  | some (first, next) => ((s.topic p).take next).drop first
  | none => []

/-- What has been appended to a partition since the consumer was placed in it. -/
def late (s : Search P) (p : P) : List Text :=
  match s.position p with
  | some (first, _) => (s.topic p).drop first
  | none => []

/-- The search has found a message. -/
def Found (s : Search P) : Prop := ∃ t, s.scan = .returned (some t)

/-- The consumer reads no further than the partition goes, and **has found the probe exactly if it
is in what has been read.** -/
structure Sound (probeId : ProbeId) (s : Search P) : Prop where
  bounds : ∀ p first next, s.position p = some (first, next) →
    first ≤ next ∧ next ≤ (s.topic p).length
  found : s.Found ↔ ∃ p, ∃ value ∈ s.read p, probeId.text <:+: value

section Reading

variable {s s' : Search P} {p : P} {first next : ℕ}

theorem read_of_position (h : s.position p = some (first, next)) :
    s.read p = ((s.topic p).take next).drop first := by
  rw [read, h]

theorem read_of_none (h : s.position p = none) : s.read p = [] := by rw [read, h]

theorem read_congr (hposition : s'.position p = s.position p) (htopic : s'.topic p = s.topic p) :
    s'.read p = s.read p := by
  rw [read, read, hposition, htopic]

/-- What has been read has come late enough. -/
theorem mem_late_of_mem_read {value : Text} (h : value ∈ s.read p) : value ∈ s.late p := by
  rcases hposition : s.position p with _ | ⟨first, next⟩
  · rw [read_of_none hposition] at h
    exact absurd h List.not_mem_nil
  · rw [read_of_position hposition, List.drop_take] at h
    rw [late, hposition]
    exact List.mem_of_mem_take h

end Reading

section Step

variable {probeId : ProbeId} {deadline : ℚ} {s s' : Search P}

theorem sound_start (topic : P → List Text) : Sound probeId (start topic) where
  bounds _ _ _ h := absurd h.symm (Option.some_ne_none _)
  found := by
    refine iff_of_false (fun ⟨t, h⟩ => Scan.noConfusion h) ?_
    rintro ⟨p, value, hmem, -⟩
    exact absurd hmem List.not_mem_nil

/-- A step after which as much has been read, and as little found, as before. -/
theorem Sound.of_read (h : s.Sound probeId)
    (hbounds : ∀ p first next, s'.position p = some (first, next) →
      first ≤ next ∧ next ≤ (s'.topic p).length)
    (hread : ∀ p, s'.read p = s.read p) (hfound : s'.Found ↔ s.Found) : s'.Sound probeId := by
  refine ⟨hbounds, ?_⟩
  rw [hfound, h.found]
  simp only [hread]

variable [DecidableEq P]

/-- The consumer is placed, or moves, within the bounds of a partition. -/
theorem Sound.bounds_update (h : s.Sound probeId) {p : P} {first next : ℕ} (hle : first ≤ next)
    (hlength : next ≤ (s.topic p).length) : ∀ q first' next',
      Function.update s.position p (some (first, next)) q = some (first', next') →
        first' ≤ next' ∧ next' ≤ (s.topic q).length := by
  intro q first' next' hq
  by_cases hqp : q = p
  · subst hqp
    rw [Function.update_self] at hq
    obtain ⟨rfl, rfl⟩ := Prod.mk.inj (Option.some.inj hq)
    exact ⟨hle, hlength⟩
  · rw [Function.update_of_ne hqp] at hq
    exact h.bounds q first' next' hq

/-- **The next message of a partition is read.** -/
theorem Sound.message (h : s.Sound probeId) (hscan : s.scan = .scanning) {p : P} {first next : ℕ}
    (hposition : s.position p = some (first, next)) {value : Text}
    (hvalue : (s.topic p)[next]? = some value) {scan : Scan}
    (hfound : (∃ t, scan = .returned (some t)) ↔ probeId.text <:+: value) :
    Sound probeId { s with
      position := Function.update s.position p (some (first, next + 1)), scan := scan } := by
  obtain ⟨hle, -⟩ := h.bounds p first next hposition
  obtain ⟨hlt, -⟩ := List.getElem?_eq_some_iff.mp hvalue
  have hbefore : ∀ q, ∀ other ∈ s.read q, ¬probeId.text <:+: other := by
    intro q other hmem hin
    obtain ⟨t, ht⟩ := h.found.mpr ⟨q, other, hmem, hin⟩
    rw [hscan] at ht
    exact Scan.noConfusion ht
  have hsame : ∀ q, q ≠ p → read { s with
      position := Function.update s.position p (some (first, next + 1)), scan := scan } q
        = s.read q := fun q hq => read_congr (Function.update_of_ne hq _ _) rfl
  have hmore : read { s with
      position := Function.update s.position p (some (first, next + 1)), scan := scan } p
        = s.read p ++ [value] := by
    have hlength : first ≤ ((s.topic p).take next).length := by
      rw [List.length_take]
      omega
    rw [read_of_position (Function.update_self p _ s.position), read_of_position hposition,
      List.take_add_one, hvalue, List.drop_append_of_le_length hlength]
    rfl
  refine ⟨h.bounds_update (hle.trans (Nat.le_succ _)) hlt, hfound.trans ⟨fun hin => ?_, ?_⟩⟩
  · exact ⟨p, value, hmore ▸ List.mem_append_right _ (List.mem_singleton_self _), hin⟩
  · rintro ⟨q, other, hmem, hin⟩
    by_cases hqp : q = p
    · subst hqp
      rw [hmore] at hmem
      rcases List.mem_append.mp hmem with hmem | hmem
      · exact absurd hin (hbefore q other hmem)
      · rwa [← List.mem_singleton.mp hmem]
    · rw [hsame q hqp] at hmem
      exact absurd hin (hbefore q other hmem)

theorem sound_step {action : SearchAction P} (h : s.Sound probeId)
    (hstep : s.step probeId deadline action = some s') : s'.Sound probeId := by
  cases action with
  | append p value =>
    obtain rfl := Option.some.inj hstep
    have htopic : ∀ q, s.topic q <+: Function.update s.topic p (s.topic p ++ [value]) q := by
      intro q
      by_cases hqp : q = p
      · subst hqp
        rw [Function.update_self]
        exact List.prefix_append _ _
      · rw [Function.update_of_ne hqp]
    refine h.of_read (fun q first next hq => ?_) (fun q => ?_) Iff.rfl
    · obtain ⟨hle, hlength⟩ := h.bounds q first next hq
      exact ⟨hle, hlength.trans (htopic q).length_le⟩
    · rcases hq : s.position q with _ | ⟨first, next⟩
      · exact Eq.trans (read_of_none hq) (read_of_none hq).symm
      · obtain ⟨more, hmore⟩ := htopic q
        refine Eq.trans (read_of_position hq) ?_
        dsimp only
        rw [← hmore, List.take_append_of_le_length (h.bounds q first next hq).2,
          read_of_position hq]
  | place p =>
    simp only [step] at hstep
    split at hstep
    · next hnone =>
      obtain rfl := Option.some.inj hstep
      refine h.of_read (h.bounds_update (Nat.le_refl _) (Nat.le_refl _)) (fun q => ?_) Iff.rfl
      · by_cases hqp : q = p
        · subst hqp
          rw [read_of_none hnone, read_of_position (Function.update_self q _ s.position)]
          dsimp only
          rw [List.take_length, List.drop_length]
        · exact read_congr (Function.update_of_ne hqp _ _) rfl
    · exact absurd hstep.symm (Option.some_ne_none _)
  | message p now =>
    simp only [step] at hstep
    split at hstep
    · next first next hscan hposition =>
      obtain ⟨value, hvalue, hstep⟩ := Option.bind_eq_some_iff.mp hstep
      split at hstep
      · next hin =>
        obtain rfl := Option.some.inj hstep
        exact h.message hscan hposition hvalue (iff_of_true ⟨now, rfl⟩ hin)
      · next hnot =>
        split at hstep
        · obtain rfl := Option.some.inj hstep
          exact h.message hscan hposition hvalue
            (iff_of_false (fun ⟨t, ht⟩ => Option.some_ne_none t (Scan.returned.inj ht).symm) hnot)
        · obtain rfl := Option.some.inj hstep
          exact h.message hscan hposition hvalue
            (iff_of_false (fun ⟨t, ht⟩ => Scan.noConfusion (hscan.symm.trans ht)) hnot)
    · exact absurd hstep.symm (Option.some_ne_none _)
  | timeout =>
    simp only [step] at hstep
    split at hstep
    · next hscan =>
      obtain rfl := Option.some.inj hstep
      refine h.of_read h.bounds (fun q => rfl) (iff_of_false ?_ ?_)
      · exact fun ⟨t, ht⟩ => Option.some_ne_none t (Scan.returned.inj ht).symm
      · exact fun ⟨t, ht⟩ => Scan.noConfusion (hscan.symm.trans ht)
    · exact absurd hstep.symm (Option.some_ne_none _)

theorem sound_run {topic : P → List Text} {actions : List (SearchAction P)}
    (hrun : Lts.run (step probeId deadline) actions (start topic) = some s) : s.Sound probeId :=
  Lts.run_invariant (P := fun _ => True) (fun _ _ _ h _ hstep => sound_step h hstep)
    (sound_start topic) (fun _ _ => trivial) hrun

/-- **What the search finds.** When it has returned, the check for the probe in Kafka holds
exactly if the identifier is in a message it has read, from where it was placed. If the identifier
is in no message that came after that, the scenario fails, whatever else it finds; while the
fallback finds the identifier wherever it is in the topic. -/
theorem scan_found_iff {topic : P → List Text} {actions : List (SearchAction P)}
    (hrun : Lts.run (step probeId deadline) actions (start topic) = some s)
    {result : Option Instant} (hreturned : s.scan = .returned result) {found : Findings}
    (hfound : found.tKafka = result) (tWs : Option Instant) :
    ((run found tWs).checks.probeFoundInKafka = true ↔
      ∃ p, ∃ value ∈ s.read p, probeId.text <:+: value) ∧
    ((∀ p, ∀ value ∈ s.late p, ¬probeId.text <:+: value) → (run found tWs).passed = false) ∧
    ∀ (values : List Text) (now : Instant), (∀ value, value ∈ values ↔ ∃ p, value ∈ s.topic p) →
      ((scanKafkaDocker probeId ⟨0, Lines.unlines '\n' values⟩ now).isSome = true ↔
        ∃ p, ∃ value ∈ s.topic p, probeId.text <:+: value) := by
  have hchecked : (run found tWs).checks.probeFoundInKafka = result.isSome := by rw [← hfound]; rfl
  have hiff : (run found tWs).checks.probeFoundInKafka = true ↔
      ∃ p, ∃ value ∈ s.read p, probeId.text <:+: value := by
    rw [hchecked, ← (sound_run hrun).found, Search.Found, hreturned, Option.isSome_iff_exists]
    simp only [Scan.returned.injEq]
  refine ⟨hiff, fun hlate => ?_, fun values now hvalues => ?_⟩
  · have hnot : (run found tWs).checks.probeFoundInKafka = false := by
      rw [Bool.eq_false_iff, Ne, hiff]
      rintro ⟨p, value, hmem, hin⟩
      exact hlate p value (mem_late_of_mem_read hmem) hin
    have hpassed : (run found tWs).passed = (run found tWs).checks.all := rfl
    rw [hpassed, Checks.all, hnot]
    simp
  · have hnewline : '\n' ∉ probeId.text := fun hmem => absurd (probeId.hex _ hmem) (by decide)
    have hne : probeId.text ≠ [] := by
      intro hnil
      have hlength := probeId.length
      rw [hnil] at hlength
      exact absurd hlength (by decide)
    have hsome : (scanKafkaDocker probeId ⟨0, Lines.unlines '\n' values⟩ now).isSome = true ↔
        probeId.text <:+: Lines.unlines '\n' values := by
      rw [scanKafkaDocker]
      split
      · next hin => exact iff_of_true rfl hin
      · next hnot => exact iff_of_false Bool.false_ne_true hnot
    rw [hsome, Lines.infix_unlines_iff hnewline hne]
    constructor
    · rintro ⟨value, hmem, hin⟩
      obtain ⟨p, hp⟩ := (hvalues value).mp hmem
      exact ⟨p, value, hp, hin⟩
    · rintro ⟨p, value, hmem, hin⟩
      exact ⟨value, (hvalues value).mpr ⟨p, hmem⟩, hin⟩

end Step

/-- The probe is shipped before the consumer is placed. -/
def shippedEarly : List (SearchAction Unit) :=
  [.append () sampleProbe.text, .place (), .timeout]

/-- **It is not found**, and the scenario fails. -/
theorem scan_found_iff_shippedEarly :
    ∃ s, Lts.run (step sampleProbe 0) shippedEarly (start fun _ => []) = some s ∧
      s.topic () = [sampleProbe.text] ∧ (run silence none).passed = false := by
  obtain ⟨s, hrun, htopic, hscan, hlate⟩ :
      ∃ s, Lts.run (step sampleProbe 0) shippedEarly (start fun _ => []) = some s ∧
        s.topic () = [sampleProbe.text] ∧ s.scan = .returned none ∧ s.late () = [] :=
    ⟨_, rfl, rfl, rfl, rfl⟩
  have hfound : silence.tKafka = none := rfl
  refine ⟨s, hrun, htopic, (scan_found_iff hrun hscan hfound none).2.1 fun p value hmem => ?_⟩
  rw [hlate] at hmem
  exact absurd hmem List.not_mem_nil

end Search

end LatencyProbe

end AiopsLog
