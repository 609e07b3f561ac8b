import AiopsLog.Lib.Regexp
import AiopsLog.Text
import Mathlib.Data.Fin.VecNotation

/-!
# The ingestion of a line

The agent tails the log file, takes every line apart by one regular expression and enriches
the record of its captures. The expression is a sequence of eight fields and separators and
a message, with nothing optional in it, so that the only question is where a line is cut.

The fields and the separators are runs of characters of two kinds, and so are cut where the
kind changes, in whatever order the matcher tries its possibilities: the header of a line is
read off it in one way only. The message may contain blanks, and begin with one as far as the
expression goes; where it begins is the greed of the last separator. So the expression undoes
the writing of a line (`AiopsLog.Fluentd.expression_inverts`) as long as the message does not
begin with a blank.
-/

namespace AiopsLog

namespace Fluentd

open Regexp

/-! ### The expression -/

/-- `\s`. -/
def isSpace (x : Char) : Bool := [' ', '\t', '\r', '\n', '\x0b', '\x0c'].contains x

/-- `[^\s]`. -/
def nonSpace (x : Char) : Bool := !isSpace x

/-- The dot. -/
def anyChar (x : Char) : Bool := x != '\n'

/-- `(?<name>[^\s]+)`. -/
def field (name : String) : Plus String := ⟨some name, nonSpace⟩

/-- `\s+`. -/
def separator : Plus String := ⟨none, isSpace⟩

/-- `(?<message>.+)`. -/
def message : Plus String := ⟨some "message", anyChar⟩

/-- The expression up to `(?<severity>[^\s]+)`; `\d` is an ASCII digit. -/
def header : List (Plus String) :=
  [field "alert_code", separator, ⟨some "epoch", Char.isDigit⟩, separator, field "date_str",
    separator, field "node_id", separator, field "timestamp", separator, field "node_repeat",
    separator, field "component", separator, field "severity"]

/-- The `expression` of the `parse` section. -/
def expression : List (Atom String) :=
  .lineStart :: (header.map .plus ++ [.plus separator, .plus message, .lineEnd])

/-! ### Records -/

/-- The values of a record; an expression that raises is expanded to `nil`. -/
inductive Value where
  | str : Text → Value
  | int : ℤ → Value
  | nil : Value
  deriving DecidableEq

/-- A record is a hash, in the order of insertion. -/
abbrev Record := List (String × Value)

/-- `record[key] = value`. -/
def Record.set (record : Record) (key : String) (value : Value) : Record :=
  if (record.lookup key).isSome then
    record.map fun entry => if entry.1 = key then (key, value) else entry
  else record ++ [(key, value)]

/-- `record.delete(key)`. -/
def Record.delete (record : Record) (key : String) : Record :=
  record.filter fun entry => entry.1 ≠ key

theorem Record.lookup_set_of_ne (record : Record) {key key' : String} (h : key' ≠ key)
    (value : Value) : (record.set key value).lookup key' = record.lookup key' := by
  have hne : (key' == key) = false := beq_false_of_ne h
  rw [Record.set]
  split
  · clear * - hne
    induction record with
    | nil => rfl
    | cons entry record ih =>
      obtain ⟨key'', value'⟩ := entry
      rw [List.map_cons, List.lookup_cons, List.lookup_cons, ih]
      by_cases hkey : key'' = key
      · rw [if_pos hkey, hkey, hne]
      · rw [if_neg hkey]
  · rw [List.lookup_append, List.lookup_cons, hne]
    exact Option.or_none

theorem Record.lookup_set_self (record : Record) (key : String) (value : Value) :
    (record.set key value).lookup key = some value := by
  rw [Record.set]
  split
  · next hsome =>
    induction record with
    | nil => exact absurd hsome Bool.false_ne_true
    | cons entry record ih =>
      obtain ⟨key', value'⟩ := entry
      rw [List.map_cons]
      by_cases hkey : key' = key
      · rw [if_pos hkey, List.lookup_cons, beq_self_eq_true]
      · have hne : (key == key') = false := beq_false_of_ne fun heq => hkey heq.symm
        rw [List.lookup_cons, hne] at hsome
        rw [if_neg hkey, List.lookup_cons, hne]
        exact ih hsome
  · next hnone =>
    rw [Option.not_isSome_iff_eq_none] at hnone
    rw [List.lookup_append, hnone, List.lookup_cons, beq_self_eq_true]
    rfl

theorem Record.lookup_delete_of_ne (record : Record) {key key' : String} (h : key' ≠ key) :
    (record.delete key).lookup key' = record.lookup key' := by
  induction record with
  | nil => rfl
  | cons entry record ih =>
    obtain ⟨key'', value⟩ := entry
    rw [Record.delete] at ih ⊢
    by_cases hkey : key'' = key
    · have hne : (key' == key'') = false := beq_false_of_ne (hkey ▸ h)
      rw [List.filter_cons_of_neg (by simpa using hkey), ih, List.lookup_cons, hne]
    · rw [List.filter_cons_of_pos (by simpa using hkey), List.lookup_cons, List.lookup_cons, ih]

/-- The value of a digit. -/
def digit (x : Char) : ℕ := x.toNat - '0'.toNat

/-- The number that follows digits of the value `n`: further digits, each after at most one
underscore. -/
def readDigits (n : ℕ) : Text → ℕ
  | '_' :: x :: text => if x.isDigit then readDigits (10 * n + digit x) text else n
  | x :: text => if x.isDigit then readDigits (10 * n + digit x) text else n
  | [] => n

/-- The number a text begins with, zero if with none. -/
def readNumber : Text → ℕ
  | x :: text => if x.isDigit then readDigits (digit x) text else 0
  | [] => 0

/-- The number that digits write. -/
def decimal (digits : Text) : ℕ := digits.foldl (fun n x => 10 * n + digit x) 0

/-- `String#to_i`. -/
def toI (text : Text) : ℤ :=
  match text.dropWhile isSpace with
  | '-' :: text => -readNumber text
  | '+' :: text => readNumber text
  | text => readNumber text

/-- The value of a capture: `types epoch:integer`. -/
def convert (capture : String × Text) : String × Value :=
  (capture.1, if capture.1 = "epoch" then .int (toI capture.2) else .str capture.2)

/-- The `parse` section: the record of the captures. A line that does not match is not
emitted. -/
def parse (line : Text) : Option Record := (match? expression line).map (·.map convert)

section Filter

variable (upcase : Text → Text) (ingestedAt : Text)

/-- `record["alert_code"] != "-" ? 1 : 0`. -/
def isAnomaly (record : Record) : Value :=
  .int (if record.lookup "alert_code" = some (.str "-".toList) then 0 else 1)

/-- `(record["severity"] || "UNKNOWN").upcase`. -/
def severity (record : Record) : Value :=
  match record.lookup "severity" with
  | some (.str text) => .str (upcase text)
  | some (.int _) => .nil
  | some .nil | none => .str (upcase "UNKNOWN".toList)

/-- The filter `aiops.raw`, `upcase` being that of strings and `ingestedAt` the time as it
writes it. Its expressions are evaluated in the record that comes in. -/
def recordTransformer (record : Record) : Record :=
  ((((record.set "is_anomaly" (isAnomaly record)).set "severity" (severity upcase record)).set
    "ingested_at" (.str ingestedAt)).set "source" (.str "fluentd-agent".toList)).delete
    "node_repeat"

/-- Only one field, and the one that is removed, depends on the time. -/
theorem lookup_recordTransformer (record : Record) (ingestedAt' : Text) {key : String}
    (htime : key ≠ "ingested_at") (hremoved : key ≠ "node_repeat") :
    (recordTransformer upcase ingestedAt record).lookup key
      = (recordTransformer upcase ingestedAt' record).lookup key := by
  rw [recordTransformer, recordTransformer, Record.lookup_delete_of_ne _ hremoved,
    Record.lookup_delete_of_ne _ hremoved]
  by_cases hsource : key = "source"
  · rw [hsource, Record.lookup_set_self, Record.lookup_set_self]
  · rw [Record.lookup_set_of_ne _ hsource, Record.lookup_set_of_ne _ hsource,
      Record.lookup_set_of_ne _ htime, Record.lookup_set_of_ne _ htime]

/-- What becomes of a line. -/
def emit (line : Text) : Option Record := (parse line).map (recordTransformer upcase ingestedAt)

end Filter

/-! ### Lines -/

/-- A header field: not empty, and without whitespace. -/
abbrev Token := {t : Text // t ≠ [] ∧ ∀ x ∈ t, nonSpace x = true}

/-- Decimal digits, at least one. -/
abbrev Digits := {t : Text // t ≠ [] ∧ ∀ x ∈ t, x.isDigit = true}

/-- A separator: whitespace, at least one character, in the line. -/
abbrev Gap := {t : Text // (t ≠ [] ∧ ∀ x ∈ t, isSpace x = true) ∧ '\n' ∉ t}

/-- A message: not empty, and in the line. -/
abbrev Message := {t : Text // t ≠ [] ∧ '\n' ∉ t}

/-- A line by its parts: the header fields, the message, and what separates them. -/
structure Line where
  alertCode : Token
  epoch : Digits
  dateStr : Token
  nodeId : Token
  timestamp : Token
  nodeRepeat : Token
  component : Token
  severity : Token
  message : Message
  gap : Fin 8 → Gap

namespace Line

variable (l : Line)

/-- The line as it is written. -/
def text : Text :=
  [l.alertCode.1, (l.gap 0).1, l.epoch.1, (l.gap 1).1, l.dateStr.1, (l.gap 2).1, l.nodeId.1,
    (l.gap 3).1, l.timestamp.1, (l.gap 4).1, l.nodeRepeat.1, (l.gap 5).1, l.component.1,
    (l.gap 6).1, l.severity.1, (l.gap 7).1, l.message.1].flatten

/-- Its parts as the captures that should be made of it. -/
def captures : Captures String :=
  [("alert_code", l.alertCode.1), ("epoch", l.epoch.1), ("date_str", l.dateStr.1),
    ("node_id", l.nodeId.1), ("timestamp", l.timestamp.1), ("node_repeat", l.nodeRepeat.1),
    ("component", l.component.1), ("severity", l.severity.1), ("message", l.message.1)]

/-- The record that should be emitted of it. -/
def record (upcase : Text → Text) (ingestedAt : Text) : Record :=
  [("alert_code", .str l.alertCode.1), ("epoch", .int (decimal l.epoch.1)),
    ("date_str", .str l.dateStr.1), ("node_id", .str l.nodeId.1),
    ("timestamp", .str l.timestamp.1), ("component", .str l.component.1),
    ("severity", .str (upcase l.severity.1)), ("message", .str l.message.1),
    ("is_anomaly", .int (if l.alertCode.1 = "-".toList then 0 else 1)),
    ("ingested_at", .str ingestedAt), ("source", .str "fluentd-agent".toList)]

/-- The message does not begin with whitespace. -/
def MessageFlush : Prop := ∀ x ∈ l.message.1.head?, isSpace x = false

/-- What the runs of the header take of it. -/
def runs : List Text :=
  [l.alertCode.1, (l.gap 0).1, l.epoch.1, (l.gap 1).1, l.dateStr.1, (l.gap 2).1, l.nodeId.1,
    (l.gap 3).1, l.timestamp.1, (l.gap 4).1, l.nodeRepeat.1, (l.gap 5).1, l.component.1,
    (l.gap 6).1, l.severity.1]

theorem text_eq : l.text = l.runs.flatten ++ ((l.gap 7).1 ++ l.message.1) := by
  have hsplit : l.text = (l.runs ++ [(l.gap 7).1, l.message.1]).flatten := rfl
  rw [hsplit, List.flatten_append, List.flatten_cons, List.flatten_singleton]

theorem captures_eq :
    l.captures = Regexp.captures header l.runs ++
      (separator.capture (l.gap 7).1 ++ Fluentd.message.capture l.message.1) := rfl

theorem takes_runs : List.Forall₂ Plus.Takes header l.runs :=
  .cons l.alertCode.2 <| .cons (l.gap 0).2.1 <| .cons l.epoch.2 <| .cons (l.gap 1).2.1 <|
    .cons l.dateStr.2 <| .cons (l.gap 2).2.1 <| .cons l.nodeId.2 <| .cons (l.gap 3).2.1 <|
    .cons l.timestamp.2 <| .cons (l.gap 4).2.1 <| .cons l.nodeRepeat.2 <| .cons (l.gap 5).2.1 <|
    .cons l.component.2 <| .cons (l.gap 6).2.1 <| .cons l.severity.2 .nil

theorem takes_gap : separator.Takes (l.gap 7).1 := (l.gap 7).2.1

theorem takes_message : Fluentd.message.Takes l.message.1 := by
  refine ⟨l.message.2.1, fun x hx => ?_⟩
  show anyChar x = true
  rw [anyChar, bne_iff_ne]
  rintro rfl
  exact l.message.2.2 hx

/-- A line has no newline in it. -/
theorem newline_not_mem_text : '\n' ∉ l.text := by
  have htoken : ∀ t : Token, '\n' ∉ t.1 := fun t ht => absurd (t.2.2 _ ht) (by decide)
  have hdigits : '\n' ∉ l.epoch.1 := fun ht => absurd (l.epoch.2.2 _ ht) (by decide)
  simp [text, htoken, hdigits, (l.gap _).2.2, l.message.2.2]

end Line

/-- The runs of a header and what follows them are those of a line. -/
theorem exists_line {ts : List Text} {t rest : Text} (hts : List.Forall₂ Plus.Takes header ts)
    (ht : separator.Takes t) (hrest : rest ≠ [])
    (hline : '\n' ∉ ts.flatten ++ (t ++ rest)) :
    ∃ l : Line, l.runs = ts ∧ (l.gap 7).1 = t ∧ l.message.1 = rest := by
  have hpiece : ∀ u ∈ ts, '\n' ∉ u := fun u hu hmem =>
    hline (List.mem_append_left _ (List.mem_flatten.mpr ⟨u, hu, hmem⟩))
  rw [List.mem_append, List.mem_append, not_or, not_or] at hline
  obtain _ | ⟨a0, _ | ⟨g0, _ | ⟨a1, _ | ⟨g1, _ | ⟨a2, _ | ⟨g2, _ | ⟨a3, _ | ⟨g3, _ | ⟨a4, _ | ⟨g4,
    _ | ⟨a5, _ | ⟨g5, _ | ⟨a6, _ | ⟨g6, _ | ⟨a7, _ | _⟩⟩⟩⟩⟩⟩⟩⟩⟩⟩⟩⟩⟩⟩⟩ := hts
  exact ⟨⟨⟨_, a0⟩, ⟨_, a1⟩, ⟨_, a2⟩, ⟨_, a3⟩, ⟨_, a4⟩, ⟨_, a5⟩, ⟨_, a6⟩, ⟨_, a7⟩,
    ⟨rest, hrest, hline.2.2⟩,
    ![⟨_, g0, hpiece _ (by simp)⟩, ⟨_, g1, hpiece _ (by simp)⟩, ⟨_, g2, hpiece _ (by simp)⟩,
      ⟨_, g3, hpiece _ (by simp)⟩, ⟨_, g4, hpiece _ (by simp)⟩, ⟨_, g5, hpiece _ (by simp)⟩,
      ⟨_, g6, hpiece _ (by simp)⟩, ⟨t, ht, hline.2.1⟩]⟩, rfl, rfl, rfl⟩

/-! ### Digits -/

theorem digit_not_space {x : Char} (h : x.isDigit = true) : isSpace x = false := by
  by_contra hspace
  rw [Bool.not_eq_false, isSpace, List.contains_iff_mem] at hspace
  simp only [List.mem_cons, List.not_mem_nil, or_false] at hspace
  rcases hspace with rfl | rfl | rfl | rfl | rfl | rfl <;> exact absurd h (by decide)

/-- Digits are read to their end. -/
theorem readDigits_eq {n : ℕ} {text : Text} (h : ∀ x ∈ text, x.isDigit = true) :
    readDigits n text = text.foldl (fun n x => 10 * n + digit x) n := by
  fun_induction readDigits n text with
  | case1 n x text hx ih => exact absurd (h '_' (by simp)) (by decide)
  | case2 n x text hx => exact absurd (h '_' (by simp)) (by decide)
  | case3 n x text hx hd ih => exact ih fun y hy => h y (List.mem_cons_of_mem _ hy)
  | case4 n x text hx hd => exact absurd (h x (by simp)) hd
  | case5 n => rfl

/-- **Digits are an integer.** -/
theorem toI_digits (t : Digits) : toI t.1 = decimal t.1 := by
  obtain ⟨t, hne, h⟩ := t
  obtain ⟨x, t, rfl⟩ := List.exists_cons_of_ne_nil hne
  have hx : x.isDigit = true := h x List.mem_cons_self
  have hdrop : (x :: t).dropWhile isSpace = x :: t :=
    List.dropWhile_cons_of_neg (by simp [digit_not_space hx])
  rw [toI, hdrop]
  split
  · next hsign =>
    obtain rfl := (List.cons.inj hsign).1
    exact absurd hx (by decide)
  · next hsign =>
    obtain rfl := (List.cons.inj hsign).1
    exact absurd hx (by decide)
  · rw [readNumber, if_pos hx, readDigits_eq fun y hy => h y (List.mem_cons_of_mem _ hy), decimal,
      List.foldl_cons, Nat.mul_zero, Nat.zero_add]

/-! ### The header is cut in one way -/

/-- Fields and separators are apart. -/
theorem isChain_header : (header ++ [separator]).IsChain Apart := by
  have hfield : ∀ name, Apart (field name) separator := by
    intro name x hx
    simpa [field, nonSpace, separator] using hx
  have hseparator : ∀ name, Apart separator (field name) := by
    intro name x hx
    simpa [field, nonSpace, separator] using hx
  have hdigit : Apart separator ⟨some "epoch", Char.isDigit⟩ := by
    intro x hx
    by_contra hdigit
    rw [Bool.not_eq_false] at hdigit
    exact absurd hx (by simp [separator, digit_not_space hdigit])
  have hepoch : Apart ⟨some "epoch", Char.isDigit⟩ separator := fun x hx => digit_not_space hx
  simp only [header, List.cons_append, List.nil_append, List.isChain_cons_cons, hfield, hseparator,
    hdigit, hepoch, true_and, List.isChain_singleton]

section Match

variable {text : Text} (h : '\n' ∉ text)

include h

theorem allMatches_expression :
    allMatches expression text
      = ways (header.map .plus ++ [.plus separator, .plus message, .lineEnd]) ⟨[], text⟩ :=
  allMatches_lineStart h

/-- **Every match is that of a line**, whose parts it captures. -/
theorem exists_line_of_mem {cs : Captures String} (hcs : cs ∈ allMatches expression text) :
    ∃ l : Line, l.text = text ∧ l.captures = cs := by
  rw [allMatches_expression h] at hcs
  obtain ⟨ts, rest, hts, rfl, cs', hcs', rfl⟩ := exists_of_mem_ways hcs
  have hrest : '\n' ∉ rest := fun hmem => h (List.mem_append_right _ hmem)
  obtain ⟨t, u, ht, hu, rfl, rfl⟩ := exists_of_mem_ways_lineEnd hrest hcs'
  obtain ⟨l, rfl, rfl, rfl⟩ := exists_line hts ht hu.1 h
  exact ⟨l, l.text_eq, l.captures_eq⟩

end Match

/-- **The matches of a line** all have its header, and differ only in where the message
begins. -/
theorem allMatches_text (l : Line) :
    allMatches expression l.text
      = (ways [.plus separator, .plus message, .lineEnd]
        ⟨l.runs.flatten.reverse ++ [], (l.gap 7).1 ++ l.message.1⟩).map
          (Regexp.captures header l.runs ++ ·) := by
  rw [allMatches_expression l.newline_not_mem_text, l.text_eq]
  refine ways_chain isChain_header l.takes_runs fun x hx => (l.gap 7).2.1.2 x ?_
  rw [List.head?_append_of_ne_nil _ (l.gap 7).2.1.1] at hx
  exact List.mem_of_mem_head? hx

/-- **The expression captures the parts of a line** whose message does not begin with
whitespace. -/
theorem match?_text (l : Line) (hl : l.MessageFlush) :
    match? expression l.text = some l.captures := by
  rw [match?, allMatches_text, List.head?_map,
    head?_ways_separator l.message.2.2 l.takes_gap hl l.takes_message, l.captures_eq]
  rfl

/-- The record of the captures of a line, filtered. -/
theorem recordTransformer_captures (upcase : Text → Text) (ingestedAt : Text) (l : Line) :
    recordTransformer upcase ingestedAt (l.captures.map convert) = l.record upcase ingestedAt := by
  have halertCode : (l.captures.map convert).lookup "alert_code" = some (.str l.alertCode.1) := rfl
  have hseverity : (l.captures.map convert).lookup "severity" = some (.str l.severity.1) := rfl
  have hisAnomaly : isAnomaly (l.captures.map convert)
      = .int (if l.alertCode.1 = "-".toList then 0 else 1) := by
    rw [isAnomaly, halertCode]
    simp
  have hupcase : severity upcase (l.captures.map convert) = .str (upcase l.severity.1) := by
    rw [severity, hseverity]
  rw [Line.record, ← toI_digits, recordTransformer, hisAnomaly, hupcase]
  rfl

/-- **What greed leaves to the message**: all that follows the separator, or, if nothing does,
the last blank. -/
theorem exists_line_of_match? {text : Text} (h : '\n' ∉ text) {cs : Captures String}
    (hmatch : match? expression text = some cs) :
    ∃ l : Line, l.text = text ∧ l.captures = cs ∧
      (l.MessageFlush ∨ ∃ x, isSpace x = true ∧ l.message.1 = [x]) := by
  have hmem : cs ∈ allMatches expression text := List.mem_of_mem_head? hmatch
  obtain ⟨l, rfl, -⟩ := exists_line_of_mem h hmem
  rw [match?, allMatches_text, List.head?_map] at hmatch
  obtain ⟨cs', hhead, rfl⟩ := Option.map_eq_some_iff.mp hmatch
  have htext : ∀ x ∈ (l.gap 7).1 ++ l.message.1, message.cls x = true := by
    intro x hx
    show anyChar x = true
    rw [anyChar, bne_iff_ne]
    rintro rfl
    exact (List.mem_append.mp hx).elim (l.gap 7).2.2 l.message.2.2
  have hline : '\n' ∉ (l.gap 7).1 ++ l.message.1 := fun hmem =>
    absurd (htext _ hmem) (by decide)
  obtain ⟨t, rest, ht, hrest, hsplit, hgreedy, hcase⟩ :=
    exists_greedy hline htext (List.ne_nil_of_mem (List.mem_of_mem_head? hhead))
  rw [hgreedy] at hhead
  obtain rfl := Option.some.inj hhead
  rw [l.text_eq, hsplit] at h ⊢
  obtain ⟨l', hruns, hgap, hmessage⟩ := exists_line l.takes_runs ht hrest.1 h
  refine ⟨l', by rw [l'.text_eq, hruns, hgap, hmessage], by rw [l'.captures_eq, hruns, hgap,
    hmessage], ?_⟩
  rw [Line.MessageFlush, hmessage]
  rcases hcase with hflush | ⟨x, rfl⟩
  · exact .inl hflush
  · by_cases hx : isSpace x = true
    · exact .inr ⟨x, hx, rfl⟩
    · exact .inl fun y hy => by simpa [Option.some.inj hy] using hx

/-- All matches of a text have the same header. -/
theorem take_eq_take {text : Text} (h : '\n' ∉ text) {cs cs' : Captures String}
    (hcs : cs ∈ allMatches expression text) (hcs' : cs' ∈ allMatches expression text) :
    cs.take 8 = cs'.take 8 := by
  obtain ⟨l, rfl, -⟩ := exists_line_of_mem h hcs
  rw [allMatches_text, List.mem_map] at hcs hcs'
  obtain ⟨tail, -, rfl⟩ := hcs
  obtain ⟨tail', -, rfl⟩ := hcs'
  have hlength : (Regexp.captures header l.runs).length = 8 := rfl
  rw [List.take_left' hlength, List.take_left' hlength]

/-- **The expression inverts the writing of a line.** Of every line whose message does not
begin with whitespace it captures just the parts, and the filter emits them with the epoch as
a number, the severity in upper case, the repeated node left out and the flag set if the alert
code is not `-`. Conversely every match of a line takes it apart, without anything before the
first part or between two parts but whitespace; no two matches differ in the header, and the
one returned begins the message behind all of the last separator, or, if only whitespace
follows the severity, with the last character. -/
theorem expression_inverts (upcase : Text → Text) (ingestedAt : Text) :
    (∀ l : Line, l.MessageFlush →
      match? expression l.text = some l.captures ∧
        emit upcase ingestedAt l.text = some (l.record upcase ingestedAt)) ∧
    ∀ text : Text, '\n' ∉ text →
      (∀ cs ∈ allMatches expression text, ∃ l : Line, l.text = text ∧ l.captures = cs) ∧
      (∀ cs ∈ allMatches expression text, ∀ cs' ∈ allMatches expression text,
        cs.take 8 = cs'.take 8) ∧
      ∀ cs, match? expression text = some cs →
        ∃ l : Line, l.text = text ∧ l.captures = cs ∧
          (l.MessageFlush ∨ ∃ x, isSpace x = true ∧ l.message.1 = [x]) := by
  refine ⟨fun l hl => ⟨match?_text l hl, ?_⟩, fun text h => ⟨fun cs hcs => exists_line_of_mem h hcs,
    fun cs hcs cs' hcs' => take_eq_take h hcs hcs', fun cs hcs => exists_line_of_match? h hcs⟩⟩
  rw [emit, parse, match?_text l hl, Option.map_some, Option.map_some, recordTransformer_captures]

/-- A failed read, as it is logged. -/
def failedRead : Line where
  alertCode := ⟨"APPREAD".toList, by simp [nonSpace, isSpace]⟩
  epoch := ⟨"1117842440".toList, by simp [Char.isDigit]⟩
  dateStr := ⟨"2005.06.04".toList, by simp [nonSpace, isSpace]⟩
  nodeId := ⟨"R02-M1".toList, by simp [nonSpace, isSpace]⟩
  timestamp := ⟨"15.42.50".toList, by simp [nonSpace, isSpace]⟩
  nodeRepeat := ⟨"R02-M1".toList, by simp [nonSpace, isSpace]⟩
  component := ⟨"APP".toList, by simp [nonSpace, isSpace]⟩
  severity := ⟨"fatal".toList, by simp [nonSpace, isSpace]⟩
  message := ⟨"read failed".toList, by decide⟩
  gap _ := ⟨" \t".toList, by simp [isSpace]⟩

/-- It is flagged, and its epoch is a number. -/
theorem expression_inverts_failedRead :
    ∃ record, emit (·.map Char.toUpper) "now".toList failedRead.text = some record ∧
      record.lookup "is_anomaly" = some (.int 1) ∧
      record.lookup "epoch" = some (.int 1117842440) ∧
      record.lookup "severity" = some (.str "FATAL".toList) ∧
      record.lookup "node_repeat" = none :=
  ⟨_, ((expression_inverts (·.map Char.toUpper) "now".toList).1 failedRead fun _ hx =>
      Option.some.inj hx ▸ rfl).2, rfl, by decide, by decide, by decide⟩

end Fluentd

end AiopsLog
