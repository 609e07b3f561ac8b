import AiopsLog.Fluentd.Ingestion

/-!
# The columns of a BGL line

A line of the BGL log has ten columns: behind the repeated node come the type of the record,
the component and the level, and then the message. The expression has no group for the type.
It still matches every such line, because the message takes whatever is left: each of the
groups behind the repeated node captures the column before its own, and the level goes with
the message.
-/

namespace AiopsLog

namespace Fluentd

open Regexp

/-- A line in the layout of BGL, column by column. -/
structure BglLine where
  alertCode : Token
  epoch : Digits
  date : Token
  node : Token
  timestamp : Token
  nodeRepeat : Token
  recordType : Token
  component : Token
  level : Token
  message : Message
  gap : Fin 9 → Gap

namespace BglLine

variable (b : BglLine)

/-- The line as it is written. -/
def text : Text :=
  [b.alertCode.1, (b.gap 0).1, b.epoch.1, (b.gap 1).1, b.date.1, (b.gap 2).1, b.node.1,
    (b.gap 3).1, b.timestamp.1, (b.gap 4).1, b.nodeRepeat.1, (b.gap 5).1, b.recordType.1,
    (b.gap 6).1, b.component.1, (b.gap 7).1, b.level.1, (b.gap 8).1, b.message.1].flatten

/-- **The columns land in the right fields** of the record that is emitted. -/
def ColumnsLand (upcase : Text → Text) (ingestedAt : Text) : Prop :=
  ∃ record, emit upcase ingestedAt b.text = some record ∧
    record.lookup "component" = some (.str b.component.1) ∧
    record.lookup "severity" = some (.str (upcase b.level.1)) ∧
    record.lookup "message" = some (.str b.message.1)

/-- The level, and behind it the message: what is left of the line for the last group. -/
def rest : Message :=
  ⟨b.level.1 ++ (b.gap 8).1 ++ b.message.1, by
    have hlevel : '\n' ∉ b.level.1 := fun h => absurd (b.level.2.2 _ h) (by decide)
    simp [b.message.2.1, hlevel, (b.gap 8).2.2, b.message.2.2]⟩

/-- The line as the expression takes it apart. -/
def asLine : Line where
  alertCode := b.alertCode
  epoch := b.epoch
  dateStr := b.date
  nodeId := b.node
  timestamp := b.timestamp
  nodeRepeat := b.nodeRepeat
  component := b.recordType
  severity := b.component
  message := b.rest
  gap i := b.gap i.castSucc

theorem text_asLine : b.asLine.text = b.text := by
  simp [Line.text, asLine, rest, text]

/-- What is left of the line begins with the level. -/
theorem messageFlush_asLine : b.asLine.MessageFlush := by
  intro x hx
  show isSpace x = false
  have hhead : b.asLine.message.1.head? = b.level.1.head? := by
    show (b.level.1 ++ (b.gap 8).1 ++ b.message.1).head? = _
    rw [List.append_assoc, List.head?_append_of_ne_nil _ b.level.2.1]
  rw [hhead] at hx
  simpa [nonSpace] using b.level.2.2 x (List.mem_of_mem_head? hx)

/-- **What is emitted of a BGL line**: each column behind the repeated node one field further. -/
theorem emit_text (upcase : Text → Text) (ingestedAt : Text) :
    emit upcase ingestedAt b.text = some (b.asLine.record upcase ingestedAt) := by
  rw [← b.text_asLine, emit, parse, match?_text _ b.messageFlush_asLine, Option.map_some,
    Option.map_some, recordTransformer_captures]

/-- The message that is emitted is longer than that of the line. -/
theorem rest_ne_message : b.rest.1 ≠ b.message.1 := by
  intro h
  have hlength := congrArg List.length h
  have hlevel : 0 < b.level.1.length := List.length_pos_of_ne_nil b.level.2.1
  rw [rest, List.length_append, List.length_append] at hlength
  omega

/-- **The columns of no line land in the right fields**: of every BGL line the type of the
record is emitted for the component, the component for the severity, and the level with what
separates it in front of the message. -/
theorem columns_never_land (upcase : Text → Text) (ingestedAt : Text) :
    ¬b.ColumnsLand upcase ingestedAt ∧
      ∃ record, emit upcase ingestedAt b.text = some record ∧
        record.lookup "component" = some (.str b.recordType.1) ∧
        record.lookup "severity" = some (.str (upcase b.component.1)) ∧
        record.lookup "message" = some (.str (b.level.1 ++ (b.gap 8).1 ++ b.message.1)) := by
  refine ⟨?_, _, b.emit_text upcase ingestedAt, rfl, rfl, rfl⟩
  rintro ⟨record, hrecord, -, -, hmessage⟩
  rw [b.emit_text] at hrecord
  obtain rfl := Option.some.inj hrecord
  have hrest : (b.asLine.record upcase ingestedAt).lookup "message" = some (.str b.rest.1) := rfl
  rw [hrest] at hmessage
  exact b.rest_ne_message (Value.str.inj (Option.some.inj hmessage))

end BglLine

/-- The line that the configuration gives as an example. -/
def parityError : BglLine where
  alertCode := ⟨"-".toList, by simp [nonSpace, isSpace]⟩
  epoch := ⟨"1117838570".toList, by simp [Char.isDigit]⟩
  date := ⟨"2005.06.03".toList, by simp [nonSpace, isSpace]⟩
  node := ⟨"R02-M1-N0-C:J12-U11".toList, by simp [nonSpace, isSpace]⟩
  timestamp := ⟨"2005-06-03-15.42.50.675872".toList, by simp [nonSpace, isSpace]⟩
  nodeRepeat := ⟨"R02-M1-N0-C:J12-U11".toList, by simp [nonSpace, isSpace]⟩
  recordType := ⟨"RAS".toList, by simp [nonSpace, isSpace]⟩
  component := ⟨"KERNEL".toList, by simp [nonSpace, isSpace]⟩
  level := ⟨"INFO".toList, by simp [nonSpace, isSpace]⟩
  message := ⟨"instruction cache parity error corrected".toList, by decide⟩
  gap _ := ⟨" ".toList, by simp [isSpace]⟩

/-- Its component is emitted as `RAS` and its severity as `KERNEL`. -/
theorem not_columnsLand_parityError : ¬parityError.ColumnsLand (·.map Char.toUpper) [] := by
  rintro ⟨record, hrecord, hcomponent, -, -⟩
  rw [parityError.emit_text] at hrecord
  obtain rfl := Option.some.inj hrecord
  have hras : (parityError.asLine.record (·.map Char.toUpper) []).lookup "component"
      = some (.str "RAS".toList) := rfl
  rw [hras] at hcomponent
  exact absurd (Value.str.inj (Option.some.inj hcomponent)) (by decide)

end Fluentd

end AiopsLog
