import ApiScope.Library.Logged
import ApiScope.Trace.Format
import ApiScope.Trace.Reads

/-!
# Writing events as text, and what the renderers read

`RenderTraceEventText` of `trace_renderer.cpp`.  Both renderers trust sizes that
the parser has checked: what they read through a view lies in the value of its
field.
-/

namespace ApiScope

open Bytes Logged

namespace TraceRenderer

def TextLabelWidth (fields : List TraceFieldView) (event : TraceEvent) : Nat :=
  let width := fields.foldl (fun width field =>
    let width := max width field.name.length
    if field.header.type = TraceFieldBytes then
      max (max width (field.name.length + (text "_text").length))
        (field.name.length + (text "_status").length)
    else width) (text "timestamp").length
  let width :=
    if flagged event TraceEventFlagTruncated then max width (text "truncated").length else width
  if flagged event TraceEventFlagFieldError then max width (text "field_error").length else width

/-- `std::left << std::setw(width) << std::setfill(' ')` -/
def RenderTextLabel (name : List Char) (width : Nat) : List Char :=
  text "    " ++ name.rightpad width ' ' ++ text ": "

/-- The three lines of a byte preview, of which the first has its label already. -/
def RenderTextPreview (labelWidth : Nat) (name : List Char) (bytes : TraceBytesHeader)
    (hexadecimal : List Char) (visible : List UInt8) : List Char :=
  hexadecimal ++
  (if bytes.captured < bytes.requested then text " ..." else []) ++ text "\n" ++
  RenderTextLabel (name ++ text "_text") labelWidth ++
  chars visible ++
  (if bytes.captured < bytes.requested then text "..." else []) ++ text "\n" ++
  RenderTextLabel (name ++ text "_status") labelWidth ++
  HexStatus bytes.captureStatus

/-- The `switch` of the field loop; `value` is the memory from the field's value on. -/
def RenderTextValue (labelWidth : Nat) (field : TraceFieldView) (value : List UInt8) :
    List Char :=
  let type := field.header.type
  if type = TraceFieldPointer then
    text "0x" ++ setw 16 '0' (upperHex (ReadUInt64 value).toNat)
  else if type = TraceFieldUInt32 then decimal (ReadUInt32 value).toNat
  else if type = TraceFieldUInt64 then decimal (ReadUInt64 value).toNat
  else if type = TraceFieldInt32 then signedDecimal (int32 (ReadUInt32 value))
  else if type = TraceFieldInt64 then signedDecimal (int64 (ReadUInt64 value))
  else if type = TraceFieldBoolean then boolean (value.getD 0 0 != 0)
  else if type = TraceFieldStatus then HexStatus (ReadUInt32 value)
  else if type = TraceFieldBytes then
    let bytes := ReadBytesHeader value
    let preview := (value.drop sizeofTraceBytesHeader).take bytes.captured.toNat
    RenderTextPreview labelWidth (chars field.name) bytes (HexBytes preview true)
      (PreviewText preview)
  else
    text "type_" ++ decimal type.toNat ++ text " " ++
    HexBytes (value.take field.header.valueSize.toNat) true

def RenderTextFields (event : TraceEvent) (labelWidth : Nat) (fields : List TraceFieldView) :
    List Char :=
  fields.flatMap fun field =>
    RenderTextLabel (chars field.name) labelWidth ++
    RenderTextValue labelWidth field (event.payload.drop field.value) ++ text "\n"

/-- A line of its own for a flag that is set. -/
def RenderTextFlag (event : TraceEvent) (labelWidth : Nat) (flag : UInt16) (name : String) :
    List Char :=
  if flagged event flag then RenderTextLabel (text name) labelWidth ++ text "true\n" else []

/-- What is written in front of the fields. -/
def RenderTextHeader (fileTimeToSystemTime : FileTimeToSystemTime) (event : TraceEvent)
    (parsed : ParsedEvent) (labelWidth : Nat) : List Char :=
  text "\n[*] " ++ chars parsed.moduleName ++ text "!" ++ chars parsed.apiName ++
    text " ----------\n" ++
  RenderTextLabel (text "timestamp") labelWidth ++
    FormatTimestamp fileTimeToSystemTime event.header.timestamp100ns ++ text "\n" ++
  RenderTextLabel (text "thread_id") labelWidth ++ decimal event.header.threadId.toNat ++
    text "\n" ++
  RenderTextLabel (text "sequence") labelWidth ++ decimal event.header.sequence.toNat ++
    text "\n"

/-- What `RenderTraceEventText` writes to its stream. -/
def RenderTraceEventText (fileTimeToSystemTime : FileTimeToSystemTime) (event : TraceEvent) :
    List Char :=
  match ParseTraceEvent event event.header.size.toNat with
  | none => []
  | some parsed =>
      let labelWidth := TextLabelWidth parsed.fields event
      RenderTextHeader fileTimeToSystemTime event parsed labelWidth ++
      RenderTextFields event labelWidth parsed.fields ++
      RenderTextFlag event labelWidth TraceEventFlagTruncated "truncated" ++
      RenderTextFlag event labelWidth TraceEventFlagFieldError "field_error"

/-! ## The renderers with their reads -/

section Reading

variable (memory : List UInt8)

def ReadUInt32.logged (value : Nat) : Logged Span UInt32 := do
  let bytes ← readSpan memory value 4
  pure (ReadUInt32 bytes)

def ReadUInt64.logged (value : Nat) : Logged Span UInt64 := do
  let bytes ← readSpan memory value 8
  pure (ReadUInt64 bytes)

def ReadBytesHeader.logged (value : Nat) : Logged Span TraceBytesHeader := do
  let bytes ← readSpan memory value sizeofTraceBytesHeader
  pure (ReadBytesHeader bytes)

def HexBytes.logged (bytes size : Nat) (spaced : Bool) : Logged Span (List Char) := do
  let bytes ← readSpan memory bytes size
  pure (HexBytes bytes spaced)

def PreviewText.logged (bytes size : Nat) : Logged Span (List UInt8) := do
  let bytes ← readSpan memory bytes size
  pure (PreviewText bytes)

/-- `RenderTextValue` for a value at an offset of the memory. -/
def RenderTextValue.logged (labelWidth : Nat) (field : TraceFieldView) (value : Nat) :
    Logged Span (List Char) :=
  let type := field.header.type
  if type = TraceFieldPointer then do
    let pointer ← ReadUInt64.logged memory value
    pure (text "0x" ++ setw 16 '0' (upperHex pointer.toNat))
  else if type = TraceFieldUInt32 then do
    let number ← ReadUInt32.logged memory value
    pure (decimal number.toNat)
  else if type = TraceFieldUInt64 then do
    let number ← ReadUInt64.logged memory value
    pure (decimal number.toNat)
  else if type = TraceFieldInt32 then do
    let number ← ReadUInt32.logged memory value
    pure (signedDecimal (int32 number))
  else if type = TraceFieldInt64 then do
    let number ← ReadUInt64.logged memory value
    pure (signedDecimal (int64 number))
  else if type = TraceFieldBoolean then do
    let encoded ← readByte memory value
    pure (boolean (encoded != 0))
  else if type = TraceFieldStatus then do
    let status ← ReadUInt32.logged memory value
    pure (HexStatus status)
  else if type = TraceFieldBytes then do
    let bytes ← ReadBytesHeader.logged memory value
    let preview := value + sizeofTraceBytesHeader
    let hexadecimal ← HexBytes.logged memory preview bytes.captured.toNat true
    let visible ← PreviewText.logged memory preview bytes.captured.toNat
    pure (RenderTextPreview labelWidth (chars field.name) bytes hexadecimal visible)
  else do
    let hexadecimal ← HexBytes.logged memory value field.header.valueSize.toNat true
    pure (text "type_" ++ decimal type.toNat ++ text " " ++ hexadecimal)

/-- `RenderJsonValue` for a value at an offset of the memory. -/
def RenderJsonValue.logged (header : TraceFieldHeader) (value : Nat) : Logged Span (List Char) :=
  if header.type = TraceFieldPointer ∨ header.type = TraceFieldUInt64 then do
    let number ← ReadUInt64.logged memory value
    pure (decimal number.toNat)
  else if header.type = TraceFieldUInt32 then do
    let number ← ReadUInt32.logged memory value
    pure (decimal number.toNat)
  else if header.type = TraceFieldInt32 then do
    let number ← ReadUInt32.logged memory value
    pure (signedDecimal (int32 number))
  else if header.type = TraceFieldInt64 then do
    let number ← ReadUInt64.logged memory value
    pure (signedDecimal (int64 number))
  else if header.type = TraceFieldBoolean then do
    let encoded ← readByte memory value
    pure (boolean (encoded != 0))
  else if header.type = TraceFieldStatus then do
    let status ← ReadUInt32.logged memory value
    pure (text "\x7b\"type\":\"status\",\"value\":" ++ signedDecimal (int32 status) ++
      text ",\"hex\":\"" ++ HexStatus status ++ text "\"\x7d")
  else if header.type = TraceFieldBytes then do
    let bytes ← ReadBytesHeader.logged memory value
    let preview := value + sizeofTraceBytesHeader
    let hexadecimal ← HexBytes.logged memory preview bytes.captured.toNat false
    let visible ← PreviewText.logged memory preview bytes.captured.toNat
    pure (text "\x7b\"type\":\"bytes\",\"requested\":" ++ decimal bytes.requested.toNat ++
      text ",\"captured\":" ++ decimal bytes.captured.toNat ++
      text ",\"capture_status\":" ++ signedDecimal (int32 bytes.captureStatus) ++
      text ",\"capture_status_hex\":\"" ++ HexStatus bytes.captureStatus ++ text "\"" ++
      text ",\"hex\":\"" ++ hexadecimal ++ text "\"" ++
      text ",\"text\":\"" ++ JsonEscape visible ++ text "\"\x7d")
  else do
    let hexadecimal ← HexBytes.logged memory value header.valueSize.toNat false
    pure (text "\x7b\"type\":\"unknown_" ++ decimal header.type.toNat ++
      text "\",\"hex\":\"" ++ hexadecimal ++ text "\"\x7d")

end Reading

/-- The field loop; every read stands under the view it goes through. -/
def RenderTextFields.logged (event : TraceEvent) (labelWidth : Nat) :
    List TraceFieldView → Logged (TraceFieldView × Span) (List Char)
  | [] => pure []
  | field :: fields => do
      let value ← tag field (RenderTextValue.logged event.bytes labelWidth field
        (sizeofTraceEventHeader + field.value))
      let rest ← RenderTextFields.logged event labelWidth fields
      pure (RenderTextLabel (chars field.name) labelWidth ++ value ++ text "\n" ++ rest)

def RenderTraceEventText.logged (fileTimeToSystemTime : FileTimeToSystemTime)
    (event : TraceEvent) : Logged (TraceFieldView × Span) (List Char) :=
  match ParseTraceEvent event event.header.size.toNat with
  | none => pure []
  | some parsed => do
      let labelWidth := TextLabelWidth parsed.fields event
      let fields ← RenderTextFields.logged event labelWidth parsed.fields
      pure (RenderTextHeader fileTimeToSystemTime event parsed labelWidth ++ fields ++
        RenderTextFlag event labelWidth TraceEventFlagTruncated "truncated" ++
        RenderTextFlag event labelWidth TraceEventFlagFieldError "field_error")

def RenderJsonFields.logged (event : TraceEvent) :
    Nat → List TraceFieldView → Logged (TraceFieldView × Span) (List Char)
  | _, [] => pure []
  | index, field :: fields => do
      let value ← tag field (RenderJsonValue.logged event.bytes field.header
        (sizeofTraceEventHeader + field.value))
      let rest ← RenderJsonFields.logged event (index + 1) fields
      pure ((if index != 0 then text "," else []) ++
        text "\"" ++ chars field.name ++ text "\":" ++ value ++ rest)

/-- The line around the field loop is that of `RenderTraceEventJsonl`. -/
def RenderTraceEventJsonl.logged (fileTimeToSystemTime : FileTimeToSystemTime)
    (event : TraceEvent) : Logged (TraceFieldView × Span) (List Char) :=
  match ParseTraceEvent event event.header.size.toNat with
  | none => pure []
  | some parsed => do
      let fields ← RenderJsonFields.logged event 0 parsed.fields
      pure (RenderJsonHeader fileTimeToSystemTime event parsed ++ fields ++ text "\x7d\x7d\n")

/-! ## They are the renderers -/

section Value

variable {memory : List UInt8} {value : Nat}

theorem value_readUInt32 :
    (ReadUInt32.logged memory value).value = ReadUInt32 (memory.drop value) := by
  rw [ReadUInt32.logged, value_bind, value_pure, readSpan, value_emit, ReadUInt32, slice,
    wordAt_take _ 0 4 4 le_rfl, ReadUInt32]

theorem value_readUInt64 :
    (ReadUInt64.logged memory value).value = ReadUInt64 (memory.drop value) := by
  rw [ReadUInt64.logged, value_bind, value_pure, readSpan, value_emit, ReadUInt64, slice,
    wordAt_take _ 0 8 8 le_rfl, ReadUInt64]

theorem value_readBytesHeader :
    (ReadBytesHeader.logged memory value).value = ReadBytesHeader (memory.drop value) := by
  rw [ReadBytesHeader.logged, value_bind, value_pure, readSpan, value_emit, ReadBytesHeader, slice,
    sizeofTraceBytesHeader, TraceBytesHeader.ofBytes_take _ _ le_rfl, ReadBytesHeader]

theorem value_renderTextValue {labelWidth : Nat} {field : TraceFieldView} :
    (RenderTextValue.logged memory labelWidth field value).value =
      RenderTextValue labelWidth field (memory.drop value) := by
  unfold RenderTextValue.logged RenderTextValue
  dsimp only
  split_ifs
  · rw [value_bind, value_pure, value_readUInt64]
  · rw [value_bind, value_pure, value_readUInt32]
  · rw [value_bind, value_pure, value_readUInt64]
  · rw [value_bind, value_pure, value_readUInt32]
  · rw [value_bind, value_pure, value_readUInt64]
  · rw [value_bind, value_pure, readByte, value_emit, getD_drop]
  · rw [value_bind, value_pure, value_readUInt32]
  · simp only [value_bind, value_pure, value_readBytesHeader, HexBytes.logged, PreviewText.logged,
      readSpan, value_emit, slice, List.drop_drop]
  · rw [value_bind, value_pure, HexBytes.logged, value_bind, value_pure, readSpan, value_emit, slice]

theorem value_renderJsonValue {header : TraceFieldHeader} :
    (RenderJsonValue.logged memory header value).value =
      RenderJsonValue header (memory.drop value) := by
  unfold RenderJsonValue.logged RenderJsonValue
  split_ifs
  · rw [value_bind, value_pure, value_readUInt64]
  · rw [value_bind, value_pure, value_readUInt32]
  · rw [value_bind, value_pure, value_readUInt32]
  · rw [value_bind, value_pure, value_readUInt64]
  · rw [value_bind, value_pure, readByte, value_emit, getD_drop]
  · rw [value_bind, value_pure, value_readUInt32]
  · simp only [value_bind, value_pure, value_readBytesHeader, HexBytes.logged, PreviewText.logged,
      readSpan, value_emit, slice, List.drop_drop]
  · rw [value_bind, value_pure, HexBytes.logged, value_bind, value_pure, readSpan, value_emit, slice]

end Value

section Values

variable (event : TraceEvent)

theorem value_renderTextFields (labelWidth : Nat) (fields : List TraceFieldView) :
    (RenderTextFields.logged event labelWidth fields).value =
      RenderTextFields event labelWidth fields := by
  induction fields with
  | nil => rfl
  | cons field fields inductionHypothesis =>
      rw [RenderTextFields.logged, value_bind, value_bind, value_pure, value_tag,
        value_renderTextValue, inductionHypothesis, event.drop_bytes, RenderTextFields,
        RenderTextFields, List.flatMap_cons]

theorem value_renderJsonFields (index : Nat) (fields : List TraceFieldView) :
    (RenderJsonFields.logged event index fields).value = RenderJsonFields event index fields := by
  induction fields generalizing index with
  | nil => rfl
  | cons field fields inductionHypothesis =>
      rw [RenderJsonFields.logged, value_bind, value_bind, value_pure, value_tag,
        value_renderJsonValue, inductionHypothesis, event.drop_bytes, RenderJsonFields]

theorem value_renderTraceEventText (fileTimeToSystemTime : FileTimeToSystemTime) :
    (RenderTraceEventText.logged fileTimeToSystemTime event).value =
      RenderTraceEventText fileTimeToSystemTime event := by
  unfold RenderTraceEventText.logged RenderTraceEventText
  cases ParseTraceEvent event event.header.size.toNat with
  | none => rfl
  | some parsed =>
      dsimp only
      rw [value_bind, value_pure, value_renderTextFields]

theorem value_renderTraceEventJsonl (fileTimeToSystemTime : FileTimeToSystemTime) :
    (RenderTraceEventJsonl.logged fileTimeToSystemTime event).value =
      RenderTraceEventJsonl fileTimeToSystemTime event := by
  unfold RenderTraceEventJsonl.logged RenderTraceEventJsonl
  cases ParseTraceEvent event event.header.size.toNat with
  | none => rfl
  | some parsed =>
      dsimp only
      rw [value_bind, value_pure, value_renderJsonFields]

end Values

/-! ## What they read -/

section Sizes

variable {type : UInt8} {value : List UInt8} {valueSize : UInt16}

theorem valueSize_eight (expected : HasExpectedValueSize type value valueSize = true)
    (wide : type = TraceFieldPointer ∨ type = TraceFieldUInt64 ∨ type = TraceFieldInt64) :
    valueSize.toNat = 8 := by
  rcases wide with rfl | rfl | rfl <;> simpa [HasExpectedValueSize] using expected

theorem valueSize_four (expected : HasExpectedValueSize type value valueSize = true)
    (narrow : type = TraceFieldUInt32 ∨ type = TraceFieldStatus ∨ type = TraceFieldInt32) :
    valueSize.toNat = 4 := by
  rcases narrow with rfl | rfl | rfl <;> simpa [HasExpectedValueSize] using expected

theorem valueSize_boolean (expected : HasExpectedValueSize type value valueSize = true)
    (boolean : type = TraceFieldBoolean) : valueSize.toNat = 1 := by
  subst boolean
  simp [HasExpectedValueSize] at expected
  exact expected.1

theorem valueSize_bytes (expected : HasExpectedValueSize type value valueSize = true)
    (bytes : type = TraceFieldBytes) :
    valueSize.toNat = sizeofTraceBytesHeader + (ReadBytesHeader value).captured.toNat := by
  subst bytes
  by_cases short : valueSize.toNat < sizeofTraceBytesHeader
  · simp only [sizeofTraceBytesHeader] at short
    simp [HasExpectedValueSize, short] at expected
  · simp only [sizeofTraceBytesHeader] at short
    simp [HasExpectedValueSize, short] at expected
    exact (of_decide_eq_true expected).2.2

end Sizes

section Reads

variable {memory : List UInt8} {value limit : Nat}

/-- Reading from the start of a region that is large enough. -/
theorem all_readSpan {offset count : Nat} (lower : value ≤ offset)
    (upper : offset + count ≤ value + limit) :
    All (Span.Inside value limit) (readSpan memory offset count) :=
  all_emit.mpr ⟨lower, upper⟩

theorem all_readUInt32 (enough : 4 ≤ limit) :
    All (Span.Inside value limit) (ReadUInt32.logged memory value) :=
  all_bind.mpr ⟨all_readSpan le_rfl (by omega), all_pure _⟩

theorem all_readUInt64 (enough : 8 ≤ limit) :
    All (Span.Inside value limit) (ReadUInt64.logged memory value) :=
  all_bind.mpr ⟨all_readSpan le_rfl (by omega), all_pure _⟩

theorem all_readBytesHeader (enough : sizeofTraceBytesHeader ≤ limit) :
    All (Span.Inside value limit) (ReadBytesHeader.logged memory value) :=
  all_bind.mpr ⟨all_readSpan le_rfl (by omega), all_pure _⟩

theorem all_hexBytes {bytes size : Nat} {spaced : Bool} (lower : value ≤ bytes)
    (upper : bytes + size ≤ value + limit) :
    All (Span.Inside value limit) (HexBytes.logged memory bytes size spaced) :=
  all_bind.mpr ⟨all_readSpan lower upper, all_pure _⟩

theorem all_previewText {bytes size : Nat} (lower : value ≤ bytes)
    (upper : bytes + size ≤ value + limit) :
    All (Span.Inside value limit) (PreviewText.logged memory bytes size) :=
  all_bind.mpr ⟨all_readSpan lower upper, all_pure _⟩

/-- The text renderer reads no more of a value than the parser has checked. -/
theorem all_renderTextValue {labelWidth : Nat} {field : TraceFieldView}
    (expected : HasExpectedValueSize field.header.type (memory.drop value)
      field.header.valueSize = true) :
    All (Span.Inside value field.header.valueSize.toNat)
      (RenderTextValue.logged memory labelWidth field value) := by
  have eight := valueSize_eight expected
  have four := valueSize_four expected
  unfold RenderTextValue.logged
  dsimp only
  split_ifs with pointer uint32 uint64 int32 int64 boolean status bytes
  · exact all_bind.mpr ⟨all_readUInt64 (eight (.inl pointer)).ge, all_pure _⟩
  · exact all_bind.mpr ⟨all_readUInt32 (four (.inl uint32)).ge, all_pure _⟩
  · exact all_bind.mpr ⟨all_readUInt64 (eight (.inr (.inl uint64))).ge, all_pure _⟩
  · exact all_bind.mpr ⟨all_readUInt32 (four (.inr (.inr int32))).ge, all_pure _⟩
  · exact all_bind.mpr ⟨all_readUInt64 (eight (.inr (.inr int64))).ge, all_pure _⟩
  · have one := valueSize_boolean expected boolean
    exact all_bind.mpr ⟨all_emit.mpr ⟨le_rfl, by dsimp only; omega⟩, all_pure _⟩
  · exact all_bind.mpr ⟨all_readUInt32 (four (.inr (.inl status))).ge, all_pure _⟩
  · have size := valueSize_bytes expected bytes
    refine all_bind.mpr ⟨all_readBytesHeader (by omega), ?_⟩
    rw [value_readBytesHeader]
    refine all_bind.mpr ⟨all_hexBytes (by omega) (by omega), ?_⟩
    exact all_bind.mpr ⟨all_previewText (by omega) (by omega), all_pure _⟩
  · exact all_bind.mpr ⟨all_hexBytes le_rfl le_rfl, all_pure _⟩

theorem all_renderJsonValue {header : TraceFieldHeader}
    (expected : HasExpectedValueSize header.type (memory.drop value) header.valueSize = true) :
    All (Span.Inside value header.valueSize.toNat)
      (RenderJsonValue.logged memory header value) := by
  have eight := valueSize_eight expected
  have four := valueSize_four expected
  unfold RenderJsonValue.logged
  split_ifs with wide uint32 int32 int64 boolean status bytes
  · have size := eight (wide.imp_right .inl)
    exact all_bind.mpr ⟨all_readUInt64 size.ge, all_pure _⟩
  · exact all_bind.mpr ⟨all_readUInt32 (four (.inl uint32)).ge, all_pure _⟩
  · exact all_bind.mpr ⟨all_readUInt32 (four (.inr (.inr int32))).ge, all_pure _⟩
  · exact all_bind.mpr ⟨all_readUInt64 (eight (.inr (.inr int64))).ge, all_pure _⟩
  · have one := valueSize_boolean expected boolean
    exact all_bind.mpr ⟨all_emit.mpr ⟨le_rfl, by dsimp only; omega⟩, all_pure _⟩
  · exact all_bind.mpr ⟨all_readUInt32 (four (.inr (.inl status))).ge, all_pure _⟩
  · have size := valueSize_bytes expected bytes
    refine all_bind.mpr ⟨all_readBytesHeader (by omega), ?_⟩
    rw [value_readBytesHeader]
    refine all_bind.mpr ⟨all_hexBytes (by omega) (by omega), ?_⟩
    exact all_bind.mpr ⟨all_previewText (by omega) (by omega), all_pure _⟩
  · exact all_bind.mpr ⟨all_hexBytes le_rfl le_rfl, all_pure _⟩

end Reads

/-! ## Views that the parser returns -/

/-- A view whose value lies in front of the end and has the size its type asks for. -/
def Checked (payload : List UInt8) (stop : Nat) (field : TraceFieldView) : Prop :=
  field.value + field.header.valueSize.toNat ≤ stop ∧
    HasExpectedValueSize field.header.type (payload.drop field.value)
      field.header.valueSize = true

theorem checked_parseField {payload : List UInt8} {stop cursor next : Nat}
    {parsedFields : List TraceFieldView} {field : TraceFieldView}
    (parsed : parseField payload stop cursor parsedFields = some (field, next)) :
    Checked payload stop field := by
  simp only [parseField, Option.ite_none_left_eq_some, not_or, not_lt, not_not, Option.some.injEq,
    Prod.mk.injEq] at parsed
  obtain ⟨short, ⟨large, _⟩, _, expected, rfl, rfl⟩ := parsed
  refine ⟨?_, expected⟩
  simp only [sizeofTraceFieldHeader] at short large ⊢
  omega

theorem checked_parseFields {payload : List UInt8} {stop remaining cursor last : Nat}
    {parsedFields fields : List TraceFieldView}
    (sofar : ∀ field ∈ parsedFields, Checked payload stop field)
    (parsed : parseFields payload stop remaining cursor parsedFields = some (last, fields)) :
    ∀ field ∈ fields, Checked payload stop field := by
  induction remaining generalizing cursor parsedFields with
  | zero =>
      cases parsed
      exact sofar
  | succ remaining inductionHypothesis =>
      rw [parseFields] at parsed
      cases first : parseField payload stop cursor parsedFields with
      | none =>
          rw [first] at parsed
          cases parsed
      | some found =>
          rw [first] at parsed
          refine inductionHypothesis (fun field member => ?_) parsed
          rcases List.mem_append.mp member with old | new
          · exact sofar field old
          · rw [List.mem_singleton.mp new]
            exact checked_parseField first

theorem checked_parseTraceEvent {event : TraceEvent} {bytesReceived : Nat} {parsed : ParsedEvent}
    (accepted : ParseTraceEvent event bytesReceived = some parsed) :
    HeaderMatches event bytesReceived ∧
    ∀ field ∈ parsed.fields,
      Checked event.payload (event.header.size.toNat - sizeofTraceEventHeader) field := by
  simp only [ParseTraceEvent, Option.ite_none_left_eq_some] at accepted
  obtain ⟨header, _, _, rest⟩ := accepted
  refine ⟨not_not.mp header, ?_⟩
  cases loop : parseFields event.payload (event.header.size.toNat - sizeofTraceEventHeader)
      event.header.fieldCount.toNat
      (event.header.moduleNameLength.toNat + event.header.apiNameLength.toNat) [] with
  | none =>
      rw [loop] at rest
      cases rest
  | some result =>
      obtain ⟨last, fields⟩ := result
      simp only [loop, Option.ite_none_left_eq_some, Option.some.injEq] at rest
      obtain ⟨_, rfl⟩ := rest
      exact checked_parseFields (fun field member => by cases member) loop

/-- What is read through a view lies in the value of its field. -/
def InOwnValue (fields : List TraceFieldView) (read : TraceFieldView × Span) : Prop :=
  read.1 ∈ fields ∧
    read.2.Inside (sizeofTraceEventHeader + read.1.value) read.1.header.valueSize.toNat

section Loops

variable {event : TraceEvent} {stop : Nat} {all : List TraceFieldView}

theorem all_renderTextFields {labelWidth : Nat} {fields : List TraceFieldView}
    (checked : ∀ field ∈ fields, Checked event.payload stop field)
    (among : ∀ field ∈ fields, field ∈ all) :
    All (InOwnValue all) (RenderTextFields.logged event labelWidth fields) := by
  induction fields with
  | nil => exact all_pure _
  | cons field fields inductionHypothesis =>
      rw [List.forall_mem_cons] at checked among
      have expected := checked.1.2
      rw [← event.drop_bytes] at expected
      refine all_bind.mpr ⟨all_tag.mpr ?_, all_bind.mpr ⟨?_, all_pure _⟩⟩
      · exact (all_renderTextValue expected).mono fun span inside => ⟨among.1, inside⟩
      · exact inductionHypothesis checked.2 among.2

theorem all_renderJsonFields {index : Nat} {fields : List TraceFieldView}
    (checked : ∀ field ∈ fields, Checked event.payload stop field)
    (among : ∀ field ∈ fields, field ∈ all) :
    All (InOwnValue all) (RenderJsonFields.logged event index fields) := by
  induction fields generalizing index with
  | nil => exact all_pure _
  | cons field fields inductionHypothesis =>
      rw [List.forall_mem_cons] at checked among
      have expected := checked.1.2
      rw [← event.drop_bytes] at expected
      refine all_bind.mpr ⟨all_tag.mpr ?_, all_bind.mpr ⟨?_, all_pure _⟩⟩
      · exact (all_renderJsonValue expected).mono fun span inside => ⟨among.1, inside⟩
      · exact inductionHypothesis checked.2 among.2

end Loops

/-! ## Untrusted events -/

/-- An event of size 0 has its header read all the same. -/
theorem reads_behind_size :
    ¬∀ (event : TraceEvent) (bytesReceived : Nat),
      All (Span.Below event.header.size.toNat) (ParseTraceEvent.logged event bytesReceived) := by
  intro always
  have below := always (.ofBytes []) sizeofTraceEventHeader ⟨0, 4⟩ (by decide +kernel)
  exact absurd below (by decide)

/-- Whatever an event holds, the parser reads its header and what the header's size
says, and the renderers read through each view its own value only. -/
theorem reads_in_bounds (fileTimeToSystemTime : FileTimeToSystemTime) (event : TraceEvent)
    (bytesReceived : Nat) :
    ((ParseTraceEvent.logged event bytesReceived).value = ParseTraceEvent event bytesReceived ∧
      All (InEvent event) (ParseTraceEvent.logged event bytesReceived)) ∧
    ∀ parsed, ParseTraceEvent event bytesReceived = some parsed →
      ((RenderTraceEventText.logged fileTimeToSystemTime event).value =
          RenderTraceEventText fileTimeToSystemTime event ∧
        All (InOwnValue parsed.fields)
          (RenderTraceEventText.logged fileTimeToSystemTime event)) ∧
      ((RenderTraceEventJsonl.logged fileTimeToSystemTime event).value =
          RenderTraceEventJsonl fileTimeToSystemTime event ∧
        All (InOwnValue parsed.fields)
          (RenderTraceEventJsonl.logged fileTimeToSystemTime event)) ∧
      ∀ field ∈ parsed.fields,
        sizeofTraceEventHeader + field.value + field.header.valueSize.toNat ≤
          event.header.size.toNat := by
  refine ⟨parseTraceEvent_logged event bytesReceived, fun parsed accepted => ?_⟩
  obtain ⟨⟨enough, _, _, received, _, _⟩, checked⟩ := checked_parseTraceEvent accepted
  rw [← received] at accepted
  refine ⟨⟨value_renderTraceEventText event _, ?_⟩, ⟨value_renderTraceEventJsonl event _, ?_⟩,
    fun field member => ?_⟩
  · unfold RenderTraceEventText.logged
    rw [accepted]
    exact all_bind.mpr ⟨all_renderTextFields checked fun _ member => member, all_pure _⟩
  · unfold RenderTraceEventJsonl.logged
    rw [accepted]
    exact all_bind.mpr ⟨all_renderJsonFields checked fun _ member => member, all_pure _⟩
  · have inside := (checked field member).1
    omega

end TraceRenderer

end ApiScope
