import ApiScope.Library.Ostream
import ApiScope.Trace.Text

/-!
# The text renderer on its stream

`RenderTraceEventText` as the insertions and manipulators it applies to a stream
that keeps its formatting state.  What one event leaves in that state changes
nothing of what the next field or event is written as.
-/

namespace ApiScope

open Ostream

namespace TraceRenderer

/-! ## Strings with a stream of their own -/

def HexStatus.streamed (status : UInt32) : List Char := str do
  insert (text "0x")
  uppercase
  hex
  Ostream.setw 8
  setfill '0'
  insertUnsigned status.toNat

theorem hexStatus_streamed (status : UInt32) : HexStatus.streamed status = HexStatus status := rfl

def FormatTimestamp.streamed (fileTimeToSystemTime : FileTimeToSystemTime)
    (timestamp100ns : UInt64) : List Char :=
  if timestamp100ns = 0 then text "unavailable"
  else
    match fileTimeToSystemTime timestamp100ns with
    | none => text "invalid"
    | some systemTime => str do
        setfill '0'
        Ostream.setw 4
        insertUnsigned systemTime.wYear.toNat
        insert (text "-")
        Ostream.setw 2
        insertUnsigned systemTime.wMonth.toNat
        insert (text "-")
        Ostream.setw 2
        insertUnsigned systemTime.wDay.toNat
        insert (text "T")
        Ostream.setw 2
        insertUnsigned systemTime.wHour.toNat
        insert (text ":")
        Ostream.setw 2
        insertUnsigned systemTime.wMinute.toNat
        insert (text ":")
        Ostream.setw 2
        insertUnsigned systemTime.wSecond.toNat
        insert (text ".")
        Ostream.setw 7
        insertUnsigned (timestamp100ns.toNat % 10000000)
        insert (text "Z")

theorem formatTimestamp_streamed (fileTimeToSystemTime : FileTimeToSystemTime)
    (timestamp100ns : UInt64) :
    FormatTimestamp.streamed fileTimeToSystemTime timestamp100ns =
      FormatTimestamp fileTimeToSystemTime timestamp100ns := by
  unfold FormatTimestamp.streamed FormatTimestamp
  split_ifs
  · rfl
  · cases fileTimeToSystemTime timestamp100ns with
    | none => rfl
    | some systemTime => rfl

/-- The loop of `HexBytes` from an index on. -/
def HexBytes.streamLoop (spaced : Bool) : Nat → List UInt8 → Output
  | _, [] => pure ()
  | index, byte :: bytes => do
      (if spaced && index != 0 then insert [' '] else pure ())
      uppercase
      hex
      Ostream.setw 2
      setfill '0'
      insertUnsigned byte.toNat
      HexBytes.streamLoop spaced (index + 1) bytes

def HexBytes.streamed (bytes : List UInt8) (spaced : Bool) : List Char :=
  str (HexBytes.streamLoop spaced 0 bytes)

/-- One byte on a stream that fills up on the left. -/
theorem run_streamLoop_cons (spaced : Bool) (index : Nat) (byte : UInt8) (bytes : List UInt8)
    (stream : Ostream) (unset : stream.width = 0) (onRight : stream.adjustment = .right) :
    (HexBytes.streamLoop spaced index (byte :: bytes)).run stream =
      (HexBytes.streamLoop spaced (index + 1) bytes).run
        ⟨stream.written ++ ((if spaced && index != 0 then [' '] else []) ++
          setw 2 '0' (upperHex byte.toNat)), .hex, true, .right, '0', 0⟩ := by
  obtain ⟨written, base, upper, adjustment, fill, width⟩ := stream
  cases unset
  cases onRight
  cases separated : spaced && index != 0 with
  | false =>
      simp only [HexBytes.streamLoop, separated]
      rfl
  | true =>
      rw [← List.append_assoc]
      simp only [HexBytes.streamLoop, separated]
      rfl

theorem written_streamLoop (spaced : Bool) (bytes : List UInt8) (index : Nat) (stream : Ostream)
    (unset : stream.width = 0) (onRight : stream.adjustment = .right) :
    ((HexBytes.streamLoop spaced index bytes).run stream).2.written = stream.written ++
      (bytes.mapIdx fun place byte =>
        (if spaced && place + index != 0 then [' '] else []) ++
          setw 2 '0' (upperHex byte.toNat)).flatten := by
  induction bytes generalizing index stream with
  | nil => exact (List.append_nil _).symm
  | cons byte bytes inductionHypothesis =>
      have shifted : ∀ place, place + (index + 1) = place + 1 + index := by omega
      rw [run_streamLoop_cons spaced index byte bytes stream unset onRight,
        inductionHypothesis (index + 1) _ rfl rfl, List.mapIdx_cons, List.flatten_cons,
        Nat.zero_add, List.append_assoc]
      simp only [shifted]

theorem hexBytes_streamed (bytes : List UInt8) (spaced : Bool) :
    HexBytes.streamed bytes spaced = HexBytes bytes spaced :=
  written_streamLoop spaced bytes 0 {} rfl rfl

/-! ## The renderer -/

def RenderTextLabel.streamed (name : List Char) (width : Nat) : Output := do
  insert (text "    ")
  left
  Ostream.setw width
  setfill ' '
  insert name
  insert (text ": ")

def RenderTextPreview.streamed (labelWidth : Nat) (name : List Char) (bytes : TraceBytesHeader)
    (preview : List UInt8) : Output := do
  insert (HexBytes.streamed preview true)
  (if bytes.captured < bytes.requested then insert (text " ...") else pure ())
  insert (text "\n")
  RenderTextLabel.streamed (name ++ text "_text") labelWidth
  insert (chars (PreviewText preview))
  (if bytes.captured < bytes.requested then insert (text "...") else pure ())
  insert (text "\n")
  RenderTextLabel.streamed (name ++ text "_status") labelWidth
  insert (HexStatus.streamed bytes.captureStatus)

def RenderTextValue.streamed (labelWidth : Nat) (field : TraceFieldView) (value : List UInt8) :
    Output :=
  let type := field.header.type
  if type = TraceFieldPointer then do
    insert (text "0x")
    right
    uppercase
    hex
    Ostream.setw 16
    setfill '0'
    insertUnsigned (ReadUInt64 value).toNat
    setfill ' '
    dec
  else if type = TraceFieldUInt32 then insertUnsigned (ReadUInt32 value).toNat
  else if type = TraceFieldUInt64 then insertUnsigned (ReadUInt64 value).toNat
  else if type = TraceFieldInt32 then insertSigned 32 (int32 (ReadUInt32 value))
  else if type = TraceFieldInt64 then insertSigned 64 (int64 (ReadUInt64 value))
  else if type = TraceFieldBoolean then insert (boolean (value.getD 0 0 != 0))
  else if type = TraceFieldStatus then insert (HexStatus.streamed (ReadUInt32 value))
  else if type = TraceFieldBytes then
    let bytes := ReadBytesHeader value
    let preview := (value.drop sizeofTraceBytesHeader).take bytes.captured.toNat
    RenderTextPreview.streamed labelWidth (chars field.name) bytes preview
  else do
    insert (text "type_")
    insertUnsigned type.toNat
    insert (text " ")
    insert (HexBytes.streamed (value.take field.header.valueSize.toNat) true)

def RenderTextFields.streamed (event : TraceEvent) (labelWidth : Nat) :
    List TraceFieldView → Output
  | [] => pure ()
  | field :: fields => do
      RenderTextLabel.streamed (chars field.name) labelWidth
      RenderTextValue.streamed labelWidth field (event.payload.drop field.value)
      insert (text "\n")
      RenderTextFields.streamed event labelWidth fields

def RenderTextFlag.streamed (event : TraceEvent) (labelWidth : Nat) (flag : UInt16)
    (name : String) : Output :=
  if flagged event flag then do
    RenderTextLabel.streamed (text name) labelWidth
    insert (text "true\n")
  else pure ()

def RenderTextHeader.streamed (fileTimeToSystemTime : FileTimeToSystemTime) (event : TraceEvent)
    (parsed : ParsedEvent) (labelWidth : Nat) : Output := do
  insert (text "\n[*] ")
  insert (chars parsed.moduleName)
  insert (text "!")
  insert (chars parsed.apiName)
  insert (text " ----------\n")
  RenderTextLabel.streamed (text "timestamp") labelWidth
  insert (FormatTimestamp.streamed fileTimeToSystemTime event.header.timestamp100ns)
  insert (text "\n")
  RenderTextLabel.streamed (text "thread_id") labelWidth
  insertUnsigned event.header.threadId.toNat
  insert (text "\n")
  RenderTextLabel.streamed (text "sequence") labelWidth
  insertUnsigned event.header.sequence.toNat
  insert (text "\n")

def RenderTraceEventText.streamed (fileTimeToSystemTime : FileTimeToSystemTime)
    (event : TraceEvent) : Output :=
  match ParseTraceEvent event event.header.size.toNat with
  | none => pure ()
  | some parsed => do
      let labelWidth := TextLabelWidth parsed.fields event
      RenderTextHeader.streamed fileTimeToSystemTime event parsed labelWidth
      RenderTextFields.streamed event labelWidth parsed.fields
      RenderTextFlag.streamed event labelWidth TraceEventFlagTruncated "truncated"
      RenderTextFlag.streamed event labelWidth TraceEventFlagFieldError "field_error"

/-! ## What it writes -/

theorem writes_renderTextLabel (name : List Char) (width : Nat) :
    Writes (RenderTextLabel.streamed name width) (RenderTextLabel name width) := by
  intro stream settled
  refine ⟨?_, settled.base, rfl⟩
  change stream.written ++ stream.pad (text "    ") ++ name.rightpad width ' ' ++ text ": " = _
  rw [pad_zero settled.width, RenderTextLabel]
  simp only [List.append_assoc]

theorem writes_pointer (value : Nat) :
    Writes (do
      insert (text "0x")
      right
      uppercase
      hex
      Ostream.setw 16
      setfill '0'
      insertUnsigned value
      setfill ' '
      dec) (text "0x" ++ setw 16 '0' (upperHex value)) := by
  intro stream settled
  refine ⟨?_, rfl, rfl⟩
  change stream.written ++ stream.pad (text "0x") ++ setw 16 '0' (upperHex value) = _
  rw [pad_zero settled.width, List.append_assoc]

theorem signedDigits_eq (value : Int) : signedDigits value = signedDecimal value := by
  cases value <;> rfl

theorem writes_signed (bits : Nat) (value : Int) :
    Writes (insertSigned bits value) (signedDecimal value) :=
  (writes_insertSigned bits value).of_eq (signedDigits_eq value)

/-- The dots behind a preview that was cut off. -/
theorem writes_dots (cut : Prop) [Decidable cut] (dots : List Char) :
    Writes (if cut then insert dots else pure ()) (if cut then dots else []) :=
  writes_ite (fun _ => writes_insert dots) fun _ => writes_pure

theorem writes_renderTextPreview (labelWidth : Nat) (name : List Char) (bytes : TraceBytesHeader)
    (preview : List UInt8) :
    Writes (RenderTextPreview.streamed labelWidth name bytes preview)
      (RenderTextPreview labelWidth name bytes (HexBytes preview true) (PreviewText preview)) := by
  have dots := writes_dots (bytes.captured < bytes.requested)
  refine Writes.of_eq (writes_bind (writes_insert _) (writes_bind (dots _)
    (writes_bind (writes_insert _) (writes_bind (writes_renderTextLabel _ _)
    (writes_bind (writes_insert _) (writes_bind (dots _)
    (writes_bind (writes_insert _) (writes_bind (writes_renderTextLabel _ _)
    (writes_insert _))))))))) ?_
  rw [hexBytes_streamed, hexStatus_streamed]
  simp only [RenderTextPreview, List.append_assoc]

theorem writes_renderTextValue (labelWidth : Nat) (field : TraceFieldView) (value : List UInt8) :
    Writes (RenderTextValue.streamed labelWidth field value)
      (RenderTextValue labelWidth field value) := by
  unfold RenderTextValue.streamed RenderTextValue
  refine writes_ite (fun _ => writes_pointer _) fun _ => ?_
  refine writes_ite (fun _ => writes_insertUnsigned _) fun _ => ?_
  refine writes_ite (fun _ => writes_insertUnsigned _) fun _ => ?_
  refine writes_ite (fun _ => writes_signed 32 _) fun _ => ?_
  refine writes_ite (fun _ => writes_signed 64 _) fun _ => ?_
  refine writes_ite (fun _ => writes_insert _) fun _ => ?_
  refine writes_ite (fun _ => writes_insert _) fun _ => ?_
  refine writes_ite (fun _ => writes_renderTextPreview _ _ _ _) fun _ => ?_
  refine Writes.of_eq (writes_bind (writes_insert _) (writes_bind (writes_insertUnsigned _)
    (writes_bind (writes_insert _) (writes_insert _)))) ?_
  rw [hexBytes_streamed]
  simp only [decimal, List.append_assoc]

theorem writes_renderTextFields (event : TraceEvent) (labelWidth : Nat)
    (fields : List TraceFieldView) :
    Writes (RenderTextFields.streamed event labelWidth fields)
      (RenderTextFields event labelWidth fields) := by
  induction fields with
  | nil => exact writes_pure
  | cons field fields inductionHypothesis =>
      refine Writes.of_eq (writes_bind (writes_renderTextLabel _ _)
        (writes_bind (writes_renderTextValue _ _ _)
        (writes_bind (writes_insert _) inductionHypothesis))) ?_
      simp only [RenderTextFields, List.flatMap_cons, List.append_assoc]

theorem writes_renderTextFlag (event : TraceEvent) (labelWidth : Nat) (flag : UInt16)
    (name : String) :
    Writes (RenderTextFlag.streamed event labelWidth flag name)
      (RenderTextFlag event labelWidth flag name) :=
  writes_ite (fun _ => writes_bind (writes_renderTextLabel _ _) (writes_insert _))
    fun _ => writes_pure

theorem writes_renderTextHeader (fileTimeToSystemTime : FileTimeToSystemTime)
    (event : TraceEvent) (parsed : ParsedEvent) (labelWidth : Nat) :
    Writes (RenderTextHeader.streamed fileTimeToSystemTime event parsed labelWidth)
      (RenderTextHeader fileTimeToSystemTime event parsed labelWidth) := by
  refine Writes.of_eq (writes_bind (writes_insert _) (writes_bind (writes_insert _)
    (writes_bind (writes_insert _) (writes_bind (writes_insert _) (writes_bind (writes_insert _)
    (writes_bind (writes_renderTextLabel _ _) (writes_bind (writes_insert _)
    (writes_bind (writes_insert _) (writes_bind (writes_renderTextLabel _ _)
    (writes_bind (writes_insertUnsigned _) (writes_bind (writes_insert _)
    (writes_bind (writes_renderTextLabel _ _) (writes_bind (writes_insertUnsigned _)
    (writes_insert _)))))))))))))) ?_
  rw [formatTimestamp_streamed]
  simp only [RenderTextHeader, decimal, List.append_assoc]

/-- The stream gains what the renderer writes, whatever earlier events left in its state. -/
theorem writes_renderTraceEventText (fileTimeToSystemTime : FileTimeToSystemTime)
    (event : TraceEvent) :
    Writes (RenderTraceEventText.streamed fileTimeToSystemTime event)
      (RenderTraceEventText fileTimeToSystemTime event) := by
  unfold RenderTraceEventText.streamed RenderTraceEventText
  cases ParseTraceEvent event event.header.size.toNat with
  | none => exact writes_pure
  | some parsed =>
      refine Writes.of_eq (writes_bind (writes_renderTextHeader _ _ _ _)
        (writes_bind (writes_renderTextFields _ _ _)
        (writes_bind (writes_renderTextFlag _ _ _ _) (writes_renderTextFlag _ _ _ _)))) ?_
      simp only [List.append_assoc]

/-- The streams of a session: opened with the default formatting, they receive other
text and events. -/
inductive SessionStream (fileTimeToSystemTime : FileTimeToSystemTime) : Ostream → Prop
  | opened : SessionStream fileTimeToSystemTime {}
  | inserted {output : Ostream} (field : List Char) :
      SessionStream fileTimeToSystemTime output →
      SessionStream fileTimeToSystemTime ((insert field).run output).2
  | rendered {output : Ostream} (event : TraceEvent) :
      SessionStream fileTimeToSystemTime output →
      SessionStream fileTimeToSystemTime
        ((RenderTraceEventText.streamed fileTimeToSystemTime event).run output).2

theorem SessionStream.settled {fileTimeToSystemTime : FileTimeToSystemTime} {output : Ostream}
    (used : SessionStream fileTimeToSystemTime output) : output.Settled := by
  induction used with
  | opened => exact settled_new
  | inserted field _ inductionHypothesis =>
      exact (writes_insert field _ inductionHypothesis).2
  | rendered event _ inductionHypothesis =>
      exact (writes_renderTraceEventText fileTimeToSystemTime event _ inductionHypothesis).2

end TraceRenderer

end ApiScope
