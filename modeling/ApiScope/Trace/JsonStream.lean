import ApiScope.Trace.Stream

/-!
# The JSONL renderer on its stream

`RenderTraceEventJsonl` as its insertions.  It sets no formatting of its own and
relies on the numbers of its stream being decimal.
-/

namespace ApiScope

open Ostream

namespace TraceRenderer

def RenderJsonStatus.streamed (status : UInt32) : Output := do
  insert (text "\x7b\"type\":\"status\",\"value\":")
  insertSigned 32 (int32 status)
  insert (text ",\"hex\":\"")
  insert (HexStatus.streamed status)
  insert (text "\"\x7d")

def RenderJsonPreview.streamed (bytes : TraceBytesHeader) (preview : List UInt8) : Output := do
  insert (text "\x7b\"type\":\"bytes\",\"requested\":")
  insertUnsigned bytes.requested.toNat
  insert (text ",\"captured\":")
  insertUnsigned bytes.captured.toNat
  insert (text ",\"capture_status\":")
  insertSigned 32 (int32 bytes.captureStatus)
  insert (text ",\"capture_status_hex\":\"")
  insert (HexStatus.streamed bytes.captureStatus)
  insert (text "\"")
  insert (text ",\"hex\":\"")
  insert (HexBytes.streamed preview false)
  insert (text "\"")
  insert (text ",\"text\":\"")
  insert (JsonEscape (PreviewText preview))
  insert (text "\"\x7d")

def RenderJsonUnknown.streamed (header : TraceFieldHeader) (value : List UInt8) : Output := do
  insert (text "\x7b\"type\":\"unknown_")
  insertUnsigned header.type.toNat
  insert (text "\",\"hex\":\"")
  insert (HexBytes.streamed (value.take header.valueSize.toNat) false)
  insert (text "\"\x7d")

/-- The `switch` of the field loop. -/
def RenderJsonValue.streamed (header : TraceFieldHeader) (value : List UInt8) : Output :=
  if header.type = TraceFieldPointer ∨ header.type = TraceFieldUInt64 then
    insertUnsigned (ReadUInt64 value).toNat
  else if header.type = TraceFieldUInt32 then insertUnsigned (ReadUInt32 value).toNat
  else if header.type = TraceFieldInt32 then insertSigned 32 (int32 (ReadUInt32 value))
  else if header.type = TraceFieldInt64 then insertSigned 64 (int64 (ReadUInt64 value))
  else if header.type = TraceFieldBoolean then insert (boolean (value.getD 0 0 != 0))
  else if header.type = TraceFieldStatus then RenderJsonStatus.streamed (ReadUInt32 value)
  else if header.type = TraceFieldBytes then
    let bytes := ReadBytesHeader value
    RenderJsonPreview.streamed bytes
      ((value.drop sizeofTraceBytesHeader).take bytes.captured.toNat)
  else RenderJsonUnknown.streamed header value

/-- Every field but the first follows a comma. -/
def RenderJsonComma.streamed (index : Nat) : Output :=
  if index != 0 then insert (text ",") else pure ()

def RenderJsonFields.streamed (event : TraceEvent) : Nat → List TraceFieldView → Output
  | _, [] => pure ()
  | index, field :: fields => do
      RenderJsonComma.streamed index
      insert (text "\"")
      insert (chars field.name)
      insert (text "\":")
      RenderJsonValue.streamed field.header (event.payload.drop field.value)
      RenderJsonFields.streamed event (index + 1) fields

def RenderJsonHeader.streamed (fileTimeToSystemTime : FileTimeToSystemTime) (event : TraceEvent)
    (parsed : ParsedEvent) : Output := do
  insert (text "\x7b\"sequence\":")
  insertUnsigned event.header.sequence.toNat
  insert (text ",\"timestamp\":\"")
  insert (FormatTimestamp.streamed fileTimeToSystemTime event.header.timestamp100ns)
  insert (text "\"")
  insert (text ",\"timestamp_100ns\":")
  insertUnsigned event.header.timestamp100ns.toNat
  insert (text ",\"thread_id\":")
  insertUnsigned event.header.threadId.toNat
  insert (text ",\"module\":\"")
  insert (JsonEscape parsed.moduleName)
  insert (text "\"")
  insert (text ",\"api\":\"")
  insert (JsonEscape parsed.apiName)
  insert (text "\"")
  insert (text ",\"hook\":\"")
  insert (JsonEscape (parsed.moduleName ++ [ascii '!'] ++ parsed.apiName))
  insert (text "\"")
  insert (text ",\"truncated\":")
  insert (boolean (flagged event TraceEventFlagTruncated))
  insert (text ",\"field_error\":")
  insert (boolean (flagged event TraceEventFlagFieldError))
  insert (text ",\"fields\":\x7b")

def RenderTraceEventJsonl.streamed (fileTimeToSystemTime : FileTimeToSystemTime)
    (event : TraceEvent) : Output :=
  match ParseTraceEvent event event.header.size.toNat with
  | none => pure ()
  | some parsed => do
      RenderJsonHeader.streamed fileTimeToSystemTime event parsed
      RenderJsonFields.streamed event 0 parsed.fields
      insert (text "\x7d\x7d\n")

/-! ## What it writes -/

theorem writes_renderJsonStatus (status : UInt32) :
    Writes (RenderJsonStatus.streamed status)
      (text "\x7b\"type\":\"status\",\"value\":" ++ signedDecimal (int32 status) ++
        text ",\"hex\":\"" ++ HexStatus status ++ text "\"\x7d") := by
  refine Writes.of_eq (writes_bind (writes_insert _) (writes_bind (writes_signed 32 _)
    (writes_bind (writes_insert _) (writes_bind (writes_insert _) (writes_insert _))))) ?_
  rw [hexStatus_streamed]
  simp only [List.append_assoc]

theorem writes_renderJsonPreview (bytes : TraceBytesHeader) (preview : List UInt8) :
    Writes (RenderJsonPreview.streamed bytes preview)
      (text "\x7b\"type\":\"bytes\",\"requested\":" ++ decimal bytes.requested.toNat ++
        text ",\"captured\":" ++ decimal bytes.captured.toNat ++
        text ",\"capture_status\":" ++ signedDecimal (int32 bytes.captureStatus) ++
        text ",\"capture_status_hex\":\"" ++ HexStatus bytes.captureStatus ++ text "\"" ++
        text ",\"hex\":\"" ++ HexBytes preview false ++ text "\"" ++
        text ",\"text\":\"" ++ JsonEscape (PreviewText preview) ++ text "\"\x7d") := by
  refine Writes.of_eq (writes_bind (writes_insert _) (writes_bind (writes_insertUnsigned _)
    (writes_bind (writes_insert _) (writes_bind (writes_insertUnsigned _)
    (writes_bind (writes_insert _) (writes_bind (writes_signed 32 _)
    (writes_bind (writes_insert _) (writes_bind (writes_insert _) (writes_bind (writes_insert _)
    (writes_bind (writes_insert _) (writes_bind (writes_insert _) (writes_bind (writes_insert _)
    (writes_bind (writes_insert _) (writes_bind (writes_insert _)
    (writes_insert _))))))))))))))) ?_
  rw [hexStatus_streamed, hexBytes_streamed]
  simp only [decimal, List.append_assoc]

theorem writes_renderJsonUnknown (header : TraceFieldHeader) (value : List UInt8) :
    Writes (RenderJsonUnknown.streamed header value)
      (text "\x7b\"type\":\"unknown_" ++ decimal header.type.toNat ++ text "\",\"hex\":\"" ++
        HexBytes (value.take header.valueSize.toNat) false ++ text "\"\x7d") := by
  refine Writes.of_eq (writes_bind (writes_insert _) (writes_bind (writes_insertUnsigned _)
    (writes_bind (writes_insert _) (writes_bind (writes_insert _) (writes_insert _))))) ?_
  rw [hexBytes_streamed]
  simp only [decimal, List.append_assoc]

theorem writes_renderJsonValue (header : TraceFieldHeader) (value : List UInt8) :
    Writes (RenderJsonValue.streamed header value) (RenderJsonValue header value) := by
  unfold RenderJsonValue.streamed RenderJsonValue
  refine writes_ite (fun _ => writes_insertUnsigned _) fun _ => ?_
  refine writes_ite (fun _ => writes_insertUnsigned _) fun _ => ?_
  refine writes_ite (fun _ => writes_signed 32 _) fun _ => ?_
  refine writes_ite (fun _ => writes_signed 64 _) fun _ => ?_
  refine writes_ite (fun _ => writes_insert _) fun _ => ?_
  refine writes_ite (fun _ => writes_renderJsonStatus _) fun _ => ?_
  exact writes_ite (fun _ => writes_renderJsonPreview _ _) fun _ => writes_renderJsonUnknown _ _

theorem writes_renderJsonComma (index : Nat) :
    Writes (RenderJsonComma.streamed index) (if index != 0 then text "," else []) :=
  writes_ite (fun _ => writes_insert _) fun _ => writes_pure

theorem writes_renderJsonFields (event : TraceEvent) (index : Nat)
    (fields : List TraceFieldView) :
    Writes (RenderJsonFields.streamed event index fields) (RenderJsonFields event index fields) := by
  induction fields generalizing index with
  | nil => exact writes_pure
  | cons field fields inductionHypothesis =>
      refine Writes.of_eq (writes_bind (writes_renderJsonComma index) (writes_bind (writes_insert _)
        (writes_bind (writes_insert _) (writes_bind (writes_insert _)
        (writes_bind (writes_renderJsonValue _ _) (inductionHypothesis (index + 1))))))) ?_
      simp only [RenderJsonFields, List.append_assoc]

theorem writes_renderJsonHeader (fileTimeToSystemTime : FileTimeToSystemTime)
    (event : TraceEvent) (parsed : ParsedEvent) :
    Writes (RenderJsonHeader.streamed fileTimeToSystemTime event parsed)
      (RenderJsonHeader fileTimeToSystemTime event parsed) := by
  refine Writes.of_eq (writes_bind (writes_insert _) (writes_bind (writes_insertUnsigned _)
    (writes_bind (writes_insert _) (writes_bind (writes_insert _)
    (writes_bind (writes_insert _) (writes_bind (writes_insert _)
    (writes_bind (writes_insertUnsigned _) (writes_bind (writes_insert _)
    (writes_bind (writes_insertUnsigned _) (writes_bind (writes_insert _)
    (writes_bind (writes_insert _) (writes_bind (writes_insert _)
    (writes_bind (writes_insert _) (writes_bind (writes_insert _)
    (writes_bind (writes_insert _) (writes_bind (writes_insert _)
    (writes_bind (writes_insert _) (writes_bind (writes_insert _)
    (writes_bind (writes_insert _) (writes_bind (writes_insert _)
    (writes_bind (writes_insert _) (writes_bind (writes_insert _)
    (writes_insert _))))))))))))))))))))))) ?_
  unfold RenderJsonHeader
  rw [formatTimestamp_streamed]
  simp only [decimal, List.append_assoc]

/-- On a stream with decimal numbers, the stream gains the line of the event. -/
theorem writes_renderTraceEventJsonl (fileTimeToSystemTime : FileTimeToSystemTime)
    (event : TraceEvent) :
    Writes (RenderTraceEventJsonl.streamed fileTimeToSystemTime event)
      (RenderTraceEventJsonl fileTimeToSystemTime event) := by
  unfold RenderTraceEventJsonl.streamed RenderTraceEventJsonl
  cases ParseTraceEvent event event.header.size.toNat with
  | none => exact writes_pure
  | some parsed =>
      exact Writes.of_eq (writes_bind (writes_renderJsonHeader _ _ _)
        (writes_bind (writes_renderJsonFields _ _ _) (writes_insert _)))
        (List.append_assoc _ _ _).symm

end TraceRenderer

end ApiScope
