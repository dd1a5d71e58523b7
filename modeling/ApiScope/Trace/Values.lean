import ApiScope.Library.Memory
import ApiScope.Trace.Builder
import ApiScope.Trace.Jsonl
import Mathlib.Algebra.BigOperators.Group.List.Basic

/-!
# Values from the call to the line

Calls with good names and room for all of them add every field and raise no flag.
What a line then shows is the value that was passed to the call.
-/

namespace ApiScope

open Bytes TraceLanguage TraceRenderer

namespace TraceTransport

namespace AddCall

/-- The most bytes its value can take. -/
def capacity : AddCall → Nat
  | pointer _ _ | uint64 _ _ | int64 _ _ => 8
  | uint32 _ _ | int32 _ _ | status _ _ => 4
  | boolean _ _ => 1
  | bufferPreview _ _ _ _ => sizeofTraceBytesHeader + TRACE_MAX_BUFFER_BYTES

/-- The most bytes its field can take. -/
def room (call : AddCall) : Nat :=
  sizeofTraceFieldHeader + call.field.name.length + call.capacity

theorem length_field_le (call : AddCall) : call.field.bytes.length ≤ call.room := by
  rw [Field.length_bytes, room]
  refine Nat.add_le_add_left ?_ _
  cases call with
  | pointer | uint32 | uint64 | int32 | int64 | boolean | status => simp [field, capacity]
  | bufferPreview name buffer length readMemory =>
      obtain ⟨stored, small, _⟩ := captureTraceBuffer_spec readMemory buffer length
      simp only [field, capacity, List.length_append, TraceBytesHeader.length_bytes,
        List.length_take, stored, sizeofTraceBytesHeader]
      omega

end AddCall

theorem addAll_append (event : TraceEvent) (first second : List AddCall) :
    (addAll event (first ++ second)).2 = (addAll (addAll event first).2 second).2 := by
  induction first generalizing event with
  | nil => rfl
  | cons call first inductionHypothesis => exact inductionHypothesis (call.run event).2

/-- Good names, none twice and room for all: every call succeeds, and the header changes in
its size and its number of fields only. -/
theorem addAll_complete {event : TraceEvent} {moduleName apiName : List UInt8}
    {before : List Field} {calls : List AddCall}
    (encodes : Encodes event moduleName apiName before)
    (valid : ∀ call ∈ calls, FieldName call.field.name)
    (distinct : ((before ++ calls.map AddCall.field).map Field.name).Nodup)
    (fits : event.header.size.toNat + (calls.map AddCall.room).sum ≤ TRACE_MAX_EVENT_BYTES) :
    Encodes (addAll event calls).2 moduleName apiName (before ++ calls.map AddCall.field) ∧
    ∃ size fieldCount, (addAll event calls).2.header =
      { event.header with size := size, fieldCount := fieldCount } := by
  induction calls generalizing event before with
  | nil => exact ⟨by simpa [addAll] using encodes, _, _, rfl⟩
  | cons call calls inductionHypothesis =>
      obtain ⟨type, name, value, valueSize, enough, valued, isField, appends⟩ := call.exists_append
      obtain ⟨condition, appended⟩ := appendTraceField_spec encodes type name enough valued
      have bounded := call.length_field_le
      rw [List.map_cons, List.sum_cons] at fits
      have accepted : (AppendTraceField event type name (some value) valueSize).1 = true := by
        refine condition.mpr ⟨?_, ?_, ?_⟩
        · simpa [isField] using valid call (by simp)
        · intro member
          rw [List.map_append, List.nodup_append] at distinct
          exact distinct.2.2 _ member _ (by simp [isField]) rfl
        · rw [Field.length_bytes, isField] at bounded
          dsimp only at bounded
          rw [List.length_take, min_eq_left enough] at bounded
          omega
      obtain ⟨size, fieldCount, header⟩ := (appendTraceField_accepted encodes accepted).1
      rw [if_pos accepted, ← isField, ← appends] at appended
      rw [← appends] at header
      have oldSize := encodes.size
      have newSize := appended.size
      rw [contents_snoc, List.length_append] at newSize
      obtain ⟨final, size', fieldCount', header'⟩ := inductionHypothesis appended
        (fun other member => valid other (List.mem_cons_of_mem _ member)) (by simpa using distinct)
        (by omega)
      refine ⟨by simpa [addAll] using final, size', fieldCount', ?_⟩
      rw [header] at header'
      exact header'

/-! ## What a line shows -/

theorem readUInt32_littleEndian (value : UInt32) :
    ReadUInt32 (littleEndian 4 value.toNat) = value := by
  apply UInt32.toNat_inj.mp
  rw [toNat_readUInt32 (length_littleEndian ..), ofLittleEndian_littleEndian]
  exact Nat.mod_eq_of_lt value.toNat_lt

theorem readUInt64_littleEndian (value : UInt64) :
    ReadUInt64 (littleEndian 8 value.toNat) = value := by
  apply UInt64.toNat_inj.mp
  rw [toNat_readUInt64 (length_littleEndian ..), ofLittleEndian_littleEndian]
  exact Nat.mod_eq_of_lt value.toNat_lt

/-- The object of a preview: how much was asked for, how much was captured and how that
went, and the captured bytes. -/
def TraceBytesValue.Shows (preview : TraceBytesValue) (shown : Json.Value) : Prop :=
  ∃ members digits, shown = .object members ∧
    Json.lookup (text "requested") members = some (.number preview.header.requested.toNat) ∧
    Json.lookup (text "captured") members = some (.number preview.header.captured.toNat) ∧
    Json.lookup (text "capture_status") members =
      some (.number preview.header.captureStatus.toInt32.toInt) ∧
    Json.lookup (text "hex") members = some (.string digits) ∧
    decodeHex digits = some (preview.bytes.take preview.header.captured.toNat)

namespace AddCall

/-- The value of the call, as a line has to show it. -/
def Shows : AddCall → Json.Value → Prop
  | pointer _ value, shown => shown = .number value.toNat
  | uint32 _ value, shown => shown = .number value.toNat
  | uint64 _ value, shown => shown = .number value.toNat
  | int32 _ value, shown => shown = .number value.toInt
  | int64 _ value, shown => shown = .number value.toInt
  | boolean _ value, shown => shown = .bool value
  | status _ value, shown => ∃ members, shown = .object members ∧
      Json.lookup (text "value") members = some (.number value.toInt32.toInt)
  | bufferPreview _ buffer length readMemory, shown =>
      (CaptureTraceBuffer readMemory buffer length).Shows shown

theorem shows_jsonOf (call : AddCall) : call.Shows (jsonOf call.field) := by
  cases call with
  | pointer name value => simp [Shows, field, jsonOf, readUInt64_littleEndian]
  | uint32 name value => simp [Shows, field, jsonOf, readUInt32_littleEndian]
  | uint64 name value => simp [Shows, field, jsonOf, readUInt64_littleEndian]
  | int32 name value =>
      have same : TraceRenderer.int32 value.toUInt32 = value.toInt := rfl
      simp [Shows, field, jsonOf, readUInt32_littleEndian, same]
  | int64 name value =>
      have same : TraceRenderer.int64 value.toUInt64 = value.toInt := rfl
      simp [Shows, field, jsonOf, readUInt64_littleEndian, same]
  | boolean name value => cases value <;> simp [Shows, field, jsonOf]
  | status name value =>
      refine ⟨_, rfl, ?_⟩
      simp [Json.lookup, text, field, readUInt32_littleEndian, TraceRenderer.int32]
  | bufferPreview name buffer length readMemory =>
      refine ⟨_, _, rfl, ?_, ?_, ?_, rfl, ?_⟩
      · simp [Json.lookup, text, field, ReadBytesHeader, TraceBytesHeader.ofBytes_bytes]
      · simp [Json.lookup, text, field, ReadBytesHeader, TraceBytesHeader.ofBytes_bytes]
      · simp [Json.lookup, text, field, ReadBytesHeader, TraceBytesHeader.ofBytes_bytes, TraceRenderer.int32]
      · rw [decodeHex_hexBytes]
        simp [field]

end AddCall

end TraceTransport

end ApiScope
