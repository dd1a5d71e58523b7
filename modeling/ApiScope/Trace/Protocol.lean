import ApiScope.Library.Bytes
import Mathlib.Data.List.TakeDrop

/-!
# The trace event format

The packed structures of `trace_protocol.h` and their byte layout.  An event
is its 32 header bytes followed by 992 payload bytes; the ring moves events as
raw bytes, so both directions of the layout are needed.
-/

namespace ApiScope

open Bytes

@[simp] def TRACE_EVENT_MAGIC : UInt32 := 0x53495041
@[simp] def TRACE_EVENT_VERSION : UInt16 := 5
@[simp] def TRACE_MAX_EVENT_BYTES : Nat := 1024
@[simp] def TRACE_MAX_MODULE_NAME_BYTES : Nat := 63
@[simp] def TRACE_MAX_API_NAME_BYTES : Nat := 63
@[simp] def TRACE_MAX_FIELD_NAME_BYTES : Nat := 63
@[simp] def TRACE_MAX_BUFFER_BYTES : Nat := 64

/-- `sizeof(TraceEventHeader)` -/
@[simp] def sizeofTraceEventHeader : Nat := 32
/-- `sizeof(TraceFieldHeader)` -/
@[simp] def sizeofTraceFieldHeader : Nat := 4
/-- `sizeof(TraceBytesHeader)` -/
@[simp] def sizeofTraceBytesHeader : Nat := 12

@[simp] def TraceEventFlagTruncated : UInt16 := 1
@[simp] def TraceEventFlagFieldError : UInt16 := 2

@[simp] def TraceFieldPointer : UInt8 := 1
@[simp] def TraceFieldUInt32 : UInt8 := 2
@[simp] def TraceFieldUInt64 : UInt8 := 3
@[simp] def TraceFieldStatus : UInt8 := 4
@[simp] def TraceFieldBytes : UInt8 := 5
@[simp] def TraceFieldInt32 : UInt8 := 6
@[simp] def TraceFieldInt64 : UInt8 := 7
@[simp] def TraceFieldBoolean : UInt8 := 8

structure TraceEventHeader where
  magic : UInt32
  version : UInt16
  size : UInt16
  flags : UInt16
  fieldCount : UInt16
  sequence : UInt32
  timestamp100ns : UInt64
  threadId : UInt32
  moduleNameLength : UInt8
  apiNameLength : UInt8
  reserved : UInt8 × UInt8
  deriving DecidableEq, Repr

structure TraceFieldHeader where
  type : UInt8
  nameLength : UInt8
  valueSize : UInt16
  deriving DecidableEq, Repr

structure TraceBytesHeader where
  requested : UInt32
  captured : UInt32
  captureStatus : UInt32
  deriving DecidableEq, Repr

/-- An event always holds its 1024 bytes. -/
structure TraceEvent where
  header : TraceEventHeader
  payload : List UInt8
  payload_length : payload.length = TRACE_MAX_EVENT_BYTES - sizeofTraceEventHeader
  deriving DecidableEq

/-- `TraceNameBytes` of `trace_transport.cpp`: the two names in front of the fields. -/
def TraceNameBytes (event : TraceEvent) : Nat :=
  event.header.moduleNameLength.toNat + event.header.apiNameLength.toNat

/-! ## Byte layout -/

/-- A word of the given width at an offset. -/
def wordAt (bytes : List UInt8) (offset width : Nat) : Nat :=
  ofLittleEndian (slice bytes offset width)

def TraceEventHeader.bytes (header : TraceEventHeader) : List UInt8 :=
  littleEndian 4 header.magic.toNat ++ littleEndian 2 header.version.toNat ++
  littleEndian 2 header.size.toNat ++ littleEndian 2 header.flags.toNat ++
  littleEndian 2 header.fieldCount.toNat ++ littleEndian 4 header.sequence.toNat ++
  littleEndian 8 header.timestamp100ns.toNat ++ littleEndian 4 header.threadId.toNat ++
  littleEndian 1 header.moduleNameLength.toNat ++ littleEndian 1 header.apiNameLength.toNat ++
  littleEndian 1 header.reserved.1.toNat ++ littleEndian 1 header.reserved.2.toNat

def TraceEventHeader.ofBytes (bytes : List UInt8) : TraceEventHeader where
  magic := .ofNat (wordAt bytes 0 4)
  version := .ofNat (wordAt bytes 4 2)
  size := .ofNat (wordAt bytes 6 2)
  flags := .ofNat (wordAt bytes 8 2)
  fieldCount := .ofNat (wordAt bytes 10 2)
  sequence := .ofNat (wordAt bytes 12 4)
  timestamp100ns := .ofNat (wordAt bytes 16 8)
  threadId := .ofNat (wordAt bytes 24 4)
  moduleNameLength := .ofNat (wordAt bytes 28 1)
  apiNameLength := .ofNat (wordAt bytes 29 1)
  reserved := (.ofNat (wordAt bytes 30 1), .ofNat (wordAt bytes 31 1))

def TraceFieldHeader.bytes (header : TraceFieldHeader) : List UInt8 :=
  littleEndian 1 header.type.toNat ++ littleEndian 1 header.nameLength.toNat ++
  littleEndian 2 header.valueSize.toNat

def TraceFieldHeader.ofBytes (bytes : List UInt8) : TraceFieldHeader where
  type := .ofNat (wordAt bytes 0 1)
  nameLength := .ofNat (wordAt bytes 1 1)
  valueSize := .ofNat (wordAt bytes 2 2)

def TraceBytesHeader.bytes (header : TraceBytesHeader) : List UInt8 :=
  littleEndian 4 header.requested.toNat ++ littleEndian 4 header.captured.toNat ++
  littleEndian 4 header.captureStatus.toNat

def TraceBytesHeader.ofBytes (bytes : List UInt8) : TraceBytesHeader where
  requested := .ofNat (wordAt bytes 0 4)
  captured := .ofNat (wordAt bytes 4 4)
  captureStatus := .ofNat (wordAt bytes 8 4)

@[simp]
theorem TraceEventHeader.length_bytes (header : TraceEventHeader) :
    header.bytes.length = 32 := by simp [TraceEventHeader.bytes]

@[simp]
theorem TraceFieldHeader.length_bytes (header : TraceFieldHeader) :
    header.bytes.length = 4 := by simp [TraceFieldHeader.bytes]

@[simp]
theorem TraceBytesHeader.length_bytes (header : TraceBytesHeader) :
    header.bytes.length = 12 := by simp [TraceBytesHeader.bytes]

/-! ### Reading words back -/

theorem wordAt_append_left (piece rest : List UInt8) (width : Nat)
    (sized : piece.length = width) : wordAt (piece ++ rest) 0 width = ofLittleEndian piece := by
  simp [wordAt, slice, ← sized]

theorem wordAt_append_right (piece rest : List UInt8) (offset width : Nat)
    (behind : piece.length ≤ offset) :
    wordAt (piece ++ rest) offset width = wordAt rest (offset - piece.length) width := by
  simp [wordAt, slice, List.drop_append, List.drop_eq_nil_of_le behind]

theorem wordAt_lt (bytes : List UInt8) (offset width : Nat) :
    wordAt bytes offset width < 256 ^ width := by
  refine lt_of_lt_of_le (ofLittleEndian_lt _) (Nat.pow_le_pow_right (by decide) ?_)
  simp

theorem littleEndian_wordAt (bytes : List UInt8) (offset width : Nat)
    (inside : offset + width ≤ bytes.length) :
    littleEndian width (wordAt bytes offset width) = slice bytes offset width :=
  littleEndian_ofLittleEndian_of_length (by simp; omega)

/-- A word of a prefix is a word of the whole. -/
theorem wordAt_take (bytes : List UInt8) (offset width count : Nat)
    (inside : offset + width ≤ count) :
    wordAt (bytes.take count) offset width = wordAt bytes offset width := by
  rw [wordAt, wordAt, slice, slice, List.drop_take, List.take_take, min_eq_left (by omega)]

theorem TraceFieldHeader.ofBytes_bytes (header : TraceFieldHeader) (rest : List UInt8) :
    TraceFieldHeader.ofBytes (header.bytes ++ rest) = header := by
  obtain ⟨type, nameLength, valueSize⟩ := header
  simp [TraceFieldHeader.ofBytes, TraceFieldHeader.bytes, wordAt_append_left, wordAt_append_right,
    ofLittleEndian_littleEndian]

theorem TraceBytesHeader.ofBytes_bytes (header : TraceBytesHeader) (rest : List UInt8) :
    TraceBytesHeader.ofBytes (header.bytes ++ rest) = header := by
  obtain ⟨requested, captured, captureStatus⟩ := header
  simp [TraceBytesHeader.ofBytes, TraceBytesHeader.bytes, wordAt_append_left, wordAt_append_right,
    ofLittleEndian_littleEndian]

theorem TraceEventHeader.ofBytes_bytes (header : TraceEventHeader) (rest : List UInt8) :
    TraceEventHeader.ofBytes (header.bytes ++ rest) = header := by
  obtain ⟨magic, version, size, flags, fieldCount, sequence, timestamp100ns, threadId,
    moduleNameLength, apiNameLength, first, second⟩ := header
  simp [TraceEventHeader.ofBytes, TraceEventHeader.bytes, wordAt_append_left, wordAt_append_right,
    ofLittleEndian_littleEndian]

/-! ### Writing back what was read -/

theorem littleEndian_uint8_wordAt (bytes : List UInt8) (offset : Nat)
    (inside : offset + 1 ≤ bytes.length) :
    littleEndian 1 (UInt8.ofNat (wordAt bytes offset 1)).toNat = slice bytes offset 1 := by
  rw [UInt8.toNat_ofNat', Nat.mod_eq_of_lt (b := 2 ^ 8) (wordAt_lt bytes offset 1)]
  exact littleEndian_wordAt bytes offset 1 inside

theorem littleEndian_uint16_wordAt (bytes : List UInt8) (offset : Nat)
    (inside : offset + 2 ≤ bytes.length) :
    littleEndian 2 (UInt16.ofNat (wordAt bytes offset 2)).toNat = slice bytes offset 2 := by
  rw [UInt16.toNat_ofNat', Nat.mod_eq_of_lt (b := 2 ^ 16) (wordAt_lt bytes offset 2)]
  exact littleEndian_wordAt bytes offset 2 inside

theorem littleEndian_uint32_wordAt (bytes : List UInt8) (offset : Nat)
    (inside : offset + 4 ≤ bytes.length) :
    littleEndian 4 (UInt32.ofNat (wordAt bytes offset 4)).toNat = slice bytes offset 4 := by
  rw [UInt32.toNat_ofNat', Nat.mod_eq_of_lt (b := 2 ^ 32) (wordAt_lt bytes offset 4)]
  exact littleEndian_wordAt bytes offset 4 inside

theorem littleEndian_uint64_wordAt (bytes : List UInt8) (offset : Nat)
    (inside : offset + 8 ≤ bytes.length) :
    littleEndian 8 (UInt64.ofNat (wordAt bytes offset 8)).toNat = slice bytes offset 8 := by
  rw [UInt64.toNat_ofNat', Nat.mod_eq_of_lt (b := 2 ^ 64) (wordAt_lt bytes offset 8)]
  exact littleEndian_wordAt bytes offset 8 inside

theorem TraceFieldHeader.bytes_ofBytes (bytes : List UInt8) (enough : 4 ≤ bytes.length) :
    (TraceFieldHeader.ofBytes bytes).bytes = bytes.take 4 := by
  have whole : slice bytes 0 (1 + 1 + 2) = bytes.take 4 := by simp [slice]
  rw [← whole, slice_add, slice_add]
  simp (disch := omega) only [TraceFieldHeader.bytes, TraceFieldHeader.ofBytes,
    littleEndian_uint8_wordAt, littleEndian_uint16_wordAt]

theorem TraceBytesHeader.bytes_ofBytes (bytes : List UInt8) (enough : 12 ≤ bytes.length) :
    (TraceBytesHeader.ofBytes bytes).bytes = bytes.take 12 := by
  have whole : slice bytes 0 (4 + 4 + 4) = bytes.take 12 := by simp [slice]
  rw [← whole, slice_add, slice_add]
  simp (disch := omega) only [TraceBytesHeader.bytes, TraceBytesHeader.ofBytes,
    littleEndian_uint32_wordAt]

theorem TraceEventHeader.bytes_ofBytes (bytes : List UInt8) (enough : 32 ≤ bytes.length) :
    (TraceEventHeader.ofBytes bytes).bytes = bytes.take 32 := by
  have whole : slice bytes 0 (4 + 2 + 2 + 2 + 2 + 4 + 8 + 4 + 1 + 1 + 1 + 1) = bytes.take 32 := by
    simp [slice]
  rw [← whole]
  simp only [slice_add]
  simp (disch := omega) only [TraceEventHeader.bytes, TraceEventHeader.ofBytes,
    littleEndian_uint8_wordAt, littleEndian_uint16_wordAt, littleEndian_uint32_wordAt,
    littleEndian_uint64_wordAt]

/-- The header is decided by the first 32 bytes. -/
theorem TraceEventHeader.ofBytes_take (bytes : List UInt8) (count : Nat) (enough : 32 ≤ count) :
    TraceEventHeader.ofBytes (bytes.take count) = TraceEventHeader.ofBytes bytes := by
  simp (disch := omega) only [TraceEventHeader.ofBytes, wordAt_take]

theorem TraceBytesHeader.ofBytes_take (bytes : List UInt8) (count : Nat) (enough : 12 ≤ count) :
    TraceBytesHeader.ofBytes (bytes.take count) = TraceBytesHeader.ofBytes bytes := by
  simp (disch := omega) only [TraceBytesHeader.ofBytes, wordAt_take]

/-! ### Whole events -/

namespace TraceEvent

/-- The event object in memory. -/
def bytes (event : TraceEvent) : List UInt8 := event.header.bytes ++ event.payload

/-- An event object read from memory. -/
def ofBytes (bytes : List UInt8) : TraceEvent where
  header := .ofBytes bytes
  payload := (bytes.drop sizeofTraceEventHeader).takeD
    (TRACE_MAX_EVENT_BYTES - sizeofTraceEventHeader) 0
  payload_length := List.takeD_length _ _ _

@[simp]
theorem length_bytes (event : TraceEvent) : event.bytes.length = 1024 := by
  simp [bytes, event.payload_length]

/-- The payload lies behind the header. -/
theorem drop_bytes (event : TraceEvent) (offset : Nat) :
    event.bytes.drop (sizeofTraceEventHeader + offset) = event.payload.drop offset := by
  rw [bytes, ← List.drop_drop, sizeofTraceEventHeader, List.drop_left' event.header.length_bytes]

@[simp]
theorem header_ofBytes (bytes : List UInt8) :
    (ofBytes bytes).header = TraceEventHeader.ofBytes bytes := rfl

theorem ofBytes_bytes (event : TraceEvent) : ofBytes event.bytes = event := by
  obtain ⟨header, payload, sized⟩ := event
  simp only [ofBytes, bytes, TraceEventHeader.ofBytes_bytes, mk.injEq, true_and]
  rw [List.drop_left' (by simp), List.takeD_eq_take _ (by rw [sized])]
  exact List.take_of_length_le (by rw [sized])

theorem bytes_ofBytes {bytes : List UInt8} (sized : bytes.length = 1024) :
    (ofBytes bytes).bytes = bytes := by
  have rest : (bytes.drop 32).length = 992 := by simp [sized]
  simp only [TraceEvent.bytes, ofBytes, sizeofTraceEventHeader, TRACE_MAX_EVENT_BYTES,
    Nat.reduceSub]
  rw [TraceEventHeader.bytes_ofBytes bytes (by omega), List.takeD_eq_take _ (by omega),
    ← rest, List.take_length, List.take_append_drop]

/-- Two event objects that agree on enough bytes have the same header. -/
theorem header_eq_of_take_eq {event other : TraceEvent} {count : Nat} (enough : 32 ≤ count)
    (agree : event.bytes.take count = other.bytes.take count) : event.header = other.header := by
  have headers := congrArg TraceEventHeader.ofBytes agree
  rw [TraceEventHeader.ofBytes_take _ _ enough, TraceEventHeader.ofBytes_take _ _ enough] at headers
  simpa [bytes, TraceEventHeader.ofBytes_bytes] using headers

end TraceEvent

end ApiScope
