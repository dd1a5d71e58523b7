import ApiScope.Trace.Parser

/-!
# Building an event in the hooked process

The encoder of `trace_transport.cpp`.  A C string is the bytes in front of its
terminator, or `none` for a null pointer; a value is the bytes its pointer
points at.
-/

namespace ApiScope

open Bytes

abbrev CString := Option (List UInt8)

namespace TraceEvent

/-- Write into the payload. -/
def write (event : TraceEvent) (offset : Nat) (bytes : List UInt8) : TraceEvent :=
  { event with
    payload := overwrite event.payload offset bytes
    payload_length := by rw [length_overwrite, event.payload_length] }

/-- Set flag bits. -/
def raise (event : TraceEvent) (flag : UInt16) : TraceEvent :=
  { event with header := { event.header with flags := event.header.flags ||| flag } }

/-- `CustomMemSet(event, 0, sizeof(*event))` -/
def zero : TraceEvent where
  header := ⟨0, 0, 0, 0, 0, 0, 0, 0, 0, 0, (0, 0)⟩
  payload := List.replicate (TRACE_MAX_EVENT_BYTES - sizeofTraceEventHeader) 0
  payload_length := List.length_replicate ..

end TraceEvent

namespace TraceTransport

def TRACE_STATUS_NOT_CONFIGURED : UInt32 := 0xC0000184

/-- The counting loop of `GetBoundedStringLength`; the terminator is a zero byte. -/
def stringLength (value : List UInt8) : Nat → Nat → Nat
  | 0, index => index
  | remaining + 1, index =>
      if value.getD index 0 ≠ 0 then stringLength value remaining (index + 1) else index

def GetBoundedStringLength (value : CString) (maximum : Nat) : Option UInt8 :=
  match value with
  | none => none
  | some value =>
      let index := stringLength value (maximum + 1) 0
      if index = 0 ∨ maximum < index then none else some (.ofNat index)

def IsFieldNameCharacter (character : UInt8) : Bool :=
  (ascii 'a' ≤ character && character ≤ ascii 'z') ||
  (ascii '0' ≤ character && character ≤ ascii '9') ||
  character == ascii '_'

/-- The length of a valid field name. -/
def IsValidFieldName (name : CString) : Option UInt8 :=
  match GetBoundedStringLength name TRACE_MAX_FIELD_NAME_BYTES with
  | none => none
  | some length =>
      let bytes := name.getD []
      if bytes.getD 0 0 < ascii 'a' ∨ ascii 'z' < bytes.getD 0 0 then none
      else if ((bytes.take length.toNat).drop 1).all IsFieldNameCharacter then some length
      else none

def IsIdentifierCharacter (character : UInt8) (moduleName : Bool) : Bool :=
  (ascii 'a' ≤ character && character ≤ ascii 'z') ||
  (ascii 'A' ≤ character && character ≤ ascii 'Z') ||
  (ascii '0' ≤ character && character ≤ ascii '9') ||
  character == ascii '_' ||
  (moduleName && (character == ascii '.' || character == ascii '-'))

/-- The length of a valid module or API name. -/
def IsValidIdentifier (name : CString) (maximum : Nat) (moduleName : Bool) : Option UInt8 :=
  match GetBoundedStringLength name maximum with
  | none => none
  | some length =>
      if ((name.getD []).take length.toNat).all
          fun character => IsIdentifierCharacter character moduleName then some length
      else none

/-- The walk of `HasTraceField`.  It checks no bound; what it reads behind the
event is nothing here. -/
def hasTraceField (payload name : List UInt8) (nameLength : UInt8) : Nat → Nat → Bool
  | 0, _ => false
  | remaining + 1, cursor =>
      let field := TraceFieldHeader.ofBytes (payload.drop cursor)
      let cursor := cursor + sizeofTraceFieldHeader
      if field.nameLength = nameLength ∧
          slice payload cursor nameLength.toNat = name.take nameLength.toNat then true
      else hasTraceField payload name nameLength remaining
        (cursor + (field.nameLength.toNat + field.valueSize.toNat))

def HasTraceField (event : TraceEvent) (name : List UInt8) (nameLength : UInt8) : Bool :=
  hasTraceField event.payload name nameLength event.header.fieldCount.toNat (TraceNameBytes event)

/-- The checks of `AppendTraceField` on the event header. -/
def CanAppend (event : TraceEvent) : Prop :=
  event.header.magic = TRACE_EVENT_MAGIC ∧
  event.header.version = TRACE_EVENT_VERSION ∧
  sizeofTraceEventHeader + TraceNameBytes event ≤ event.header.size.toNat ∧
  event.header.size.toNat ≤ TRACE_MAX_EVENT_BYTES

instance (event : TraceEvent) : Decidable (CanAppend event) := by
  unfold CanAppend
  infer_instance

/-- The event with one more field behind its last one. -/
def withField (event : TraceEvent) (field : TraceFieldHeader) (name value : List UInt8) :
    TraceEvent :=
  let required := sizeofTraceFieldHeader + field.nameLength.toNat + field.valueSize.toNat
  let cursor := event.header.size.toNat - sizeofTraceEventHeader
  let event := event.write cursor field.bytes
  let event := event.write (cursor + sizeofTraceFieldHeader) (name.take field.nameLength.toNat)
  let event := event.write (cursor + sizeofTraceFieldHeader + field.nameLength.toNat)
    (value.take field.valueSize.toNat)
  { event with
    header := { event.header with
      size := .ofNat (event.header.size.toNat + required)
      fieldCount := event.header.fieldCount + 1 } }

def AppendTraceField (event : TraceEvent) (type : UInt8) (name : CString)
    (value : Option (List UInt8)) (valueSize : UInt16) : Bool × TraceEvent :=
  match value with
  | none => (false, event.raise TraceEventFlagFieldError)
  | some value =>
      if ¬CanAppend event then (false, event.raise TraceEventFlagFieldError)
      else
        match IsValidFieldName name with
        | none => (false, event.raise TraceEventFlagFieldError)
        | some nameLength =>
            if HasTraceField event (name.getD []) nameLength then
              (false, event.raise TraceEventFlagFieldError)
            else if TRACE_MAX_EVENT_BYTES < event.header.size.toNat +
                (sizeofTraceFieldHeader + nameLength.toNat + valueSize.toNat) then
              (false, event.raise TraceEventFlagTruncated)
            else (true, withField event ⟨type, nameLength, valueSize⟩ (name.getD []) value)

/-- What `GetCurrentThreadIdFast` and `GetSystemTime100nsFast` return. -/
structure Clock where
  threadId : UInt32
  timestamp100ns : UInt64

/-- `InitializeTraceEvent` on an event object; its old contents do not matter. -/
def InitializeTraceEvent (clock : Clock) (moduleName apiName : CString) : Bool × TraceEvent :=
  let event := TraceEvent.zero
  match IsValidIdentifier moduleName TRACE_MAX_MODULE_NAME_BYTES true,
      IsValidIdentifier apiName TRACE_MAX_API_NAME_BYTES false with
  | some moduleNameLength, some apiNameLength =>
      let event := { event with
        header := { event.header with
          magic := TRACE_EVENT_MAGIC
          version := TRACE_EVENT_VERSION
          size := .ofNat (sizeofTraceEventHeader + moduleNameLength.toNat + apiNameLength.toNat)
          moduleNameLength := moduleNameLength
          apiNameLength := apiNameLength
          threadId := clock.threadId
          timestamp100ns := clock.timestamp100ns } }
      let event := event.write 0 ((moduleName.getD []).take moduleNameLength.toNat)
      (true, event.write moduleNameLength.toNat ((apiName.getD []).take apiNameLength.toNat))
  | _, _ => (false, event.raise TraceEventFlagFieldError)

def AddTracePointer (event : TraceEvent) (name : CString) (value : UInt64) : Bool × TraceEvent :=
  AppendTraceField event TraceFieldPointer name (some (littleEndian 8 value.toNat)) 8

def AddTraceUInt32 (event : TraceEvent) (name : CString) (value : UInt32) : Bool × TraceEvent :=
  AppendTraceField event TraceFieldUInt32 name (some (littleEndian 4 value.toNat)) 4

def AddTraceUInt64 (event : TraceEvent) (name : CString) (value : UInt64) : Bool × TraceEvent :=
  AppendTraceField event TraceFieldUInt64 name (some (littleEndian 8 value.toNat)) 8

def AddTraceInt32 (event : TraceEvent) (name : CString) (value : Int32) : Bool × TraceEvent :=
  AppendTraceField event TraceFieldInt32 name (some (littleEndian 4 value.toUInt32.toNat)) 4

def AddTraceInt64 (event : TraceEvent) (name : CString) (value : Int64) : Bool × TraceEvent :=
  AppendTraceField event TraceFieldInt64 name (some (littleEndian 8 value.toUInt64.toNat)) 8

def AddTraceBoolean (event : TraceEvent) (name : CString) (value : Bool) : Bool × TraceEvent :=
  let encoded : Nat := if value then 1 else 0
  AppendTraceField event TraceFieldBoolean name (some (littleEndian 1 encoded)) 1

def AddTraceStatus (event : TraceEvent) (name : CString) (value : UInt32) : Bool × TraceEvent :=
  AppendTraceField event TraceFieldStatus name (some (littleEndian 4 value.toNat)) 4

/-- `bytes` is the 64-byte array. -/
structure TraceBytesValue where
  header : TraceBytesHeader
  bytes : List UInt8
  deriving DecidableEq, Repr

/-- What one call through `TransportNtReadVirtualMemory` does: its status, the
count it reports and the bytes it stores. -/
structure ReadOutcome where
  status : UInt32
  captured : UInt32
  written : List UInt8
  deriving DecidableEq, Repr

/-- The memory-read bypass: address and length to outcome. -/
abbrev ReadVirtualMemory := UInt64 → UInt32 → ReadOutcome

/-- `CaptureTraceBuffer` for a non-null preview.  Address 0 is the null buffer;
the bypass stores no more than it is asked for. -/
def CaptureTraceBuffer (readMemory : Option ReadVirtualMemory) (buffer : UInt64)
    (length : UInt32) : TraceBytesValue :=
  let preview : TraceBytesValue := ⟨⟨length, 0, 0⟩, List.replicate TRACE_MAX_BUFFER_BYTES 0⟩
  if buffer = 0 ∨ length = 0 then preview
  else
    match readMemory with
    | none => { preview with
        header := { preview.header with captureStatus := TRACE_STATUS_NOT_CONFIGURED } }
    | some readMemory =>
        let captureLength : UInt32 :=
          if length.toNat < TRACE_MAX_BUFFER_BYTES then length else .ofNat TRACE_MAX_BUFFER_BYTES
        let outcome := readMemory buffer captureLength
        let captured :=
          if outcome.captured < captureLength then outcome.captured else captureLength
        ⟨⟨length, captured, outcome.status⟩,
          overwrite preview.bytes 0 (outcome.written.take captureLength.toNat)⟩

def AddTraceBufferPreview (readMemory : Option ReadVirtualMemory) (event : TraceEvent)
    (name : CString) (buffer : UInt64) (length : UInt32) : Bool × TraceEvent :=
  let preview := CaptureTraceBuffer readMemory buffer length
  let valueSize : UInt16 := .ofNat (sizeofTraceBytesHeader + preview.header.captured.toNat)
  AppendTraceField event TraceFieldBytes name (some (preview.header.bytes ++ preview.bytes))
    valueSize

end TraceTransport

end ApiScope
