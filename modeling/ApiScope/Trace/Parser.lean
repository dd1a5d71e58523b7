import ApiScope.Trace.Protocol

/-!
# The controller's event parser

`ParseTraceEvent` of `trace_renderer.cpp`.  Pointers into the event are offsets
into its payload.
-/

namespace ApiScope

open Bytes

/-- A character constant of the source. -/
def ascii (character : Char) : UInt8 := character.toUInt8

namespace TraceRenderer

/-- `value` is where the field's value starts in the payload. -/
structure TraceFieldView where
  header : TraceFieldHeader
  name : List UInt8
  value : Nat
  deriving DecidableEq, Repr

def IsIdentifierCharacter (character : UInt8) (moduleName : Bool) : Bool :=
  (ascii 'a' ≤ character && character ≤ ascii 'z') ||
  (ascii 'A' ≤ character && character ≤ ascii 'Z') ||
  (ascii '0' ≤ character && character ≤ ascii '9') ||
  character == ascii '_' ||
  (moduleName && (character == ascii '.' || character == ascii '-'))

def IsValidIdentifier (name : List UInt8) (length : Nat) (moduleName : Bool) : Bool :=
  let maximum := if moduleName then TRACE_MAX_MODULE_NAME_BYTES else TRACE_MAX_API_NAME_BYTES
  if length = 0 ∨ maximum < length then false
  else (name.take length).all fun character => IsIdentifierCharacter character moduleName

def IsFieldNameCharacter (character : UInt8) : Bool :=
  (ascii 'a' ≤ character && character ≤ ascii 'z') ||
  (ascii '0' ≤ character && character ≤ ascii '9') ||
  character == ascii '_'

def IsValidFieldName (name : List UInt8) (length : Nat) : Bool :=
  if length = 0 ∨ TRACE_MAX_FIELD_NAME_BYTES < length then false
  else if name.getD 0 0 < ascii 'a' ∨ ascii 'z' < name.getD 0 0 then false
  else ((name.take length).drop 1).all IsFieldNameCharacter

def HasExpectedValueSize (type : UInt8) (value : List UInt8) (valueSize : UInt16) : Bool :=
  if type = TraceFieldPointer ∨ type = TraceFieldUInt64 ∨ type = TraceFieldInt64 then
    valueSize.toNat = 8
  else if type = TraceFieldUInt32 ∨ type = TraceFieldStatus ∨ type = TraceFieldInt32 then
    valueSize.toNat = 4
  else if type = TraceFieldBoolean then
    valueSize.toNat = 1 ∧ (value.getD 0 0 = 0 ∨ value.getD 0 0 = 1)
  else if type = TraceFieldBytes then
    if valueSize.toNat < sizeofTraceBytesHeader then false
    else
      let bytes := TraceBytesHeader.ofBytes value
      bytes.captured.toNat ≤ TRACE_MAX_BUFFER_BYTES ∧ bytes.captured ≤ bytes.requested ∧
        valueSize.toNat = sizeofTraceBytesHeader + bytes.captured.toNat
  else true

/-- One pass of the field loop: the view at `cursor` and the cursor behind it. -/
def parseField (payload : List UInt8) (stop cursor : Nat) (parsedFields : List TraceFieldView) :
    Option (TraceFieldView × Nat) :=
  if stop - cursor < sizeofTraceFieldHeader then none
  else
    let header := TraceFieldHeader.ofBytes (payload.drop cursor)
    let cursor := cursor + sizeofTraceFieldHeader
    let fieldSize := header.nameLength.toNat + header.valueSize.toNat
    if stop - cursor < fieldSize ∨
        ¬IsValidFieldName (payload.drop cursor) header.nameLength.toNat then none
    else
      let name := slice payload cursor header.nameLength.toNat
      if parsedFields.any fun existing => existing.name == name then none
      else
        let cursor := cursor + header.nameLength.toNat
        if ¬HasExpectedValueSize header.type (payload.drop cursor) header.valueSize then none
        else some (⟨header, name, cursor⟩, cursor + header.valueSize.toNat)

/-- The field loop.  `cursor` never passes `stop`, so `end - cursor` is the
subtraction of naturals. -/
def parseFields (payload : List UInt8) (stop : Nat) :
    Nat → Nat → List TraceFieldView → Option (Nat × List TraceFieldView)
  | 0, cursor, parsedFields => some (cursor, parsedFields)
  | remaining + 1, cursor, parsedFields =>
      match parseField payload stop cursor parsedFields with
      | none => none
      | some (field, next) => parseFields payload stop remaining next (parsedFields ++ [field])

structure ParsedEvent where
  moduleName : List UInt8
  apiName : List UInt8
  fields : List TraceFieldView
  deriving DecidableEq, Repr

/-- The checks on the event header. -/
def HeaderMatches (event : TraceEvent) (bytesReceived : Nat) : Prop :=
  sizeofTraceEventHeader ≤ bytesReceived ∧
  event.header.magic = TRACE_EVENT_MAGIC ∧
  event.header.version = TRACE_EVENT_VERSION ∧
  event.header.size.toNat = bytesReceived ∧
  event.header.size.toNat ≤ TRACE_MAX_EVENT_BYTES ∧
  sizeofTraceEventHeader + event.header.moduleNameLength.toNat +
    event.header.apiNameLength.toNat ≤ event.header.size.toNat

instance (event : TraceEvent) (bytesReceived : Nat) :
    Decidable (HeaderMatches event bytesReceived) := by
  unfold HeaderMatches
  infer_instance

def ParseTraceEvent (event : TraceEvent) (bytesReceived : Nat) : Option ParsedEvent :=
  if ¬HeaderMatches event bytesReceived then none
  else
    let moduleLength := event.header.moduleNameLength.toNat
    let apiLength := event.header.apiNameLength.toNat
    if ¬IsValidIdentifier event.payload moduleLength true then none
    else if ¬IsValidIdentifier (event.payload.drop moduleLength) apiLength false then none
    else
      let stop := event.header.size.toNat - sizeofTraceEventHeader
      match parseFields event.payload stop event.header.fieldCount.toNat
          (moduleLength + apiLength) [] with
      | none => none
      | some (cursor, fields) =>
          if cursor ≠ stop then none
          else some ⟨slice event.payload 0 moduleLength, slice event.payload moduleLength apiLength,
            fields⟩

def IsValidTraceEvent (event : TraceEvent) (bytesReceived : Nat) : Bool :=
  (ParseTraceEvent event bytesReceived).isSome

end TraceRenderer

end ApiScope
