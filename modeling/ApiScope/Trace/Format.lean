import ApiScope.Trace.Parser

/-!
# Writing events as JSON lines

The formatting helpers of `trace_renderer.cpp` and `RenderTraceEventJsonl`.  A
stream with default formatting is the list of characters it receives; `setw`
and `setfill` pad on the left.
-/

namespace ApiScope

open Bytes

namespace TraceRenderer

def text (literal : String) : List Char := literal.toList

/-- The characters of bytes written to a stream. -/
def chars (bytes : List UInt8) : List Char := bytes.map Char.ofUInt8

def setw (width : Nat) (fill : Char) (field : List Char) : List Char := field.leftpad width fill

def decimal (value : Nat) : List Char := Nat.toDigits 10 value

def signedDecimal : Int → List Char
  | .ofNat value => decimal value
  | .negSucc value => '-' :: decimal (value + 1)

/-- `std::uppercase << std::hex` -/
def upperHex (value : Nat) : List Char := (Nat.toDigits 16 value).map Char.toUpper

def HexStatus (status : UInt32) : List Char := text "0x" ++ setw 8 '0' (upperHex status.toNat)

structure SystemTime where
  wYear : UInt16
  wMonth : UInt16
  wDay : UInt16
  wHour : UInt16
  wMinute : UInt16
  wSecond : UInt16
  deriving DecidableEq, Repr

/-- The system's calendar conversion; it fails on times it cannot represent. -/
abbrev FileTimeToSystemTime := UInt64 → Option SystemTime

def FormatTimestamp (fileTimeToSystemTime : FileTimeToSystemTime) (timestamp100ns : UInt64) :
    List Char :=
  if timestamp100ns = 0 then text "unavailable"
  else
    match fileTimeToSystemTime timestamp100ns with
    | none => text "invalid"
    | some systemTime =>
        setw 4 '0' (decimal systemTime.wYear.toNat) ++ text "-" ++
        setw 2 '0' (decimal systemTime.wMonth.toNat) ++ text "-" ++
        setw 2 '0' (decimal systemTime.wDay.toNat) ++ text "T" ++
        setw 2 '0' (decimal systemTime.wHour.toNat) ++ text ":" ++
        setw 2 '0' (decimal systemTime.wMinute.toNat) ++ text ":" ++
        setw 2 '0' (decimal systemTime.wSecond.toNat) ++ text "." ++
        setw 7 '0' (decimal (timestamp100ns.toNat % 10000000)) ++ text "Z"

/-- The bytes with a blank in front of each but the first when `spaced`. -/
def HexBytes (bytes : List UInt8) (spaced : Bool) : List Char :=
  (bytes.mapIdx fun index byte =>
    (if spaced && index != 0 then [' '] else []) ++ setw 2 '0' (upperHex byte.toNat)).flatten

def JsonEscapeByte (value : UInt8) : List Char :=
  if value = ascii '"' then text "\\\""
  else if value = ascii '\\' then text "\\\\"
  else if value = 8 then text "\\b"
  else if value = 12 then text "\\f"
  else if value = 10 then text "\\n"
  else if value = 13 then text "\\r"
  else if value = 9 then text "\\t"
  else if value < 0x20 then text "\\u" ++ setw 4 '0' (Nat.toDigits 16 value.toNat)
  else [Char.ofUInt8 value]

def JsonEscape (input : List UInt8) : List Char := input.flatMap JsonEscapeByte

def PreviewText (bytes : List UInt8) : List UInt8 :=
  bytes.map fun value => if 32 ≤ value ∧ value ≤ 126 then value else ascii '.'

def ReadUInt32 (value : List UInt8) : UInt32 := .ofNat (wordAt value 0 4)

def ReadUInt64 (value : List UInt8) : UInt64 := .ofNat (wordAt value 0 8)

def ReadBytesHeader (value : List UInt8) : TraceBytesHeader := .ofBytes value

/-- `(int32_t)value` -/
def int32 (value : UInt32) : Int := value.toInt32.toInt

/-- `(int64_t)value` -/
def int64 (value : UInt64) : Int := value.toInt64.toInt

def boolean (value : Bool) : List Char := if value then text "true" else text "false"

/-- `event.header.flags & flag` -/
def flagged (event : TraceEvent) (flag : UInt16) : Bool := event.header.flags &&& flag != 0

/-- The `switch` of the field loop; `value` is the memory from the field's value on. -/
def RenderJsonValue (header : TraceFieldHeader) (value : List UInt8) : List Char :=
  if header.type = TraceFieldPointer ∨ header.type = TraceFieldUInt64 then
    decimal (ReadUInt64 value).toNat
  else if header.type = TraceFieldUInt32 then decimal (ReadUInt32 value).toNat
  else if header.type = TraceFieldInt32 then signedDecimal (int32 (ReadUInt32 value))
  else if header.type = TraceFieldInt64 then signedDecimal (int64 (ReadUInt64 value))
  else if header.type = TraceFieldBoolean then boolean (value.getD 0 0 != 0)
  else if header.type = TraceFieldStatus then
    let status := ReadUInt32 value
    text "\x7b\"type\":\"status\",\"value\":" ++ signedDecimal (int32 status) ++
    text ",\"hex\":\"" ++ HexStatus status ++ text "\"\x7d"
  else if header.type = TraceFieldBytes then
    let bytes := ReadBytesHeader value
    let preview := (value.drop sizeofTraceBytesHeader).take bytes.captured.toNat
    text "\x7b\"type\":\"bytes\",\"requested\":" ++ decimal bytes.requested.toNat ++
    text ",\"captured\":" ++ decimal bytes.captured.toNat ++
    text ",\"capture_status\":" ++ signedDecimal (int32 bytes.captureStatus) ++
    text ",\"capture_status_hex\":\"" ++ HexStatus bytes.captureStatus ++ text "\"" ++
    text ",\"hex\":\"" ++ HexBytes preview false ++ text "\"" ++
    text ",\"text\":\"" ++ JsonEscape (PreviewText preview) ++ text "\"\x7d"
  else
    text "\x7b\"type\":\"unknown_" ++ decimal header.type.toNat ++
    text "\",\"hex\":\"" ++ HexBytes (value.take header.valueSize.toNat) false ++ text "\"\x7d"

/-- The field loop from an index on; every field but the first follows a comma. -/
def RenderJsonFields (event : TraceEvent) : Nat → List TraceFieldView → List Char
  | _, [] => []
  | index, field :: fields =>
      (if index != 0 then text "," else []) ++
      text "\"" ++ chars field.name ++ text "\":" ++
      RenderJsonValue field.header (event.payload.drop field.value) ++
      RenderJsonFields event (index + 1) fields

/-- The line of `RenderTraceEventJsonl` in front of the field loop. -/
def RenderJsonHeader (fileTimeToSystemTime : FileTimeToSystemTime) (event : TraceEvent)
    (parsed : ParsedEvent) : List Char :=
  text "\x7b\"sequence\":" ++ decimal event.header.sequence.toNat ++
  text ",\"timestamp\":\"" ++
    FormatTimestamp fileTimeToSystemTime event.header.timestamp100ns ++ text "\"" ++
  text ",\"timestamp_100ns\":" ++ decimal event.header.timestamp100ns.toNat ++
  text ",\"thread_id\":" ++ decimal event.header.threadId.toNat ++
  text ",\"module\":\"" ++ JsonEscape parsed.moduleName ++ text "\"" ++
  text ",\"api\":\"" ++ JsonEscape parsed.apiName ++ text "\"" ++
  text ",\"hook\":\"" ++ JsonEscape (parsed.moduleName ++ [ascii '!'] ++ parsed.apiName) ++
    text "\"" ++
  text ",\"truncated\":" ++ boolean (flagged event TraceEventFlagTruncated) ++
  text ",\"field_error\":" ++ boolean (flagged event TraceEventFlagFieldError) ++
  text ",\"fields\":\x7b"

/-- What `RenderTraceEventJsonl` writes to its stream. -/
def RenderTraceEventJsonl (fileTimeToSystemTime : FileTimeToSystemTime) (event : TraceEvent) :
    List Char :=
  match ParseTraceEvent event event.header.size.toNat with
  | none => []
  | some parsed =>
      RenderJsonHeader fileTimeToSystemTime event parsed ++
        RenderJsonFields event 0 parsed.fields ++ text "\x7d\x7d\n"

end TraceRenderer

end ApiScope
