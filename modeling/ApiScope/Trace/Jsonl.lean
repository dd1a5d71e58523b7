import ApiScope.Trace.Alphabet
import ApiScope.Library.Json
import Mathlib.Data.List.Nodup

/-!
# The JSON lines are faithful

The renderer writes the printed form of one JSON value, which the decoder reads
back.  `Carries` says what the value of each field has to hold.
-/

namespace ApiScope

open Bytes TraceLanguage

namespace TraceRenderer

/-! ## Pieces of text -/

/-- Characters that need no escape. -/
def plainCharacter (character : Char) : Bool :=
  ' ' ≤ character && character != '"' && character != '\\'

theorem plain_iff {characters : List Char} :
    Json.Plain characters ↔ ∀ character ∈ characters, plainCharacter character = true := by
  simp [Json.Plain, plainCharacter, and_assoc]

theorem Over.plain {characters : List Char} (cleaned : Over clean characters) :
    Json.Plain characters := by
  rw [plain_iff]
  intro character member
  have inside := cleaned character member
  simp only [clean, TraceRenderer.printable, plainCharacter, Bool.and_eq_true] at inside ⊢
  exact ⟨⟨inside.1.1.1, inside.1.2⟩, inside.2⟩

theorem plain_text {literal : String} (plain : literal.toList.all plainCharacter = true) :
    Json.Plain (text literal) := by
  rw [plain_iff]
  exact List.all_eq_true.mp plain

/-- The byte a pair of digits stands for. -/
def pairByte : List Char → Option UInt8
  | [high, low] => decodeHexByte high low
  | _ => none

theorem pairByte_upperHex : ∀ byte : UInt8,
    pairByte (setw 2 '0' (upperHex byte.toNat)) = some byte :=
  forall_byte (by decide +kernel)

theorem upperHex_byte (byte : UInt8) :
    ∃ high low, setw 2 '0' (upperHex byte.toNat) = [high, low] ∧
      decodeHexByte high low = some byte := by
  have digits := pairByte_upperHex byte
  unfold pairByte at digits
  split at digits
  · rename_i high low pair
    exact ⟨high, low, pair, digits⟩
  · cases digits

theorem hexBytes_eq (bytes : List UInt8) :
    HexBytes bytes false = bytes.flatMap fun byte => setw 2 '0' (upperHex byte.toNat) := by
  have noIndex : bytes.mapIdx (fun _ byte => setw 2 '0' (upperHex byte.toNat)) =
      bytes.map fun byte => setw 2 '0' (upperHex byte.toNat) := by
    apply List.ext_getElem <;> simp
  simp [HexBytes, noIndex, List.flatMap]

theorem decodeHex_hexBytes (bytes : List UInt8) :
    decodeHex (HexBytes bytes false) = some bytes := by
  rw [hexBytes_eq]
  exact decodeHex_flatMap upperHex_byte bytes

/-- Above the control characters the renderer escapes as JSON does. -/
theorem jsonEscapeByte_eq : ∀ value : UInt8,
    32 ≤ value → JsonEscapeByte value = Json.escape (Char.ofUInt8 value) :=
  forall_byte (by decide +kernel)

theorem jsonEscape_eq {input : List UInt8} (visible : ∀ value ∈ input, 32 ≤ value) :
    JsonEscape input = (chars input).flatMap Json.escape := by
  induction input with
  | nil => rfl
  | cons value input inductionHypothesis =>
      have first := jsonEscapeByte_eq value (visible value (by simp))
      have others := inductionHypothesis fun other member =>
        visible other (List.mem_cons_of_mem _ member)
      simp only [JsonEscape, chars, List.flatMap_cons, List.map_cons, first] at others ⊢
      rw [others]

theorem visible_chars {input : List UInt8} (visible : ∀ value ∈ input, 32 ≤ value) :
    Json.Visible (chars input) := by
  intro character member
  obtain ⟨value, inside, rfl⟩ := List.mem_map.mp member
  have code : (Char.ofUInt8 value).toNat = value.toNat := rfl
  exact (UInt8.le_iff_toNat_le.mp (visible value inside) : 32 ≤ value.toNat)

theorem visible_previewText (bytes : List UInt8) : ∀ value ∈ PreviewText bytes, 32 ≤ value := by
  intro value member
  obtain ⟨byte, _, rfl⟩ := List.mem_map.mp member
  split_ifs with visible
  · exact visible.1
  · decide

/-! ## Names need no escape -/

theorem visible_moduleNameCharacter : ∀ character : UInt8,
    ModuleNameCharacter character → 32 ≤ character :=
  forall_byte (by decide +kernel)

theorem visible_name {alphabet : UInt8 → Prop} {name : List UInt8} (valid : NameOver alphabet name)
    (narrow : ∀ character, alphabet character → ModuleNameCharacter character) :
    ∀ character ∈ name, 32 ≤ character := fun character member =>
  visible_moduleNameCharacter character (narrow character (valid.2.2 character member))

/-- A name between quotes is its JSON string. -/
theorem encodeString_plain {characters : List Char} (plain : Json.Plain characters) :
    Json.encodeString characters = text "\"" ++ characters ++ text "\"" := by
  rw [Json.encodeString, plain.flatMap_escape]
  rfl

/-! ## The value of a field -/

/-- The JSON value the renderer writes for a field. -/
def jsonOf (field : Field) : Json.Value :=
  if field.type = TraceFieldPointer ∨ field.type = TraceFieldUInt64 then
    .number (ReadUInt64 field.value).toNat
  else if field.type = TraceFieldUInt32 then .number (ReadUInt32 field.value).toNat
  else if field.type = TraceFieldInt32 then .number (int32 (ReadUInt32 field.value))
  else if field.type = TraceFieldInt64 then .number (int64 (ReadUInt64 field.value))
  else if field.type = TraceFieldBoolean then .bool (field.value.getD 0 0 != 0)
  else if field.type = TraceFieldStatus then
    .object [(text "type", .string (text "status")),
      (text "value", .number (int32 (ReadUInt32 field.value))),
      (text "hex", .string (HexStatus (ReadUInt32 field.value)))]
  else if field.type = TraceFieldBytes then
    let bytes := ReadBytesHeader field.value
    let preview := field.value.drop sizeofTraceBytesHeader
    .object [(text "type", .string (text "bytes")),
      (text "requested", .number bytes.requested.toNat),
      (text "captured", .number bytes.captured.toNat),
      (text "capture_status", .number (int32 bytes.captureStatus)),
      (text "capture_status_hex", .string (HexStatus bytes.captureStatus)),
      (text "hex", .string (HexBytes preview false)),
      (text "text", .string (chars (PreviewText preview)))]
  else
    .object [(text "type", .string (text "unknown_" ++ decimal field.type.toNat)),
      (text "hex", .string (HexBytes field.value false))]

theorem encodeNumber_eq (value : Int) : Json.encodeNumber value = signedDecimal value := by
  cases value <;> rfl

theorem signedDecimal_natCast (value : Nat) : signedDecimal (value : Int) = decimal value := rfl

/-- The renderer reads no further than the field's own value. -/
theorem wordAt_memory {value memory : List UInt8} {offset width : Nat}
    (stored : memory.take value.length = value) (inside : offset + width ≤ value.length) :
    wordAt memory offset width = wordAt value offset width := by
  rw [← wordAt_take memory offset width value.length inside, stored]

theorem encodeString_text {literal : String} (plain : literal.toList.all plainCharacter = true) :
    Json.encodeString (text literal) = text "\"" ++ text literal ++ text "\"" :=
  encodeString_plain (plain_text plain)

theorem renderJsonValue_eq {field : Field} {header : TraceFieldHeader} {memory : List UInt8}
    (valid : ValueOf field.type field.value) (type : header.type = field.type)
    (size : header.valueSize.toNat = field.value.length)
    (stored : memory.take field.value.length = field.value) :
    RenderJsonValue header memory = Json.encodeValue (jsonOf field) := by
  obtain ⟨doubles, words, booleans, previews⟩ := valid
  unfold RenderJsonValue jsonOf
  rw [type]
  split_ifs with pointer word signedWord signedDouble truth status bytes
  · have sized : field.value.length = 8 := doubles (pointer.imp_right .inl)
    rw [ReadUInt64, wordAt_memory stored (by omega)]
    rfl
  · have sized : field.value.length = 4 := words (.inl word)
    rw [ReadUInt32, wordAt_memory stored (by omega)]
    rfl
  · have sized : field.value.length = 4 := words (.inr (.inr signedWord))
    rw [ReadUInt32, wordAt_memory stored (by omega), Json.encodeValue, encodeNumber_eq]
    rfl
  · have sized : field.value.length = 8 := doubles (.inr (.inr signedDouble))
    rw [ReadUInt64, wordAt_memory stored (by omega), Json.encodeValue, encodeNumber_eq]
    rfl
  · have first : memory.getD 0 0 = field.value.getD 0 0 := by
      rw [← stored]
      rcases booleans truth with value | value <;> rw [value] at stored ⊢ <;>
        cases memory <;> simp_all
    rw [first]
    cases field.value.getD 0 0 != 0 <;> rfl
  · have sized : field.value.length = 4 := words (.inr (.inl status))
    have read : ReadUInt32 memory = ReadUInt32 field.value := by
      rw [ReadUInt32, wordAt_memory stored (by omega)]
      rfl
    rw [read]
    simp (disch := decide) only [Json.encodeValue, Json.encodeMembers, Json.encodeMember,
      encodeNumber_eq, encodeString_plain (clean_hexStatus _).plain, encodeString_text]
    simp [text]
  · obtain ⟨bytesHeader, data, split, captured, _, _⟩ := previews bytes
    have header : ReadBytesHeader memory = bytesHeader := by
      rw [ReadBytesHeader, ← TraceBytesHeader.ofBytes_take memory field.value.length
        (by simp [split]), stored, split, TraceBytesHeader.ofBytes_bytes]
    have valueHeader : ReadBytesHeader field.value = bytesHeader := by
      rw [ReadBytesHeader, split, TraceBytesHeader.ofBytes_bytes]
    have preview : (memory.drop sizeofTraceBytesHeader).take bytesHeader.captured.toNat =
        field.value.drop sizeofTraceBytesHeader := by
      have sized : field.value.length = 12 + data.length := by simp [split]
      rw [← stored, List.drop_take, sized, captured]
      simp [sizeofTraceBytesHeader]
    have shown := visible_previewText (field.value.drop sizeofTraceBytesHeader)
    simp only [header, valueHeader, preview]
    simp (disch := decide) only [Json.encodeValue, Json.encodeMembers, Json.encodeMember,
      encodeNumber_eq, signedDecimal_natCast, encodeString_plain (clean_hexStatus _).plain,
      encodeString_plain (clean_hexBytes _ _).plain, encodeString_text]
    simp only [Json.encodeString, jsonEscape_eq shown]
    simp [text]
  · have unknownType : Json.Plain (text "unknown_" ++ decimal field.type.toNat) :=
      Json.plain_append.mpr ⟨plain_text (by decide), (clean_decimal _).plain⟩
    rw [size, stored]
    simp (disch := decide) only [Json.encodeValue, Json.encodeMembers, Json.encodeMember,
      encodeString_plain (clean_hexBytes _ _).plain, encodeString_plain unknownType, encodeString_text]
    simp [text]

/-! ## The whole line -/

/-- The member the renderer writes for a field. -/
def memberOf (field : Field) : List Char × Json.Value := (chars field.name, jsonOf field)

theorem renderJsonFields_eq {event : TraceEvent} {fields : List Field} {rest : List UInt8}
    {index cursor : Nat} (valid : ∀ field ∈ fields, field.Valid ∧ field.value.length < 65536)
    (starts : event.payload.drop cursor = fields.flatMap Field.bytes ++ rest) :
    RenderJsonFields event index (viewsFrom cursor fields) =
      (if index ≠ 0 ∧ fields ≠ [] then text "," else []) ++
        Json.encodeMembers (fields.map memberOf) := by
  induction fields generalizing index cursor with
  | nil => simp [viewsFrom, RenderJsonFields, Json.encodeMembers]
  | cons field fields inductionHypothesis =>
      obtain ⟨validField, small⟩ := valid field (by simp)
      rw [List.flatMap_cons, List.append_assoc] at starts
      have others := @inductionHypothesis (index + 1) (cursor + field.bytes.length)
        (fun other member => valid other (List.mem_cons_of_mem _ member))
        (drop_add_of_drop_eq starts)
      have behind : event.payload.drop (viewAt cursor field).value =
          field.value ++ (fields.flatMap Field.bytes ++ rest) := by
        rw [viewAt, Nat.add_assoc, ← List.drop_drop, starts, Field.bytes]
        simp [List.drop_append]
      have value : RenderJsonValue (viewAt cursor field).header
          (event.payload.drop (viewAt cursor field).value) = Json.encodeValue (jsonOf field) :=
        renderJsonValue_eq validField.2 rfl (Field.valueSize_toNat small) (by simp [behind])
      have name := (clean_name validField.1.1 fun _ => FieldNameCharacter_moduleName).plain
      rw [viewsFrom, RenderJsonFields, value, others]
      cases fields with
      | nil =>
          simp [Json.encodeMembers, Json.encodeMember, memberOf, encodeString_plain name, viewAt,
            text]
      | cons next fields =>
          simp [Json.encodeMembers, Json.encodeMember, memberOf, encodeString_plain name, viewAt,
            text]

/-- The JSON object of a line. -/
def eventMembers (fileTimeToSystemTime : FileTimeToSystemTime) (event : TraceEvent)
    (moduleName apiName : List UInt8) (fields : List Field) : List (List Char × Json.Value) :=
  [(text "sequence", .number event.header.sequence.toNat),
    (text "timestamp", .string (FormatTimestamp fileTimeToSystemTime event.header.timestamp100ns)),
    (text "timestamp_100ns", .number event.header.timestamp100ns.toNat),
    (text "thread_id", .number event.header.threadId.toNat),
    (text "module", .string (chars moduleName)),
    (text "api", .string (chars apiName)),
    (text "hook", .string (chars (moduleName ++ [ascii '!'] ++ apiName))),
    (text "truncated", .bool (flagged event TraceEventFlagTruncated)),
    (text "field_error", .bool (flagged event TraceEventFlagFieldError)),
    (text "fields", .object (fields.map memberOf))]

theorem encodeValue_bool (value : Bool) : Json.encodeValue (.bool value) = boolean value := by
  cases value <;> rfl

theorem renderTraceEventJsonl_eq (fileTimeToSystemTime : FileTimeToSystemTime)
    {event : TraceEvent} {moduleName apiName : List UInt8} {fields : List Field}
    (encodes : Encodes event moduleName apiName fields) :
    RenderTraceEventJsonl fileTimeToSystemTime event =
      Json.encodeValue
        (.object (eventMembers fileTimeToSystemTime event moduleName apiName fields)) ++ ['\n'] := by
  have module := visible_name encodes.validModuleName fun _ valid => valid
  have api := visible_name encodes.validApiName fun _ => .inl
  have atModule : event.payload.drop 0 = moduleName ++ _ := encodes.payload_eq
  have atApi := drop_add_of_drop_eq atModule
  rw [Nat.zero_add] at atApi
  have fieldsText := @renderJsonFields_eq event fields _ 0 _
    (fun field member => ⟨encodes.valid field member, encodes.small field member⟩)
    (drop_add_of_drop_eq atApi)
  have hook : ∀ value ∈ moduleName ++ [ascii '!'] ++ apiName, 32 ≤ value := by
    simp only [List.forall_mem_append]
    refine ⟨⟨module, fun value isMark => ?_⟩, api⟩
    rw [List.mem_singleton.mp isMark]
    decide
  have timestamp := encodeString_plain
    (clean_formatTimestamp fileTimeToSystemTime event.header.timestamp100ns).plain
  have quoted : ∀ {input : List UInt8}, (∀ value ∈ input, 32 ≤ value) →
      Json.encodeString (chars input) = text "\"" ++ JsonEscape input ++ text "\"" := by
    intro input visible
    rw [Json.encodeString, jsonEscape_eq visible]
    rfl
  simp only [RenderTraceEventJsonl, parseTraceEvent_complete encodes, fieldsText]
  unfold RenderJsonHeader eventMembers
  dsimp only
  simp (disch := decide) only [Json.encodeValue, Json.encodeMembers, Json.encodeMember,
    encodeNumber_eq, signedDecimal_natCast, timestamp, quoted module, quoted api, quoted hook,
    ↓encodeValue_bool, encodeString_text]
  simp [text]

/-! ## Printable values with distinct keys -/

theorem visible_text {literal : String} (plain : literal.toList.all plainCharacter = true) :
    Json.Visible (text literal) := (plain_text plain).visible

theorem printable_jsonOf (field : Field) : Json.Printable (jsonOf field) := by
  have preview := visible_chars (visible_previewText (field.value.drop sizeofTraceBytesHeader))
  have unknownType : Json.Plain (text "unknown_" ++ decimal field.type.toNat) :=
    Json.plain_append.mpr ⟨plain_text (by decide), (clean_decimal _).plain⟩
  unfold jsonOf
  split_ifs <;>
    simp (disch := decide) only [Json.Printable, Json.PrintableMembers, Json.PrintableMember,
      visible_text, (clean_hexStatus _).plain.visible, (clean_hexBytes _ _).plain.visible, unknownType.visible,
      preview, and_self]

theorem distinctKeys_jsonOf (field : Field) : Json.DistinctKeys (jsonOf field) := by
  unfold jsonOf
  split_ifs <;>
    simp [Json.DistinctKeys, Json.DistinctMembers, Json.DistinctMember, text]

theorem chars_injective {first second : List UInt8} (same : chars first = chars second) :
    first = second := by
  have character : Function.Injective Char.ofUInt8 := fun left right codes =>
    UInt8.toNat_inj.mp (congrArg Char.toNat codes)
  exact List.map_injective_iff.mpr character same

section Line

variable (fileTimeToSystemTime : FileTimeToSystemTime) {event : TraceEvent}
  {moduleName apiName : List UInt8} {fields : List Field}

theorem printable_eventMembers (encodes : Encodes event moduleName apiName fields) :
    Json.Printable (.object (eventMembers fileTimeToSystemTime event moduleName apiName fields)) := by
  have module := visible_chars (visible_name encodes.validModuleName fun _ valid => valid)
  have api := visible_chars (visible_name encodes.validApiName fun _ => .inl)
  have hook : Json.Visible (chars (moduleName ++ [ascii '!'] ++ apiName)) := by
    simp only [chars, List.map_append] at module api ⊢
    exact List.forall_mem_append.mpr
      ⟨List.forall_mem_append.mpr ⟨module, by simp; decide⟩, api⟩
  have all : Json.PrintableMembers (fields.map memberOf) := by
    rw [Json.printableMembers_iff]
    intro member inside
    obtain ⟨field, source, rfl⟩ := List.mem_map.mp inside
    have name := visible_name (encodes.valid field source).1.1
      fun _ => FieldNameCharacter_moduleName
    exact ⟨visible_chars name, printable_jsonOf field⟩
  simp (disch := decide) only [eventMembers, Json.Printable, Json.PrintableMembers,
    Json.PrintableMember, visible_text, module, api, hook, all,
    (clean_formatTimestamp _ _).plain.visible, and_self]

theorem distinctKeys_eventMembers (encodes : Encodes event moduleName apiName fields) :
    Json.DistinctKeys
      (.object (eventMembers fileTimeToSystemTime event moduleName apiName fields)) := by
  have names : (fields.map (Prod.fst ∘ memberOf)).Nodup := by
    have renamed := List.Nodup.map (fun _ _ => chars_injective) encodes.distinct
    rwa [List.map_map] at renamed
  have all : Json.DistinctMembers (fields.map memberOf) := by
    rw [Json.distinctMembers_iff]
    intro member inside
    obtain ⟨field, _, rfl⟩ := List.mem_map.mp inside
    exact distinctKeys_jsonOf field
  simp [eventMembers, Json.DistinctKeys, Json.DistinctMembers, Json.DistinctMember, names, all,
    text]

end Line

/-! ## What the line says -/

/-- What the value of a field has to say about its bytes. -/
structure Carries (field : Field) (value : Json.Value) : Prop where
  unsigned : field.type = TraceFieldPointer ∨ field.type = TraceFieldUInt64 ∨
    field.type = TraceFieldUInt32 → value = .number (ofLittleEndian field.value)
  signed : field.type = TraceFieldInt32 ∨ field.type = TraceFieldInt64 →
    value = .number (twosComplement field.value)
  boolean : field.type = TraceFieldBoolean →
    (field.value = [0] ∧ value = .bool false) ∨ (field.value = [1] ∧ value = .bool true)
  status : field.type = TraceFieldStatus → ∃ members, value = .object members ∧
    Json.lookup (text "value") members = some (.number (twosComplement field.value))
  bytes : field.type = TraceFieldBytes → ∃ members digits, value = .object members ∧
    Json.lookup (text "requested") members =
      some (.number (ofLittleEndian (slice field.value 0 4))) ∧
    Json.lookup (text "captured") members =
      some (.number (ofLittleEndian (slice field.value 4 4))) ∧
    Json.lookup (text "capture_status") members =
      some (.number (twosComplement (slice field.value 8 4))) ∧
    Json.lookup (text "hex") members = some (.string digits) ∧
    decodeHex digits = some (field.value.drop sizeofTraceBytesHeader)
  unknown : field.type = 0 ∨ TraceFieldBoolean < field.type → ∃ members digits,
    value = .object members ∧
    Json.lookup (text "type") members =
      some (.string (text "unknown_" ++ decimal field.type.toNat)) ∧
    Json.lookup (text "hex") members = some (.string digits) ∧
    decodeHex digits = some field.value

theorem toNat_uint32_wordAt (bytes : List UInt8) (offset : Nat) :
    (UInt32.ofNat (wordAt bytes offset 4)).toNat = ofLittleEndian (slice bytes offset 4) := by
  rw [UInt32.toNat_ofNat', Nat.mod_eq_of_lt (b := 2 ^ 32) (wordAt_lt bytes offset 4), wordAt]

theorem toNat_uint64_wordAt (bytes : List UInt8) (offset : Nat) :
    (UInt64.ofNat (wordAt bytes offset 8)).toNat = ofLittleEndian (slice bytes offset 8) := by
  rw [UInt64.toNat_ofNat', Nat.mod_eq_of_lt (b := 2 ^ 64) (wordAt_lt bytes offset 8), wordAt]

theorem int32_wordAt (bytes : List UInt8) (offset : Nat) (inside : offset + 4 ≤ bytes.length) :
    int32 (.ofNat (wordAt bytes offset 4)) = twosComplement (slice bytes offset 4) := by
  have sized : (slice bytes offset 4).length = 4 := by
    rw [length_slice]
    omega
  rw [twosComplement, sized, ← toNat_uint32_wordAt]
  exact BitVec.toInt_eq_toNat_cond _

theorem int64_wordAt (bytes : List UInt8) (offset : Nat) (inside : offset + 8 ≤ bytes.length) :
    int64 (.ofNat (wordAt bytes offset 8)) = twosComplement (slice bytes offset 8) := by
  have sized : (slice bytes offset 8).length = 8 := by
    rw [length_slice]
    omega
  rw [twosComplement, sized, ← toNat_uint64_wordAt]
  exact BitVec.toInt_eq_toNat_cond _

theorem slice_whole {bytes : List UInt8} {count : Nat} (sized : bytes.length = count) :
    slice bytes 0 count = bytes := by
  rw [slice, List.drop_zero, ← sized, List.take_length]

theorem toNat_readUInt32 {value : List UInt8} (sized : value.length = 4) :
    (ReadUInt32 value).toNat = ofLittleEndian value := by
  rw [ReadUInt32, toNat_uint32_wordAt, slice_whole sized]

theorem toNat_readUInt64 {value : List UInt8} (sized : value.length = 8) :
    (ReadUInt64 value).toNat = ofLittleEndian value := by
  rw [ReadUInt64, toNat_uint64_wordAt, slice_whole sized]

theorem int32_readUInt32 {value : List UInt8} (sized : value.length = 4) :
    int32 (ReadUInt32 value) = twosComplement value := by
  rw [ReadUInt32, int32_wordAt value 0 sized.ge, slice_whole sized]

theorem int64_readUInt64 {value : List UInt8} (sized : value.length = 8) :
    int64 (ReadUInt64 value) = twosComplement value := by
  rw [ReadUInt64, int64_wordAt value 0 sized.ge, slice_whole sized]

theorem carries_jsonOf {field : Field} (valid : ValueOf field.type field.value) :
    Carries field (jsonOf field) := by
  obtain ⟨type, name, value⟩ := field
  obtain ⟨doubles, words, booleans, previews⟩ := valid
  dsimp only at doubles words booleans previews
  constructor <;> dsimp only
  case unsigned =>
    rintro (rfl | rfl | rfl)
    · simp [jsonOf, toNat_readUInt64 (doubles (by simp))]
    · simp [jsonOf, toNat_readUInt64 (doubles (by simp))]
    · simp [jsonOf, toNat_readUInt32 (words (by simp))]
  case signed =>
    rintro (rfl | rfl)
    · simp [jsonOf, int32_readUInt32 (words (by simp))]
    · simp [jsonOf, int64_readUInt64 (doubles (by simp))]
  case boolean =>
    rintro rfl
    rcases booleans rfl with rfl | rfl
    · exact .inl ⟨rfl, rfl⟩
    · exact .inr ⟨rfl, rfl⟩
  case status =>
    rintro rfl
    refine ⟨_, rfl, ?_⟩
    simp [Json.lookup, text, int32_readUInt32 (words (by simp))]
  case bytes =>
    rintro rfl
    obtain ⟨header, data, split, _⟩ := previews rfl
    have enough : 8 + 4 ≤ value.length := by
      rw [split, List.length_append, TraceBytesHeader.length_bytes]
      exact Nat.le_add_right _ _
    have requested := toNat_uint32_wordAt value 0
    have captured := toNat_uint32_wordAt value 4
    have captureStatus := int32_wordAt value 8 enough
    refine ⟨_, _, rfl, ?_, ?_, ?_, rfl, decodeHex_hexBytes _⟩
    · rw [← requested]
      rfl
    · rw [← captured]
      rfl
    · rw [← captureStatus]
      rfl
  case unknown =>
    intro unknown
    have other : ∀ known ≤ TraceFieldBoolean, known ≠ 0 → type ≠ known := by
      rintro known small positive rfl
      rcases unknown with zero | large
      · exact positive zero
      · exact UInt8.not_lt.mpr small large
    have shape : jsonOf ⟨type, name, value⟩ =
        .object [(text "type", .string (text "unknown_" ++ decimal type.toNat)),
          (text "hex", .string (HexBytes value false))] := by
      simp (disch := decide) only [jsonOf, other, or_self, if_false]
    exact ⟨_, _, shape, rfl, rfl, decodeHex_hexBytes value⟩

/-- The object of a line agrees with the event and its parsed fields. -/
structure LineSays (event : TraceEvent) (parsed : ParsedEvent)
    (members fieldMembers : List (List Char × Json.Value)) : Prop where
  sequence : Json.lookup (text "sequence") members = some (.number event.header.sequence.toNat)
  timestamp : Json.lookup (text "timestamp_100ns") members =
    some (.number event.header.timestamp100ns.toNat)
  threadId : Json.lookup (text "thread_id") members = some (.number event.header.threadId.toNat)
  moduleName : Json.lookup (text "module") members = some (.string (chars parsed.moduleName))
  apiName : Json.lookup (text "api") members = some (.string (chars parsed.apiName))
  truncated : Json.lookup (text "truncated") members =
    some (.bool (event.header.flags &&& TraceEventFlagTruncated != 0))
  fieldError : Json.lookup (text "field_error") members =
    some (.bool (event.header.flags &&& TraceEventFlagFieldError != 0))
  fields : Json.lookup (text "fields") members = some (.object fieldMembers)
  carried : List.Forall₂ (fun view member => member.1 = chars view.name ∧
    Carries (fieldOf event.payload view) member.2) parsed.fields fieldMembers

theorem lineSays_eventMembers (fileTimeToSystemTime : FileTimeToSystemTime) {event : TraceEvent}
    {parsed : ParsedEvent}
    (valid : ∀ field ∈ parsed.fields.map (fieldOf event.payload), field.Valid) :
    LineSays event parsed
      (eventMembers fileTimeToSystemTime event parsed.moduleName parsed.apiName
        (parsed.fields.map (fieldOf event.payload)))
      ((parsed.fields.map (fieldOf event.payload)).map memberOf) := by
  refine ⟨rfl, rfl, rfl, rfl, rfl, rfl, rfl, rfl, ?_⟩
  rw [List.map_map, List.forall₂_map_right_iff, List.forall₂_same]
  intro view member
  have validField := valid (fieldOf event.payload view) (List.mem_map_of_mem member)
  exact ⟨rfl, carries_jsonOf validField.2⟩

/-- The line of an accepted event is one JSON object that says what the event says. -/
theorem jsonl_faithful (fileTimeToSystemTime : FileTimeToSystemTime) (event : TraceEvent)
    (bytesReceived : Nat) (parsed : ParsedEvent)
    (accepted : ParseTraceEvent event bytesReceived = some parsed) :
    ∃ (line : List Char) (members fieldMembers : List (List Char × Json.Value)),
      RenderTraceEventJsonl fileTimeToSystemTime event = line ++ ['\n'] ∧ '\n' ∉ line ∧
      Json.decode line = some (.object members) ∧ Json.DistinctKeys (.object members) ∧
      LineSays event parsed members fieldMembers := by
  obtain ⟨received, encodes⟩ := parseTraceEvent_sound accepted
  have printable := printable_eventMembers fileTimeToSystemTime encodes
  have visible := Json.visible_encodeValue _ printable
  refine ⟨_, _, _, renderTraceEventJsonl_eq fileTimeToSystemTime encodes, ?_,
    Json.decode_encode _ printable, distinctKeys_eventMembers fileTimeToSystemTime encodes,
    lineSays_eventMembers fileTimeToSystemTime encodes.valid⟩
  intro newline
  exact absurd (visible '\n' newline) (by decide)

/-- A status, a preview of two bytes and a field of a type without a name. -/
def lineEvent : TraceEvent where
  header := ⟨TRACE_EVENT_MAGIC, TRACE_EVENT_VERSION, 71, TraceEventFlagTruncated, 3, 9, 0, 4, 2, 3,
    (0, 0)⟩
  payload := (contents (['n', 't'].map ascii) (['N', 't', 'X'].map ascii)
    [⟨TraceFieldStatus, [ascii 's'], [5, 0, 0, 0xC0]⟩,
      ⟨TraceFieldBytes, [ascii 'b'], [0, 16, 0, 0, 2, 0, 0, 0, 0, 0, 0, 0, 34, 255]⟩,
      ⟨0, [ascii 'u'], [92]⟩]).takeD (TRACE_MAX_EVENT_BYTES - sizeofTraceEventHeader) 0
  payload_length := List.takeD_length _ _ _

theorem jsonl_faithful_lineEvent :
    let views := [⟨⟨TraceFieldStatus, 1, 4⟩, [ascii 's'], 10⟩,
      ⟨⟨TraceFieldBytes, 1, 14⟩, [ascii 'b'], 19⟩, ⟨⟨0, 1, 1⟩, [ascii 'u'], 38⟩]
    ∃ (line : List Char) (members fieldMembers : List (List Char × Json.Value)),
      RenderTraceEventJsonl (fun _ => none) lineEvent = line ++ ['\n'] ∧ '\n' ∉ line ∧
      Json.decode line = some (.object members) ∧ Json.DistinctKeys (.object members) ∧
      LineSays lineEvent ⟨['n', 't'].map ascii, ['N', 't', 'X'].map ascii, views⟩ members
        fieldMembers :=
  jsonl_faithful (fun _ => none) lineEvent 71 _ (by decide +kernel)

end TraceRenderer

end ApiScope
