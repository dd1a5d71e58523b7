import ApiScope.Trace.Language
import ApiScope.Trace.Transport
import Mathlib.Algebra.BigOperators.Group.List.Basic
import Mathlib.Data.List.GetD
import Mathlib.Data.List.TakeWhile

/-!
# The encoder speaks the language

Every event the encoder builds encodes exactly the fields it accepted, so the
parser returns them.  Conversely the encoder rebuilds every event of the
language from what the parser returns.
-/

namespace ApiScope

open Bytes TraceLanguage

/-- The text of a C string: the bytes in front of the first zero byte. -/
def CString.text (string : CString) : List UInt8 := (string.getD []).takeWhile fun byte => byte != 0

namespace TraceTransport

/-! ## C strings -/

theorem stringLength_eq (value : List UInt8) (remaining index : Nat) :
    stringLength value remaining index =
      index + min remaining ((value.drop index).takeWhile fun byte => byte != 0).length := by
  induction remaining generalizing index with
  | zero => simp [stringLength]
  | succ remaining inductionHypothesis =>
      rw [stringLength]
      by_cases inside : index < value.length
      · rw [List.drop_eq_getElem_cons inside, List.getD_eq_getElem _ _ inside]
        by_cases ends : value[index] = 0
        · simp [ends]
        · simp only [ends, ne_eq, not_false_eq_true, if_true, inductionHypothesis,
            List.takeWhile_cons, bne_iff_ne, List.length_cons]
          omega
      · simp [List.drop_eq_nil_of_le (not_lt.mp inside), List.getElem?_eq_none (not_lt.mp inside)]

/-- A string's length, when it is between 1 and the maximum. -/
theorem getBoundedStringLength_iff {string : CString} {maximum : Nat} {length : UInt8} :
    GetBoundedStringLength string maximum = some length ↔
      0 < string.text.length ∧ string.text.length ≤ maximum ∧
      length = .ofNat string.text.length := by
  cases string with
  | none => simp [GetBoundedStringLength, CString.text]
  | some value =>
      simp only [GetBoundedStringLength, stringLength_eq, CString.text, Option.getD_some,
        List.drop_zero, Nat.zero_add, Option.ite_none_left_eq_some, Option.some.injEq]
      constructor
      · rintro ⟨bounds, rfl⟩
        exact ⟨by omega, by omega, congrArg _ (by omega)⟩
      · rintro ⟨positive, bounded, rfl⟩
        exact ⟨by omega, congrArg _ (by omega)⟩

/-- The bytes a validator looks at are the text. -/
theorem take_text (string : CString) : (string.getD []).take string.text.length = string.text := by
  rw [CString.text]
  exact (List.prefix_iff_eq_take.mp (List.takeWhile_prefix _)).symm

theorem toNat_textLength {string : CString} (short : string.text.length < 256) :
    (UInt8.ofNat string.text.length).toNat = string.text.length := by
  rw [UInt8.toNat_ofNat', Nat.mod_eq_of_lt short]

/-! ## The transport's validators decide the grammar -/

theorem isFieldNameCharacter_iff (character : UInt8) :
    IsFieldNameCharacter character = true ↔ FieldNameCharacter character := by
  simp [IsFieldNameCharacter, FieldNameCharacter, Lowercase, Digit, or_assoc]

theorem isIdentifierCharacter_true (character : UInt8) :
    IsIdentifierCharacter character true = true ↔ ModuleNameCharacter character := by
  simp [IsIdentifierCharacter, ModuleNameCharacter, ApiNameCharacter, Lowercase,
    Uppercase, Digit, or_assoc]

theorem isIdentifierCharacter_false (character : UInt8) :
    IsIdentifierCharacter character false = true ↔ ApiNameCharacter character := by
  simp [IsIdentifierCharacter, ApiNameCharacter, Lowercase, Uppercase, Digit, or_assoc]

theorem isValidIdentifier_iff {alphabet : UInt8 → Prop} {moduleName : Bool}
    (same : ∀ character, IsIdentifierCharacter character moduleName = true ↔ alphabet character)
    {string : CString} {length : UInt8} :
    IsValidIdentifier string 63 moduleName = some length ↔
      NameOver alphabet string.text ∧ length = .ofNat string.text.length := by
  simp only [IsValidIdentifier, NameOver]
  cases bounded : GetBoundedStringLength string 63 with
  | none =>
      have outside : ¬(0 < string.text.length ∧ string.text.length ≤ 63) := fun inside => by
        rw [getBoundedStringLength_iff.mpr ⟨inside.1, inside.2, rfl⟩] at bounded
        cases bounded
      simp only [reduceCtorEq, false_iff, not_and]
      exact fun valid => absurd ⟨valid.1, valid.2.1⟩ outside
  | some counted =>
      obtain ⟨positive, short, rfl⟩ := getBoundedStringLength_iff.mp bounded
      simp only [toNat_textLength (show string.text.length < 256 by omega), take_text,
        List.all_eq_true, same, Option.ite_none_right_eq_some, Option.some.injEq]
      constructor
      · rintro ⟨all, rfl⟩
        exact ⟨⟨positive, short, all⟩, rfl⟩
      · rintro ⟨⟨_, _, all⟩, rfl⟩
        exact ⟨all, rfl⟩

theorem isValidFieldName_iff {string : CString} {length : UInt8} :
    IsValidFieldName string = some length ↔
      FieldName string.text ∧ length = .ofNat string.text.length := by
  simp only [IsValidFieldName, TRACE_MAX_FIELD_NAME_BYTES]
  cases bounded : GetBoundedStringLength string 63 with
  | none =>
      simp only [reduceCtorEq, false_iff, not_and]
      intro valid
      rw [getBoundedStringLength_iff.mpr ⟨valid.1.1, valid.1.2.1, rfl⟩] at bounded
      cases bounded
  | some counted =>
      obtain ⟨positive, short, rfl⟩ := getBoundedStringLength_iff.mp bounded
      have text := take_text string
      obtain ⟨first, rest, parts⟩ := List.exists_cons_of_length_pos positive
      have head : (string.getD []).getD 0 0 = first := by
        rw [parts] at text
        cases memory : string.getD [] with
        | nil => simp [memory] at text
        | cons first' rest' =>
            rw [memory, List.length_cons, List.take_succ_cons] at text
            exact (List.cons.inj text).1
      have size : rest.length + 1 ≤ 63 := by simpa [parts] using short
      simp only [toNat_textLength (show string.text.length < 256 by omega), text, head]
      rw [parts, fieldName_cons]
      simp only [List.drop_one, List.tail_cons, List.all_eq_true, isFieldNameCharacter_iff,
        Lowercase, not_or, UInt8.not_lt, Option.ite_none_left_eq_some, Option.ite_none_right_eq_some,
        Option.some.injEq]
      constructor
      · rintro ⟨lower, all, rfl⟩
        exact ⟨⟨size, lower, all⟩, rfl⟩
      · rintro ⟨⟨_, lower, all⟩, rfl⟩
        exact ⟨lower, all, rfl⟩

/-! ## The walk over existing fields -/

theorem hasTraceField_iff {payload rest : List UInt8} {cursor : Nat} {fields : List Field}
    {name : List UInt8} {nameLength : UInt8}
    (valid : ∀ field ∈ fields, field.Valid ∧ field.value.length < 65536)
    (starts : payload.drop cursor = fields.flatMap Field.bytes ++ rest)
    (sized : nameLength.toNat = name.length) :
    hasTraceField payload name nameLength fields.length cursor = true ↔
      name ∈ fields.map Field.name := by
  induction fields generalizing cursor with
  | nil => simp [hasTraceField]
  | cons field fields inductionHypothesis =>
      rw [List.flatMap_cons, List.append_assoc] at starts
      obtain ⟨validField, small⟩ := valid field (by simp)
      have header : TraceFieldHeader.ofBytes (payload.drop cursor) = field.header := by
        rw [starts, Field.bytes, List.append_assoc, List.append_assoc,
          TraceFieldHeader.ofBytes_bytes]
      have atName : payload.drop (cursor + sizeofTraceFieldHeader) =
          field.name ++ (field.value ++ (fields.flatMap Field.bytes ++ rest)) := by
        rw [← List.drop_drop, starts]
        simp [Field.bytes]
      have next : cursor + sizeofTraceFieldHeader +
          (field.header.nameLength.toNat + field.header.valueSize.toNat) =
            cursor + field.bytes.length := by
        rw [Field.nameLength_toNat validField, Field.valueSize_toNat small, Field.length_bytes,
          sizeofTraceFieldHeader]
        omega
      have later := inductionHypothesis
        (fun other member => valid other (List.mem_cons_of_mem _ member))
        (drop_add_of_drop_eq starts)
      have here : (field.header.nameLength = nameLength ∧
          slice payload (cursor + sizeofTraceFieldHeader) nameLength.toNat =
            name.take nameLength.toNat) ↔ name = field.name := by
        rw [sized, List.take_length, slice, atName, ← UInt8.toNat_inj, sized,
          Field.nameLength_toNat validField]
        constructor
        · rintro ⟨same, found⟩
          rw [← same, List.take_left] at found
          exact found.symm
        · rintro rfl
          exact ⟨rfl, List.take_left⟩
      simp only [List.length_cons, hasTraceField, header, next, List.map_cons, List.mem_cons]
      by_cases same : name = field.name
      · rw [if_pos (here.mpr same)]
        simp [same]
      · rw [if_neg fun found => same (here.mp found), later]
        simp [same]

/-! ## Appending one field -/

theorem encodes_raise {event : TraceEvent} {moduleName apiName : List UInt8} {fields : List Field}
    (encodes : Encodes event moduleName apiName fields) (flag : UInt16) :
    Encodes (event.raise flag) moduleName apiName fields :=
  ⟨encodes.magic, encodes.version, encodes.validModuleName, encodes.moduleNameLength,
    encodes.validApiName, encodes.apiNameLength, encodes.fieldCount, encodes.valid,
    encodes.distinct, encodes.size, encodes.fits, encodes.payload⟩

/-- Every field takes bytes, so the 16-bit count never wraps. -/
theorem fieldCount_small {event : TraceEvent} {moduleName apiName : List UInt8}
    {fields : List Field} (encodes : Encodes event moduleName apiName fields) :
    fields.length ≤ 1024 := by
  have counted : (fields.map fun field => field.bytes.length).length ≤
      (fields.map fun field => field.bytes.length).sum := by
    apply List.length_le_sum_of_one_le
    intro size member
    obtain ⟨field, _, rfl⟩ := List.mem_map.mp member
    rw [Field.length_bytes]
    omega
  have size := encodes.size
  have fits := encodes.fits
  simp only [contents, List.length_append, List.length_flatMap, TRACE_MAX_EVENT_BYTES] at size fits
  rw [List.length_map] at counted
  omega

/-- The three copies of `AppendTraceField` write the encoded field. -/
theorem take_withField {event : TraceEvent} {field : Field} {name value : List UInt8} {cursor : Nat}
    (place : event.header.size.toNat = sizeofTraceEventHeader + cursor) (valid : field.Valid)
    (fits : event.header.size.toNat + field.bytes.length ≤ TRACE_MAX_EVENT_BYTES)
    (named : name.take field.name.length = field.name)
    (valued : value.take field.value.length = field.value) :
    (withField event field.header name value).payload.take (cursor + field.bytes.length) =
      event.payload.take cursor ++ field.bytes := by
  have sized := event.payload_length
  have total := field.length_bytes
  have small : field.value.length < 65536 := by
    simp only [TRACE_MAX_EVENT_BYTES] at fits
    omega
  simp only [TRACE_MAX_EVENT_BYTES, sizeofTraceEventHeader] at fits sized place
  have start : event.header.size.toNat - sizeofTraceEventHeader = cursor := by
    simp only [sizeofTraceEventHeader]
    omega
  simp only [withField, TraceEvent.write, Field.nameLength_toNat valid,
    Field.valueSize_toNat small, named, valued, start]
  have header := field.header.length_bytes
  have first := take_overwrite_end event.payload cursor field.header.bytes (by omega)
  set after := overwrite event.payload cursor field.header.bytes with afterDef
  have afterSize : after.length = event.payload.length := by rw [afterDef, length_overwrite]
  have second := take_overwrite_end after (cursor + sizeofTraceFieldHeader) field.name
    (by simp only [sizeofTraceFieldHeader]; omega)
  set after' := overwrite after (cursor + sizeofTraceFieldHeader) field.name with afterDef'
  have afterSize' : after'.length = event.payload.length := by
    rw [afterDef', length_overwrite, afterSize]
  have third := take_overwrite_end after' (cursor + sizeofTraceFieldHeader + field.name.length)
    field.value (by simp only [sizeofTraceFieldHeader]; omega)
  rw [header] at first
  simp only [sizeofTraceFieldHeader] at second third
  rw [second, first] at third
  rw [total, ← Nat.add_assoc, ← Nat.add_assoc, sizeofTraceFieldHeader, third, Field.bytes]
  simp only [List.append_assoc]

/-- One field more. -/
theorem encodes_withField {event : TraceEvent} {moduleName apiName : List UInt8}
    {fields : List Field} {field : Field} {name value : List UInt8}
    (encodes : Encodes event moduleName apiName fields) (valid : field.Valid)
    (fresh : field.name ∉ fields.map Field.name)
    (fits : event.header.size.toNat + field.bytes.length ≤ TRACE_MAX_EVENT_BYTES)
    (named : name.take field.name.length = field.name)
    (valued : value.take field.value.length = field.value) :
    Encodes (withField event field.header name value) moduleName apiName (fields ++ [field]) := by
  have written := take_withField encodes.size valid fits named valued
  have counted := fieldCount_small encodes
  have total := field.length_bytes
  have small : field.value.length < 65536 := by
    simp only [TRACE_MAX_EVENT_BYTES] at fits
    omega
  have grown : (withField event field.header name value).header.size.toNat =
      event.header.size.toNat + field.bytes.length := by
    simp only [withField, TraceEvent.write, Field.nameLength_toNat valid,
      Field.valueSize_toNat small, UInt16.toNat_ofNat', sizeofTraceFieldHeader]
    simp only [TRACE_MAX_EVENT_BYTES] at fits
    rw [Nat.mod_eq_of_lt (by omega)]
    omega
  have more := contents_snoc moduleName apiName fields field
  have size := encodes.size
  exact {
    magic := encodes.magic
    version := encodes.version
    validModuleName := encodes.validModuleName
    moduleNameLength := encodes.moduleNameLength
    validApiName := encodes.validApiName
    apiNameLength := encodes.apiNameLength
    fieldCount := by
      have step : (event.header.fieldCount + 1).toNat = fields.length + 1 := by
        rw [UInt16.toNat_add, encodes.fieldCount]
        exact Nat.mod_eq_of_lt (by simp; omega)
      simpa [withField, TraceEvent.write] using step
    valid := by
      intro other member
      rcases List.mem_append.mp member with old | new
      · exact encodes.valid other old
      · rw [List.mem_singleton.mp new]
        exact valid
    distinct := by
      rw [List.map_append, List.nodup_append]
      refine ⟨encodes.distinct, by simp, fun old member new newMember same => fresh ?_⟩
      rw [← List.mem_singleton.mp newMember, ← same]
      exact member
    size := by
      rw [grown, more, size, List.length_append]
      omega
    fits := by rw [grown]; exact fits
    payload := by
      have old := encodes.payload
      rw [size, Nat.add_sub_cancel_left] at old
      have place : (withField event field.header name value).header.size.toNat -
          sizeofTraceEventHeader = (contents moduleName apiName fields).length +
            field.bytes.length := by omega
      rw [place, written, old, more] }

theorem encodes_canAppend {event : TraceEvent} {moduleName apiName : List UInt8}
    {fields : List Field} (encodes : Encodes event moduleName apiName fields) :
    CanAppend event := by
  refine ⟨encodes.magic, encodes.version, ?_, encodes.fits⟩
  have size := encodes.size
  simp only [contents, List.length_append] at size
  rw [TraceNameBytes, encodes.moduleNameLength, encodes.apiNameLength]
  omega

theorem hasTraceField_event_iff {event : TraceEvent} {moduleName apiName : List UInt8}
    {fields : List Field} (encodes : Encodes event moduleName apiName fields) {name : List UInt8}
    {text : List UInt8} {nameLength : UInt8} (sized : nameLength.toNat = text.length)
    (prefix_ : name.take text.length = text) :
    HasTraceField event name nameLength = true ↔ text ∈ fields.map Field.name := by
  have short : ∀ remaining cursor, hasTraceField event.payload name nameLength remaining cursor =
      hasTraceField event.payload text nameLength remaining cursor := by
    intro remaining
    induction remaining with
    | zero => exact fun _ => rfl
    | succ remaining inductionHypothesis =>
        intro cursor
        simp only [hasTraceField, sized, prefix_, List.take_length, inductionHypothesis]
  rw [HasTraceField, TraceNameBytes, encodes.moduleNameLength, encodes.apiNameLength,
    encodes.fieldCount, short]
  exact hasTraceField_iff (fun field member => ⟨encodes.valid field member,
    encodes.small field member⟩) encodes.drop_names sized

/-- When a field is accepted, and what the event encodes either way. -/
theorem appendTraceField_spec {event : TraceEvent} {moduleName apiName : List UInt8}
    {fields : List Field} (encodes : Encodes event moduleName apiName fields) (type : UInt8)
    (name : CString) {value : List UInt8} {valueSize : UInt16}
    (enough : valueSize.toNat ≤ value.length)
    (valued : ValueOf type (value.take valueSize.toNat)) :
    ((AppendTraceField event type name (some value) valueSize).1 = true ↔
      FieldName name.text ∧ name.text ∉ fields.map Field.name ∧
      event.header.size.toNat + (4 + name.text.length + valueSize.toNat) ≤
        TRACE_MAX_EVENT_BYTES) ∧
    Encodes (AppendTraceField event type name (some value) valueSize).2 moduleName apiName
      (if (AppendTraceField event type name (some value) valueSize).1 = true then
        fields ++ [⟨type, name.text, value.take valueSize.toNat⟩] else fields) := by
  simp only [AppendTraceField, encodes_canAppend encodes, not_true_eq_false, if_false]
  cases validated : IsValidFieldName name with
  | none =>
      have invalid : ¬FieldName name.text := fun valid => by
        rw [isValidFieldName_iff.mpr ⟨valid, rfl⟩] at validated
        cases validated
      exact ⟨by simp [invalid], encodes_raise encodes _⟩
  | some nameLength =>
      obtain ⟨valid, rfl⟩ := isValidFieldName_iff.mp validated
      have counted := toNat_textLength (fieldName_length valid)
      have present := hasTraceField_event_iff encodes counted (take_text name)
      have sized : (value.take valueSize.toNat).length = valueSize.toNat := by simpa using enough
      simp only [counted]
      by_cases duplicate : HasTraceField event (name.getD []) (.ofNat name.text.length) = true
      · simp only [duplicate, if_true, Bool.false_eq_true, if_false]
        exact ⟨by simp [present.mp duplicate], encodes_raise encodes _⟩
      have fresh : name.text ∉ fields.map Field.name := fun member => duplicate (present.mpr member)
      by_cases full : TRACE_MAX_EVENT_BYTES < event.header.size.toNat +
          (sizeofTraceFieldHeader + name.text.length + valueSize.toNat)
      · simp only [duplicate, full, if_true, Bool.false_eq_true, if_false]
        exact ⟨⟨False.elim, fun ok => absurd ok.2.2 (not_le.mpr full)⟩, encodes_raise encodes _⟩
      · have room := not_lt.mp full
        simp only [duplicate, full, if_true, Bool.false_eq_true, if_false]
        refine ⟨⟨fun _ => ⟨valid, fresh, room⟩, fun _ => trivial⟩, ?_⟩
        have header : (⟨type, .ofNat name.text.length, valueSize⟩ : TraceFieldHeader) =
            Field.header ⟨type, name.text, value.take valueSize.toNat⟩ := by
          simp only [Field.header, sized, UInt16.ofNat_toNat]
        rw [header]
        exact encodes_withField encodes ⟨valid, valued⟩ fresh
          (by rw [Field.length_bytes, sized]; exact room) (take_text name) (by rw [sized])

/-! ## The empty event -/

/-- When the names are accepted, and what the new event encodes. -/
theorem initializeTraceEvent_spec (clock : Clock) (moduleName apiName : CString) :
    ((InitializeTraceEvent clock moduleName apiName).1 = true ↔
      ModuleName moduleName.text ∧ ApiName apiName.text) ∧
    ((InitializeTraceEvent clock moduleName apiName).1 = true →
      Encodes (InitializeTraceEvent clock moduleName apiName).2 moduleName.text apiName.text
        []) := by
  simp only [InitializeTraceEvent, TRACE_MAX_MODULE_NAME_BYTES, TRACE_MAX_API_NAME_BYTES]
  cases first : IsValidIdentifier moduleName 63 true with
  | none =>
      have invalid : ¬ModuleName moduleName.text := fun valid => by
        rw [(isValidIdentifier_iff isIdentifierCharacter_true).mpr ⟨valid, rfl⟩] at first
        cases first
      simp [invalid]
  | some moduleLength =>
      obtain ⟨validModule, rfl⟩ := (isValidIdentifier_iff isIdentifierCharacter_true).mp first
      cases second : IsValidIdentifier apiName 63 false with
      | none =>
          have invalid : ¬ApiName apiName.text := fun valid => by
            rw [(isValidIdentifier_iff isIdentifierCharacter_false).mpr ⟨valid, rfl⟩] at second
            cases second
          simp [invalid]
      | some apiLength =>
          obtain ⟨validApi, rfl⟩ := (isValidIdentifier_iff isIdentifierCharacter_false).mp second
          refine ⟨iff_of_true rfl ⟨validModule, validApi⟩, fun _ => ?_⟩
          have moduleShort := validModule.2.1
          have apiShort := validApi.2.1
          have moduleCount := @toNat_textLength moduleName (by omega)
          have apiCount := @toNat_textLength apiName (by omega)
          have sized : (TraceEvent.zero).payload.length = 992 := TraceEvent.zero.payload_length
          have total : (32 + moduleName.text.length + apiName.text.length) % 2 ^ 16 =
              32 + moduleName.text.length + apiName.text.length := Nat.mod_eq_of_lt (by omega)
          have written := take_overwrite_end TraceEvent.zero.payload 0 moduleName.text (by omega)
          have written' := take_overwrite_end (overwrite TraceEvent.zero.payload 0 moduleName.text)
            moduleName.text.length apiName.text (by rw [length_overwrite]; omega)
          rw [Nat.zero_add, List.take_zero, List.nil_append] at written
          rw [written] at written'
          simp only [moduleCount, apiCount, take_text]
          exact {
            magic := rfl
            version := rfl
            validModuleName := validModule
            moduleNameLength := moduleCount
            validApiName := validApi
            apiNameLength := apiCount
            fieldCount := rfl
            valid := by simp
            distinct := by simp
            size := by
              simp only [TraceEvent.write, contents, UInt16.toNat_ofNat', sizeofTraceEventHeader,
                total, List.flatMap_nil, List.append_nil, List.length_append]
              omega
            fits := by
              simp only [TraceEvent.write, UInt16.toNat_ofNat', sizeofTraceEventHeader, total,
                TRACE_MAX_EVENT_BYTES]
              omega
            payload := by
              simp only [TraceEvent.write, UInt16.toNat_ofNat', sizeofTraceEventHeader, total,
                contents, List.flatMap_nil, List.append_nil]
              rw [← written']
              congr 1
              omega }

/-! ## Sequences of calls -/

/-- One call of an `AddTrace...` function on an event. -/
inductive AddCall where
  | pointer (name : CString) (value : UInt64)
  | uint32 (name : CString) (value : UInt32)
  | uint64 (name : CString) (value : UInt64)
  | int32 (name : CString) (value : Int32)
  | int64 (name : CString) (value : Int64)
  | boolean (name : CString) (value : Bool)
  | status (name : CString) (value : UInt32)
  | bufferPreview (name : CString) (buffer : UInt64) (length : UInt32)
      (readMemory : Option ReadVirtualMemory)

namespace AddCall

def run (event : TraceEvent) : AddCall → Bool × TraceEvent
  | pointer name value => AddTracePointer event name value
  | uint32 name value => AddTraceUInt32 event name value
  | uint64 name value => AddTraceUInt64 event name value
  | int32 name value => AddTraceInt32 event name value
  | int64 name value => AddTraceInt64 event name value
  | boolean name value => AddTraceBoolean event name value
  | status name value => AddTraceStatus event name value
  | bufferPreview name buffer length readMemory =>
      AddTraceBufferPreview readMemory event name buffer length

/-- The field a call asks for: its type, the text of its name, its value's bytes. -/
def field : AddCall → Field
  | pointer name value => ⟨TraceFieldPointer, name.text, littleEndian 8 value.toNat⟩
  | uint32 name value => ⟨TraceFieldUInt32, name.text, littleEndian 4 value.toNat⟩
  | uint64 name value => ⟨TraceFieldUInt64, name.text, littleEndian 8 value.toNat⟩
  | int32 name value => ⟨TraceFieldInt32, name.text, littleEndian 4 value.toUInt32.toNat⟩
  | int64 name value => ⟨TraceFieldInt64, name.text, littleEndian 8 value.toUInt64.toNat⟩
  | boolean name value => ⟨TraceFieldBoolean, name.text, [if value then 1 else 0]⟩
  | status name value => ⟨TraceFieldStatus, name.text, littleEndian 4 value.toNat⟩
  | bufferPreview name buffer length readMemory =>
      let preview := CaptureTraceBuffer readMemory buffer length
      ⟨TraceFieldBytes, name.text,
        preview.header.bytes ++ preview.bytes.take preview.header.captured.toNat⟩

end AddCall

/-- Make the calls in order: the fields of those that returned true, and the event. -/
def addAll (event : TraceEvent) : List AddCall → List Field × TraceEvent
  | [] => ([], event)
  | call :: calls =>
      let (accepted, event) := call.run event
      let (fields, event) := addAll event calls
      (if accepted then call.field :: fields else fields, event)

/-- A preview never claims more bytes than it holds or was asked for. -/
theorem captureTraceBuffer_spec (readMemory : Option ReadVirtualMemory) (buffer : UInt64)
    (length : UInt32) :
    (CaptureTraceBuffer readMemory buffer length).bytes.length = TRACE_MAX_BUFFER_BYTES ∧
    (CaptureTraceBuffer readMemory buffer length).header.captured.toNat ≤
      TRACE_MAX_BUFFER_BYTES ∧
    (CaptureTraceBuffer readMemory buffer length).header.captured ≤
      (CaptureTraceBuffer readMemory buffer length).header.requested := by
  simp only [CaptureTraceBuffer]
  by_cases empty : buffer = 0 ∨ length = 0
  · simp [empty]
  · rw [if_neg empty]
    cases readMemory with
    | none => simp
    | some readMemory =>
        set captureLength : UInt32 :=
          if length.toNat < TRACE_MAX_BUFFER_BYTES then length else .ofNat TRACE_MAX_BUFFER_BYTES
          with captureDef
        have bounded : captureLength.toNat ≤ TRACE_MAX_BUFFER_BYTES ∧ captureLength ≤ length := by
          rw [captureDef, UInt32.le_iff_toNat_le]
          split_ifs with short
          · exact ⟨short.le, le_rfl⟩
          · exact ⟨by decide, not_lt.mp short⟩
        have clipped : (if (readMemory buffer captureLength).captured < captureLength then
            (readMemory buffer captureLength).captured else captureLength) ≤ captureLength := by
          split_ifs with fewer
          · exact UInt32.le_of_lt fewer
          · exact UInt32.le_refl _
        refine ⟨by simp, ?_, UInt32.le_trans clipped bounded.2⟩
        exact (UInt32.le_iff_toNat_le.mp clipped).trans bounded.1

/-- Every call appends a value of its field's type under its field's name. -/
theorem AddCall.exists_append (call : AddCall) :
    ∃ (type : UInt8) (name : CString) (value : List UInt8) (valueSize : UInt16),
      valueSize.toNat ≤ value.length ∧ ValueOf type (value.take valueSize.toNat) ∧
      call.field = ⟨type, name.text, value.take valueSize.toNat⟩ ∧
      ∀ event, call.run event = AppendTraceField event type name (some value) valueSize := by
  cases call with
  | pointer name | uint32 name | uint64 name | int32 name | int64 name | status name =>
      refine ⟨_, name, _, _, ?_, ?_, ?_, fun event => rfl⟩
      · simp
      · simp [ValueOf]
      · simp [field]
  | boolean name value =>
      refine ⟨_, name, _, _, ?_, ?_, ?_, fun event => rfl⟩
      · cases value <;> simp
      · cases value <;> simp [ValueOf, littleEndian]
      · cases value <;> simp [field, littleEndian]
  | bufferPreview name buffer length readMemory =>
      obtain ⟨stored, small, ordered⟩ := captureTraceBuffer_spec readMemory buffer length
      set preview := CaptureTraceBuffer readMemory buffer length with previewDef
      have size : (UInt16.ofNat (sizeofTraceBytesHeader + preview.header.captured.toNat)).toNat =
          12 + preview.header.captured.toNat := by
        rw [UInt16.toNat_ofNat']
        exact Nat.mod_eq_of_lt (by simp only [TRACE_MAX_BUFFER_BYTES] at small; simp; omega)
      have cut : (preview.header.bytes ++ preview.bytes).take
          (UInt16.ofNat (sizeofTraceBytesHeader + preview.header.captured.toNat)).toNat =
            preview.header.bytes ++ preview.bytes.take preview.header.captured.toNat := by
        rw [size, List.take_append, List.take_of_length_le (by simp)]
        simp
      have valued : ValueOf TraceFieldBytes
          (preview.header.bytes ++ preview.bytes.take preview.header.captured.toNat) := by
        refine ⟨by simp, by simp, by simp, fun _ => ⟨_, _, rfl, ?_, small, ordered⟩⟩
        rw [List.length_take, stored]
        exact min_eq_left small
      refine ⟨TraceFieldBytes, name, preview.header.bytes ++ preview.bytes, _, ?_, ?_, ?_,
        fun event => rfl⟩
      · rw [size, List.length_append, stored]
        simp at small ⊢
        omega
      · rwa [cut]
      · rw [cut]
        rfl

theorem addCall_spec {event : TraceEvent} {moduleName apiName : List UInt8} {fields : List Field}
    (encodes : Encodes event moduleName apiName fields) (call : AddCall) :
    Encodes (call.run event).2 moduleName apiName
      (if (call.run event).1 = true then fields ++ [call.field] else fields) := by
  obtain ⟨type, name, value, valueSize, enough, valued, isField, appends⟩ := call.exists_append
  rw [appends, isField]
  exact (appendTraceField_spec encodes type name enough valued).2

theorem addAll_spec {event : TraceEvent} {moduleName apiName : List UInt8} {fields : List Field}
    (encodes : Encodes event moduleName apiName fields) (calls : List AddCall) :
    Encodes (addAll event calls).2 moduleName apiName (fields ++ (addAll event calls).1) := by
  induction calls generalizing event fields with
  | nil => simpa [addAll] using encodes
  | cons call calls inductionHypothesis =>
      have later := inductionHypothesis (addCall_spec encodes call)
      simp only [addAll]
      split_ifs at later ⊢ with accepted
      · simpa using later
      · exact later

/-- What the encoder builds, the decoder accepts and reads back. -/
theorem encoder_decoder_agree (clock : Clock) (moduleName apiName : CString)
    (accepted : (InitializeTraceEvent clock moduleName apiName).1 = true)
    (calls : List AddCall) :
    let built := addAll (InitializeTraceEvent clock moduleName apiName).2 calls
    TraceRenderer.IsValidTraceEvent built.2 built.2.header.size.toNat = true ∧
    ∃ parsed, TraceRenderer.ParseTraceEvent built.2 built.2.header.size.toNat = some parsed ∧
      parsed.moduleName = moduleName.text ∧ parsed.apiName = apiName.text ∧
      parsed.fields.map (fieldOf built.2.payload) = built.1 := by
  intro built
  have encodes : Encodes built.2 moduleName.text apiName.text built.1 :=
    addAll_spec ((initializeTraceEvent_spec clock moduleName apiName).2 accepted) calls
  have parsed := parseTraceEvent_complete encodes
  refine ⟨by rw [TraceRenderer.IsValidTraceEvent, parsed]; rfl, _, parsed, rfl, rfl, ?_⟩
  exact encodes.fieldOf_views

theorem encoder_decoder_agree_sample :
    let built := addAll
      (InitializeTraceEvent ⟨7, 0⟩ (some (['n', 't', '.', 'd'].map ascii))
        (some (['N', 't'].map ascii))).2
      [.status (some ([ 'a'].map ascii)) 0xC0000005, .boolean (some ([ 'a'].map ascii)) true,
        .bufferPreview (some ([ 'b'].map ascii)) 4096 2 (some fun _ _ => ⟨0, 99, [1, 2]⟩)]
    TraceRenderer.IsValidTraceEvent built.2 built.2.header.size.toNat = true ∧
    ∃ parsed, TraceRenderer.ParseTraceEvent built.2 built.2.header.size.toNat = some parsed ∧
      parsed.moduleName = CString.text (some (['n', 't', '.', 'd'].map ascii)) ∧
      parsed.apiName = CString.text (some (['N', 't'].map ascii)) ∧
      parsed.fields.map (fieldOf built.2.payload) = built.1 :=
  encoder_decoder_agree ⟨7, 0⟩ (some (['n', 't', '.', 'd'].map ascii))
    (some (['N', 't'].map ascii)) (by decide) _

/-! ## Rebuilding a parsed event -/

/-- Append the fields in order: the results of the calls, and the event. -/
def appendAll (event : TraceEvent) : List Field → List Bool × TraceEvent
  | [] => ([], event)
  | field :: fields =>
      let (accepted, event) := AppendTraceField event field.type (some field.name)
        (some field.value) (.ofNat field.value.length)
      let (results, event) := appendAll event fields
      (accepted :: results, event)

/-- A name without zero bytes is its own text. -/
theorem text_of_name {alphabet : UInt8 → Prop} {name : List UInt8} (valid : NameOver alphabet name)
    (printable : ¬alphabet 0) : CString.text (some name) = name := by
  rw [CString.text, Option.getD_some, List.takeWhile_eq_self_iff]
  intro character member
  have differ : character ≠ 0 := fun zero => printable (zero ▸ valid.2.2 character member)
  simpa using differ

theorem text_of_fieldName {name : List UInt8} (valid : FieldName name) :
    CString.text (some name) = name :=
  text_of_name valid.1 (by decide)

theorem appendAll_spec {event : TraceEvent} {moduleName apiName : List UInt8}
    {before fields : List Field} (encodes : Encodes event moduleName apiName before)
    (valid : ∀ field ∈ fields, field.Valid)
    (distinct : ((before ++ fields).map Field.name).Nodup)
    (fits : event.header.size.toNat + (fields.flatMap Field.bytes).length ≤
      TRACE_MAX_EVENT_BYTES) :
    (∀ accepted ∈ (appendAll event fields).1, accepted = true) ∧
    Encodes (appendAll event fields).2 moduleName apiName (before ++ fields) := by
  induction fields generalizing event before with
  | nil => simpa [appendAll] using encodes
  | cons field fields inductionHypothesis =>
      obtain ⟨validName, validValue⟩ := valid field (by simp)
      have text := text_of_fieldName validName
      rw [List.flatMap_cons, List.length_append] at fits
      have total := field.length_bytes
      have size : (UInt16.ofNat field.value.length).toNat = field.value.length := by
        rw [UInt16.toNat_ofNat']
        simp only [TRACE_MAX_EVENT_BYTES] at fits
        exact Nat.mod_eq_of_lt (by omega)
      have whole : field.value.take (UInt16.ofNat field.value.length).toNat = field.value := by
        rw [size, List.take_length]
      obtain ⟨condition, appended⟩ := appendTraceField_spec encodes field.type (some field.name)
        size.le (whole.symm ▸ validValue)
      have fresh : field.name ∉ before.map Field.name := fun member => by
        rw [List.map_append, List.nodup_append] at distinct
        exact distinct.2.2 _ member _ (by simp) rfl
      have accepted := condition.mpr ⟨text.symm ▸ validName, text.symm ▸ fresh,
        by rw [text, size]; omega⟩
      rw [if_pos accepted, text, whole] at appended
      change Encodes _ moduleName apiName (before ++ [field]) at appended
      have oldSize := encodes.size
      have newSize := appended.size
      rw [contents_snoc, List.length_append] at newSize
      obtain ⟨allAccepted, final⟩ := inductionHypothesis appended
        (fun other member => valid other (List.mem_cons_of_mem _ member)) (by simpa using distinct)
        (by omega)
      refine ⟨?_, by simpa [appendAll] using final⟩
      intro result member
      rcases List.mem_cons.mp member with rfl | later
      · exact accepted
      · exact allAccepted result later

/-- The parser accepts exactly the events that encode something, returns the only
thing they encode, and the encoder rebuilds them from it. -/
theorem parser_accepts_language (event : TraceEvent) (bytesReceived : Nat) (clock : Clock) :
    ((TraceRenderer.ParseTraceEvent event bytesReceived).isSome = true ↔
      event.header.size.toNat = bytesReceived ∧
        ∃ moduleName apiName fields, Encodes event moduleName apiName fields) ∧
    ∀ parsed, TraceRenderer.ParseTraceEvent event bytesReceived = some parsed →
      let fields := parsed.fields.map (fieldOf event.payload)
      let start := InitializeTraceEvent clock (some parsed.moduleName) (some parsed.apiName)
      let rebuilt := appendAll start.2 fields
      (∀ moduleName apiName fields', Encodes event moduleName apiName fields' ↔
        moduleName = parsed.moduleName ∧ apiName = parsed.apiName ∧ fields' = fields) ∧
      start.1 = true ∧ (∀ accepted ∈ rebuilt.1, accepted = true) ∧
      rebuilt.2.header.size = event.header.size ∧
      rebuilt.2.header.fieldCount = event.header.fieldCount ∧
      rebuilt.2.payload.take (event.header.size.toNat - sizeofTraceEventHeader) =
        event.payload.take (event.header.size.toNat - sizeofTraceEventHeader) := by
  refine ⟨⟨fun accepted => ?_, ?_⟩, fun parsed accepted => ?_⟩
  · obtain ⟨parsed, accepted⟩ := Option.isSome_iff_exists.mp accepted
    obtain ⟨received, encodes⟩ := parseTraceEvent_sound accepted
    exact ⟨received, _, _, _, encodes⟩
  · rintro ⟨rfl, moduleName, apiName, fields, encodes⟩
    rw [parseTraceEvent_complete encodes]
    rfl
  · obtain ⟨received, encodes⟩ := parseTraceEvent_sound accepted
    intro fields start rebuilt
    have moduleText := text_of_name encodes.validModuleName (by decide)
    have apiText := text_of_name encodes.validApiName (by decide)
    obtain ⟨condition, started⟩ := initializeTraceEvent_spec clock (some parsed.moduleName)
      (some parsed.apiName)
    rw [moduleText, apiText] at condition started
    have initialized := condition.mpr ⟨encodes.validModuleName, encodes.validApiName⟩
    have empty := started initialized
    have size := encodes.size
    have emptySize := empty.size
    simp only [contents, List.flatMap_nil, List.append_nil, List.length_append] at size emptySize
    obtain ⟨allAccepted, final⟩ := appendAll_spec empty encodes.valid
      (by simpa using encodes.distinct) (by have fits := encodes.fits; omega)
    rw [List.nil_append] at final
    have sameSize : rebuilt.2.header.size.toNat = event.header.size.toNat :=
      final.size.trans encodes.size.symm
    refine ⟨fun moduleName apiName fields' => ⟨fun other => other.unique encodes, ?_⟩, initialized,
      allAccepted, UInt16.toNat_inj.mp sameSize, ?_, ?_⟩
    · rintro ⟨rfl, rfl, rfl⟩
      exact encodes
    · exact UInt16.toNat_inj.mp (final.fieldCount.trans encodes.fieldCount.symm)
    · have payload := final.payload
      rw [sameSize] at payload
      exact payload.trans encodes.payload.symm

end TraceTransport

end ApiScope
