import ApiScope.Trace.Parser

/-!
# The language of events

An event is a header, a module name, an API name and fields, and nothing else.
`Encodes` says so without reference to any cursor; the parser accepts exactly
the events that encode something, and returns the only thing they encode.
-/

namespace ApiScope

open Bytes

namespace TraceLanguage

/-! ## The grammar -/

def Lowercase (character : UInt8) : Prop := ascii 'a' ≤ character ∧ character ≤ ascii 'z'
def Uppercase (character : UInt8) : Prop := ascii 'A' ≤ character ∧ character ≤ ascii 'Z'
def Digit (character : UInt8) : Prop := ascii '0' ≤ character ∧ character ≤ ascii '9'

def ApiNameCharacter (character : UInt8) : Prop :=
  Lowercase character ∨ Uppercase character ∨ Digit character ∨ character = ascii '_'

def ModuleNameCharacter (character : UInt8) : Prop :=
  ApiNameCharacter character ∨ character = ascii '.' ∨ character = ascii '-'

def FieldNameCharacter (character : UInt8) : Prop :=
  Lowercase character ∨ Digit character ∨ character = ascii '_'

instance : DecidablePred Lowercase := fun _ => inferInstanceAs (Decidable (_ ∧ _))
instance : DecidablePred Uppercase := fun _ => inferInstanceAs (Decidable (_ ∧ _))
instance : DecidablePred Digit := fun _ => inferInstanceAs (Decidable (_ ∧ _))
instance : DecidablePred ApiNameCharacter := fun _ => inferInstanceAs (Decidable (_ ∨ _))
instance : DecidablePred ModuleNameCharacter := fun _ => inferInstanceAs (Decidable (_ ∨ _))
instance : DecidablePred FieldNameCharacter := fun _ => inferInstanceAs (Decidable (_ ∨ _))

/-- One to 63 characters of an alphabet. -/
def NameOver (alphabet : UInt8 → Prop) (name : List UInt8) : Prop :=
  0 < name.length ∧ name.length ≤ 63 ∧ ∀ character ∈ name, alphabet character

def ModuleName : List UInt8 → Prop := NameOver ModuleNameCharacter

def ApiName : List UInt8 → Prop := NameOver ApiNameCharacter

/-- `[a-z][a-z0-9_]*`, at most 63 characters. -/
def FieldName (name : List UInt8) : Prop :=
  NameOver FieldNameCharacter name ∧ ∀ first ∈ name.head?, Lowercase first

/-- A preview: its header and as many bytes as the header says were captured. -/
def BytesValue (value : List UInt8) : Prop :=
  ∃ (header : TraceBytesHeader) (data : List UInt8), value = header.bytes ++ data ∧
    data.length = header.captured.toNat ∧ header.captured.toNat ≤ TRACE_MAX_BUFFER_BYTES ∧
    header.captured ≤ header.requested

/-- What the values of each type look like.  Other types carry any bytes. -/
def ValueOf (type : UInt8) (value : List UInt8) : Prop :=
  (type = TraceFieldPointer ∨ type = TraceFieldUInt64 ∨ type = TraceFieldInt64 →
    value.length = 8) ∧
  (type = TraceFieldUInt32 ∨ type = TraceFieldStatus ∨ type = TraceFieldInt32 →
    value.length = 4) ∧
  (type = TraceFieldBoolean → value = [0] ∨ value = [1]) ∧
  (type = TraceFieldBytes → BytesValue value)

structure Field where
  type : UInt8
  name : List UInt8
  value : List UInt8
  deriving DecidableEq, Repr

namespace Field

def header (field : Field) : TraceFieldHeader :=
  ⟨field.type, .ofNat field.name.length, .ofNat field.value.length⟩

def bytes (field : Field) : List UInt8 := field.header.bytes ++ field.name ++ field.value

def Valid (field : Field) : Prop := FieldName field.name ∧ ValueOf field.type field.value

@[simp]
theorem length_bytes (field : Field) :
    field.bytes.length = 4 + field.name.length + field.value.length := by
  simp [bytes, Nat.add_assoc]

end Field

/-- The bytes of a whole event behind its header. -/
def contents (moduleName apiName : List UInt8) (fields : List Field) : List UInt8 :=
  moduleName ++ apiName ++ fields.flatMap Field.bytes

/-- The event consists of these names and these fields. -/
structure Encodes (event : TraceEvent) (moduleName apiName : List UInt8) (fields : List Field) :
    Prop where
  magic : event.header.magic = TRACE_EVENT_MAGIC
  version : event.header.version = TRACE_EVENT_VERSION
  validModuleName : ModuleName moduleName
  moduleNameLength : event.header.moduleNameLength.toNat = moduleName.length
  validApiName : ApiName apiName
  apiNameLength : event.header.apiNameLength.toNat = apiName.length
  fieldCount : event.header.fieldCount.toNat = fields.length
  valid : ∀ field ∈ fields, field.Valid
  distinct : (fields.map Field.name).Nodup
  size : event.header.size.toNat =
    sizeofTraceEventHeader + (contents moduleName apiName fields).length
  fits : event.header.size.toNat ≤ TRACE_MAX_EVENT_BYTES
  payload : event.payload.take (event.header.size.toNat - sizeofTraceEventHeader) =
    contents moduleName apiName fields

/-! ## The renderer's validators decide the grammar -/

theorem isIdentifierCharacter_true (character : UInt8) :
    TraceRenderer.IsIdentifierCharacter character true = true ↔ ModuleNameCharacter character := by
  simp [TraceRenderer.IsIdentifierCharacter, ModuleNameCharacter, ApiNameCharacter, Lowercase,
    Uppercase, Digit, or_assoc]

theorem isIdentifierCharacter_false (character : UInt8) :
    TraceRenderer.IsIdentifierCharacter character false = true ↔ ApiNameCharacter character := by
  simp [TraceRenderer.IsIdentifierCharacter, ApiNameCharacter, Lowercase, Uppercase, Digit,
    or_assoc]

theorem isFieldNameCharacter_iff (character : UInt8) :
    TraceRenderer.IsFieldNameCharacter character = true ↔ FieldNameCharacter character := by
  simp [TraceRenderer.IsFieldNameCharacter, FieldNameCharacter, Lowercase, Digit, or_assoc]

/-- The common shape of the three validators. -/
theorem nameOver_take_iff {alphabet : UInt8 → Prop} {accepts : UInt8 → Bool}
    (same : ∀ character, accepts character = true ↔ alphabet character) {name : List UInt8}
    {length : Nat} (inside : length ≤ name.length) :
    NameOver alphabet (name.take length) ↔
      ¬(length = 0 ∨ 63 < length) ∧ (name.take length).all accepts = true := by
  simp only [NameOver, List.length_take, min_eq_left inside, List.all_eq_true, same]
  constructor
  · rintro ⟨positive, bounded, all⟩
    exact ⟨by omega, all⟩
  · rintro ⟨bounded, all⟩
    exact ⟨by omega, by omega, all⟩

theorem isValidIdentifier_module {name : List UInt8} {length : Nat}
    (inside : length ≤ name.length) :
    TraceRenderer.IsValidIdentifier name length true = true ↔ ModuleName (name.take length) := by
  rw [ModuleName, nameOver_take_iff isIdentifierCharacter_true inside]
  simp [TraceRenderer.IsValidIdentifier]

theorem isValidIdentifier_api {name : List UInt8} {length : Nat} (inside : length ≤ name.length) :
    TraceRenderer.IsValidIdentifier name length false = true ↔ ApiName (name.take length) := by
  rw [ApiName, nameOver_take_iff isIdentifierCharacter_false inside]
  simp [TraceRenderer.IsValidIdentifier]

theorem Lowercase.fieldNameCharacter {character : UInt8} (lower : Lowercase character) :
    FieldNameCharacter character := .inl lower

theorem fieldName_cons {first : UInt8} {rest : List UInt8} :
    FieldName (first :: rest) ↔
      rest.length + 1 ≤ 63 ∧ Lowercase first ∧ ∀ character ∈ rest, FieldNameCharacter character := by
  simp only [FieldName, NameOver, List.length_cons, List.mem_cons, List.head?_cons,
    Option.mem_some_iff, forall_eq_or_imp, forall_eq']
  constructor
  · rintro ⟨⟨_, bounded, _, all⟩, lower⟩
    exact ⟨bounded, lower, all⟩
  · rintro ⟨bounded, lower, all⟩
    exact ⟨⟨by omega, bounded, lower.fieldNameCharacter, all⟩, lower⟩

theorem not_fieldName_nil : ¬FieldName [] := by
  simp [FieldName, NameOver]

theorem isValidFieldName_iff {name : List UInt8} {length : Nat} (inside : length ≤ name.length) :
    TraceRenderer.IsValidFieldName name length = true ↔ FieldName (name.take length) := by
  cases length with
  | zero => simp [TraceRenderer.IsValidFieldName, not_fieldName_nil]
  | succ length =>
      cases name with
      | nil => simp at inside
      | cons first rest =>
          have short : length ≤ rest.length := by simpa using inside
          rw [List.take_succ_cons, fieldName_cons]
          simp [TraceRenderer.IsValidFieldName, isFieldNameCharacter_iff, Lowercase, short]

theorem bytesValue_take_iff {value : List UInt8} {size : Nat} (inside : size ≤ value.length) :
    BytesValue (value.take size) ↔
      12 ≤ size ∧ (TraceBytesHeader.ofBytes value).captured.toNat ≤ TRACE_MAX_BUFFER_BYTES ∧
      (TraceBytesHeader.ofBytes value).captured ≤ (TraceBytesHeader.ofBytes value).requested ∧
      size = 12 + (TraceBytesHeader.ofBytes value).captured.toNat := by
  constructor
  · rintro ⟨header, data, split, counted, bounded, ordered⟩
    have sizes := congrArg List.length split
    simp only [List.length_take, min_eq_left inside, List.length_append,
      TraceBytesHeader.length_bytes] at sizes
    have same : TraceBytesHeader.ofBytes value = header := by
      rw [← TraceBytesHeader.ofBytes_take value size (by omega), split,
        TraceBytesHeader.ofBytes_bytes]
    rw [same]
    exact ⟨by omega, bounded, ordered, by omega⟩
  · rintro ⟨enough, bounded, ordered, counted⟩
    refine ⟨.ofBytes value, (value.take size).drop 12, ?_, ?_, bounded, ordered⟩
    · rw [TraceBytesHeader.bytes_ofBytes value (by omega)]
      conv_lhs => rw [← List.take_append_drop 12 (value.take size)]
      rw [List.take_take, min_eq_left enough]
    · simp only [List.length_drop, List.length_take, min_eq_left inside]
      omega

theorem booleanValue_take_iff {value : List UInt8} {size : Nat} (inside : size ≤ value.length) :
    (value.take size = [0] ∨ value.take size = [1]) ↔
      size = 1 ∧ (value.getD 0 0 = 0 ∨ value.getD 0 0 = 1) := by
  constructor
  · intro encoded
    have sized : size = 1 := by
      have sizes : (value.take size).length = 1 := by
        rcases encoded with zero | one
        · rw [zero]; rfl
        · rw [one]; rfl
      simpa [inside] using sizes
    subst sized
    obtain _ | ⟨first, rest⟩ := value
    · simp at inside
    · simpa using encoded
  · rintro ⟨rfl, encoded⟩
    obtain _ | ⟨first, rest⟩ := value
    · simp at inside
    · simpa using encoded

theorem hasExpectedValueSize_iff {type : UInt8} {value : List UInt8} {valueSize : UInt16}
    (inside : valueSize.toNat ≤ value.length) :
    TraceRenderer.HasExpectedValueSize type value valueSize = true ↔
      ValueOf type (value.take valueSize.toNat) := by
  have sized : (value.take valueSize.toNat).length = valueSize.toNat := by simpa using inside
  simp only [TraceRenderer.HasExpectedValueSize, ValueOf, sized, booleanValue_take_iff inside,
    bytesValue_take_iff inside]
  split_ifs with words doubles boolean bytes short
  · rcases words with rfl | rfl | rfl <;> simp
  · rcases doubles with rfl | rfl | rfl <;> simp
  · subst boolean
    simp
  · subst bytes
    have enough : ¬12 ≤ valueSize.toNat := by simpa using short
    simp [enough]
  · subst bytes
    have enough : 12 ≤ valueSize.toNat := by simpa using short
    simp [enough]
    exact decide_eq_true_iff
  · exact iff_of_true rfl ⟨fun same => absurd same words, fun same => absurd same doubles,
      fun same => absurd same boolean, fun same => absurd same bytes⟩

/-! ## One field -/

open TraceRenderer

/-- How the parser shows a field that starts at an offset. -/
def viewAt (cursor : Nat) (field : Field) : TraceFieldView :=
  ⟨field.header, field.name, cursor + sizeofTraceFieldHeader + field.name.length⟩

/-- The field behind a view. -/
def fieldOf (payload : List UInt8) (view : TraceFieldView) : Field :=
  ⟨view.header.type, view.name, slice payload view.value view.header.valueSize.toNat⟩

theorem fieldName_length {name : List UInt8} (valid : FieldName name) : name.length < 256 := by
  obtain ⟨⟨_, bounded, _⟩, _⟩ := valid
  omega

theorem Field.nameLength_toNat {field : Field} (valid : field.Valid) :
    field.header.nameLength.toNat = field.name.length := by
  have small := fieldName_length valid.1
  simp [Field.header, UInt8.toNat_ofNat', Nat.mod_eq_of_lt small]

theorem Field.valueSize_toNat {field : Field} (small : field.value.length < 65536) :
    field.header.valueSize.toNat = field.value.length := by
  simp [Field.header, UInt16.toNat_ofNat', Nat.mod_eq_of_lt small]

theorem fieldOf_viewAt {payload rest : List UInt8} {cursor : Nat} {field : Field}
    (small : field.value.length < 65536) (starts : payload.drop cursor = field.bytes ++ rest) :
    fieldOf payload (viewAt cursor field) = field := by
  obtain ⟨type, name, value⟩ := field
  have behind : payload.drop (cursor + sizeofTraceFieldHeader + name.length) = value ++ rest := by
    rw [Nat.add_assoc, ← List.drop_drop, starts, Field.bytes]
    simp [List.drop_append]
  simp only [fieldOf, viewAt, Field.valueSize_toNat small, slice_of_drop_eq behind]
  rfl

/-- What a pass of the loop accepts is a valid field with a new name. -/
theorem parseField_sound {payload : List UInt8} {stop cursor next : Nat}
    {parsed : List TraceFieldView} {view : TraceFieldView} (inside : stop ≤ payload.length)
    (accepted : parseField payload stop cursor parsed = some (view, next)) :
    ∃ field : Field, field.Valid ∧ field.value.length < 65536 ∧ view = viewAt cursor field ∧
      payload.drop cursor = field.bytes ++ payload.drop next ∧
      next = cursor + field.bytes.length ∧ next ≤ stop ∧
      field.name ∉ parsed.map TraceFieldView.name := by
  simp only [parseField, Option.ite_none_left_eq_some, not_or, not_not, Option.some.injEq,
    Prod.mk.injEq] at accepted
  obtain ⟨room, ⟨fits, validName⟩, fresh, validValue, rfl, rfl⟩ := accepted
  simp only [sizeofTraceFieldHeader] at room fits validName fresh validValue ⊢
  set header := TraceFieldHeader.ofBytes (payload.drop cursor) with headerDef
  have nameInside : header.nameLength.toNat ≤ (payload.drop (cursor + 4)).length := by
    rw [List.length_drop]
    omega
  have valueInside : header.valueSize.toNat ≤
      (payload.drop (cursor + 4 + header.nameLength.toNat)).length := by
    rw [List.length_drop]
    omega
  rw [isValidFieldName_iff nameInside] at validName
  rw [hasExpectedValueSize_iff valueInside] at validValue
  have nameLength : (slice payload (cursor + 4) header.nameLength.toNat).length =
      header.nameLength.toNat := by simpa using nameInside
  have valueLength :
      (slice payload (cursor + 4 + header.nameLength.toNat) header.valueSize.toNat).length =
        header.valueSize.toNat := by simpa using valueInside
  refine ⟨⟨header.type, slice payload (cursor + 4) header.nameLength.toNat,
    slice payload (cursor + 4 + header.nameLength.toNat) header.valueSize.toNat⟩,
    ⟨validName, validValue⟩, ?_, ?_, ?_, ?_, ?_, ?_⟩
  · rw [valueLength]
    exact header.valueSize.toNat_lt
  · simp only [viewAt, Field.header, nameLength, valueLength, UInt8.ofNat_toNat,
      UInt16.ofNat_toNat]
    rfl
  · simp only [Field.bytes, Field.header, nameLength, valueLength, UInt8.ofNat_toNat,
      UInt16.ofNat_toNat]
    have start : header.bytes = slice payload cursor 4 := by
      rw [headerDef, TraceFieldHeader.bytes_ofBytes _ (by rw [List.length_drop]; omega), slice]
    rw [show (⟨header.type, header.nameLength, header.valueSize⟩ : TraceFieldHeader).bytes =
      slice payload cursor 4 from start, ← slice_add, Nat.add_assoc cursor, ← slice_add,
      Nat.add_assoc cursor]
    exact drop_eq_slice_append ..
  · rw [Field.length_bytes, nameLength, valueLength]
    omega
  · omega
  · simpa [List.any_eq_true] using fresh

/-- A valid field with a new name is accepted. -/
theorem parseField_complete {payload rest : List UInt8} {stop cursor : Nat}
    {parsed : List TraceFieldView} {field : Field} (valid : field.Valid)
    (small : field.value.length < 65536) (starts : payload.drop cursor = field.bytes ++ rest)
    (fits : cursor + field.bytes.length ≤ stop)
    (fresh : field.name ∉ parsed.map TraceFieldView.name) :
    parseField payload stop cursor parsed =
      some (viewAt cursor field, cursor + field.bytes.length) := by
  have header : TraceFieldHeader.ofBytes (payload.drop cursor) = field.header := by
    rw [starts, Field.bytes, List.append_assoc, List.append_assoc, TraceFieldHeader.ofBytes_bytes]
  have names : payload.drop (cursor + sizeofTraceFieldHeader) =
      field.name ++ (field.value ++ rest) := by
    rw [← List.drop_drop, starts]
    simp [Field.bytes]
  have values : payload.drop (cursor + sizeofTraceFieldHeader + field.name.length) =
      field.value ++ rest := drop_add_of_drop_eq names
  have validName : IsValidFieldName (payload.drop (cursor + sizeofTraceFieldHeader))
      field.name.length = true := by
    rw [names, isValidFieldName_iff (by simp), List.take_left]
    exact valid.1
  have validValue : HasExpectedValueSize field.header.type
      (payload.drop (cursor + sizeofTraceFieldHeader + field.name.length))
      field.header.valueSize = true := by
    have sized := Field.valueSize_toNat small
    rw [values, hasExpectedValueSize_iff (by simp [sized]), sized, List.take_left]
    exact valid.2
  have noMatch : ¬(parsed.any fun existing => existing.name == field.name) = true := by
    simpa [List.any_eq_true] using fresh
  have total := field.length_bytes
  have room : ¬stop - cursor < sizeofTraceFieldHeader := by
    simp only [sizeofTraceFieldHeader]
    omega
  have room' : ¬stop - (cursor + sizeofTraceFieldHeader) <
      field.name.length + field.value.length := by
    simp only [sizeofTraceFieldHeader]
    omega
  have next : cursor + sizeofTraceFieldHeader + field.name.length + field.value.length =
      cursor + field.bytes.length := by
    simp only [sizeofTraceFieldHeader]
    omega
  simp only [parseField, header, Field.nameLength_toNat valid, Field.valueSize_toNat small,
    slice_of_drop_eq names, validName, validValue, noMatch, room, room', next, not_true_eq_false,
    or_self, if_false, viewAt]
  rfl

/-! ## All fields -/

/-- The views of consecutive fields. -/
def viewsFrom : Nat → List Field → List TraceFieldView
  | _, [] => []
  | cursor, field :: fields => viewAt cursor field :: viewsFrom (cursor + field.bytes.length) fields

@[simp]
theorem names_viewsFrom (cursor : Nat) (fields : List Field) :
    (viewsFrom cursor fields).map TraceFieldView.name = fields.map Field.name := by
  induction fields generalizing cursor with
  | nil => rfl
  | cons field fields inductionHypothesis =>
      simp [viewsFrom, viewAt, inductionHypothesis]

theorem fieldOf_viewsFrom {payload rest : List UInt8} {cursor : Nat} {fields : List Field}
    (small : ∀ field ∈ fields, field.value.length < 65536)
    (starts : payload.drop cursor = fields.flatMap Field.bytes ++ rest) :
    (viewsFrom cursor fields).map (fieldOf payload) = fields := by
  induction fields generalizing cursor with
  | nil => rfl
  | cons field fields inductionHypothesis =>
      rw [List.flatMap_cons, List.append_assoc] at starts
      rw [viewsFrom, List.map_cons, fieldOf_viewAt (small field (by simp)) starts,
        inductionHypothesis (fun other member => small other (List.mem_cons_of_mem _ member))
          (drop_add_of_drop_eq starts)]

/-- What the loop accepts is a list of valid fields with new, distinct names. -/
theorem parseFields_sound {payload : List UInt8} {stop count cursor last : Nat}
    {parsed views : List TraceFieldView} (inside : stop ≤ payload.length)
    (accepted : parseFields payload stop count cursor parsed = some (last, views))
    (distinct : (parsed.map TraceFieldView.name).Nodup) :
    ∃ fields : List Field, fields.length = count ∧ views = parsed ++ viewsFrom cursor fields ∧
      payload.drop cursor = fields.flatMap Field.bytes ++ payload.drop last ∧
      last = cursor + (fields.flatMap Field.bytes).length ∧
      (∀ field ∈ fields, field.Valid ∧ field.value.length < 65536) ∧
      (views.map TraceFieldView.name).Nodup := by
  induction count generalizing cursor parsed with
  | zero =>
      simp only [parseFields, Option.some.injEq, Prod.mk.injEq] at accepted
      obtain ⟨rfl, rfl⟩ := accepted
      exact ⟨[], rfl, by simp [viewsFrom], by simp, by simp, by simp, distinct⟩
  | succ count inductionHypothesis =>
      rw [parseFields] at accepted
      cases first : parseField payload stop cursor parsed with
      | none => simp [first] at accepted
      | some result =>
          obtain ⟨view, next⟩ := result
          rw [first] at accepted
          obtain ⟨field, valid, small, rfl, starts, rfl, _, fresh⟩ := parseField_sound inside first
          have stillDistinct : ((parsed ++ [viewAt cursor field]).map TraceFieldView.name).Nodup := by
            rw [List.map_append, List.nodup_append]
            refine ⟨distinct, by simp, ?_⟩
            intro name member other otherMember same
            have isNew : other = field.name := by simpa [viewAt] using otherMember
            exact fresh (isNew ▸ same ▸ member)
          obtain ⟨fields, counted, rfl, tail, rfl, allValid, allDistinct⟩ :=
            inductionHypothesis accepted stillDistinct
          refine ⟨field :: fields, by simp [counted], by simp [viewsFrom], ?_, ?_, ?_, ?_⟩
          · rw [starts, tail, List.flatMap_cons, List.append_assoc]
          · simp only [List.flatMap_cons, List.length_append]
            omega
          · intro other member
            rcases List.mem_cons.mp member with rfl | later
            · exact ⟨valid, small⟩
            · exact allValid other later
          · simpa [viewsFrom] using allDistinct

/-- The encoding of valid fields with new, distinct names is accepted. -/
theorem parseFields_complete {payload rest : List UInt8} {stop cursor : Nat}
    {parsed : List TraceFieldView} {fields : List Field}
    (valid : ∀ field ∈ fields, field.Valid ∧ field.value.length < 65536)
    (starts : payload.drop cursor = fields.flatMap Field.bytes ++ rest)
    (fits : cursor + (fields.flatMap Field.bytes).length ≤ stop)
    (distinct : (parsed.map TraceFieldView.name ++ fields.map Field.name).Nodup) :
    parseFields payload stop fields.length cursor parsed =
      some (cursor + (fields.flatMap Field.bytes).length, parsed ++ viewsFrom cursor fields) := by
  induction fields generalizing cursor parsed with
  | nil => simp [parseFields, viewsFrom]
  | cons field fields inductionHypothesis =>
      rw [List.flatMap_cons, List.append_assoc] at starts
      rw [List.flatMap_cons, List.length_append] at fits
      have fresh : field.name ∉ parsed.map TraceFieldView.name := fun member =>
        (List.nodup_append.mp distinct).2.2 _ member _ (by simp) rfl
      obtain ⟨validField, small⟩ := valid field (by simp)
      have first : parseField payload stop cursor parsed = some _ :=
        parseField_complete validField small starts (by omega) fresh
      have later := @inductionHypothesis (cursor + field.bytes.length)
        (parsed ++ [viewAt cursor field])
        (fun other member => valid other (List.mem_cons_of_mem _ member))
        (drop_add_of_drop_eq starts) (by omega) (by simpa [viewAt] using distinct)
      rw [List.length_cons, parseFields, first]
      simp only [later, List.flatMap_cons, List.length_append, viewsFrom, List.append_assoc,
        List.singleton_append, Nat.add_assoc]

/-! ## Whole events -/

theorem contents_snoc (moduleName apiName : List UInt8) (fields : List Field) (field : Field) :
    contents moduleName apiName (fields ++ [field]) =
      contents moduleName apiName fields ++ field.bytes := by
  simp [contents]

theorem Encodes.small {event : TraceEvent} {moduleName apiName : List UInt8} {fields : List Field}
    (encodes : Encodes event moduleName apiName fields) :
    ∀ field ∈ fields, field.value.length < 65536 := by
  intro field member
  have part : field.bytes.length ≤ (fields.flatMap Field.bytes).length :=
    (List.sublist_flatten_of_mem (List.mem_map_of_mem member)).length_le
  have size := encodes.size
  have fits := encodes.fits
  rw [Field.length_bytes] at part
  simp only [contents, List.length_append, TRACE_MAX_EVENT_BYTES] at size fits
  omega

/-- The payload, cut where the names and the fields end. -/
theorem Encodes.payload_eq {event : TraceEvent} {moduleName apiName : List UInt8}
    {fields : List Field} (encodes : Encodes event moduleName apiName fields) :
    event.payload = moduleName ++ (apiName ++ (fields.flatMap Field.bytes ++
      event.payload.drop (event.header.size.toNat - sizeofTraceEventHeader))) := by
  conv_lhs => rw [← List.take_append_drop
    (event.header.size.toNat - sizeofTraceEventHeader) event.payload, encodes.payload]
  simp [contents]

/-- The fields lie behind the two names. -/
theorem Encodes.drop_names {event : TraceEvent} {moduleName apiName : List UInt8}
    {fields : List Field} (encodes : Encodes event moduleName apiName fields) :
    event.payload.drop (moduleName.length + apiName.length) =
      fields.flatMap Field.bytes ++
        event.payload.drop (event.header.size.toNat - sizeofTraceEventHeader) := by
  have atModule : event.payload.drop 0 = moduleName ++ _ := encodes.payload_eq
  have atApi := drop_add_of_drop_eq atModule
  rw [Nat.zero_add] at atApi
  exact drop_add_of_drop_eq atApi

theorem Encodes.fieldOf_views {event : TraceEvent} {moduleName apiName : List UInt8}
    {fields : List Field} (encodes : Encodes event moduleName apiName fields) :
    (viewsFrom (moduleName.length + apiName.length) fields).map (fieldOf event.payload) =
      fields :=
  fieldOf_viewsFrom encodes.small encodes.drop_names

/-- What the parser returns is what the event encodes. -/
theorem parseTraceEvent_sound {event : TraceEvent} {bytesReceived : Nat} {parsed : ParsedEvent}
    (accepted : ParseTraceEvent event bytesReceived = some parsed) :
    event.header.size.toNat = bytesReceived ∧
    Encodes event parsed.moduleName parsed.apiName
      (parsed.fields.map (fieldOf event.payload)) := by
  simp only [ParseTraceEvent, Option.ite_none_left_eq_some, not_not] at accepted
  obtain ⟨⟨_, magic, version, received, fits, names⟩, validModule, validApi, rest⟩ := accepted
  have sized := event.payload_length
  have headerSize : sizeofTraceEventHeader = 32 := rfl
  simp only [TRACE_MAX_EVENT_BYTES] at fits sized
  set moduleLength := event.header.moduleNameLength.toNat
  set apiLength := event.header.apiNameLength.toNat
  cases loop : parseFields event.payload (event.header.size.toNat - sizeofTraceEventHeader)
      event.header.fieldCount.toNat (moduleLength + apiLength) [] with
  | none =>
      rw [loop] at rest
      cases rest
  | some result =>
      obtain ⟨last, views⟩ := result
      simp only [loop, Option.ite_none_left_eq_some, not_not, Option.some.injEq] at rest
      obtain ⟨rfl, rfl⟩ := rest
      obtain ⟨fields, counted, rfl, starts, total, valid, distinct⟩ :=
        parseFields_sound (by omega) loop (by simp)
      rw [isValidIdentifier_module (by omega)] at validModule
      rw [isValidIdentifier_api (by rw [List.length_drop]; omega)] at validApi
      have recovered : (([] ++ viewsFrom (moduleLength + apiLength) fields).map
          (fieldOf event.payload)) = fields :=
        fieldOf_viewsFrom (fun field member => (valid field member).2) starts
      have nameBytes : slice event.payload 0 moduleLength ++
          slice event.payload moduleLength apiLength =
            event.payload.take (moduleLength + apiLength) := by
        simpa [slice] using (slice_add event.payload 0 moduleLength apiLength).symm
      have lengths : (slice event.payload 0 moduleLength).length = moduleLength ∧
          (slice event.payload moduleLength apiLength).length = apiLength := by
        simp only [length_slice]
        omega
      have whole : (contents (slice event.payload 0 moduleLength)
          (slice event.payload moduleLength apiLength) fields).length =
            event.header.size.toNat - sizeofTraceEventHeader := by
        simp only [contents, List.length_append, lengths]
        omega
      refine ⟨received, ?_⟩
      rw [recovered]
      exact {
        magic := magic
        version := version
        validModuleName := by simpa [slice] using validModule
        moduleNameLength := lengths.1.symm
        validApiName := validApi
        apiNameLength := lengths.2.symm
        fieldCount := counted.symm
        valid := fun field member => (valid field member).1
        distinct := by simpa using distinct
        size := by rw [whole]; omega
        fits := fits
        payload := by
          rw [contents, nameBytes, total, List.take_add, starts, List.take_left] }

/-- An event that encodes something is accepted, and that is what the parser returns. -/
theorem parseTraceEvent_complete {event : TraceEvent} {moduleName apiName : List UInt8}
    {fields : List Field} (encodes : Encodes event moduleName apiName fields) :
    ParseTraceEvent event event.header.size.toNat =
      some ⟨moduleName, apiName, viewsFrom (moduleName.length + apiName.length) fields⟩ := by
  have small := encodes.small
  have parts := encodes.payload_eq
  have atFields := encodes.drop_names
  obtain ⟨magic, version, validModule, moduleLength, validApi, apiLength, counted, valid, distinct,
    size, fits, _⟩ := encodes
  have headerSize : sizeofTraceEventHeader = 32 := rfl
  have whole := event.payload_length
  simp only [TRACE_MAX_EVENT_BYTES] at fits whole
  simp only [contents, List.length_append] at size
  have atModule : event.payload.drop 0 = moduleName ++ _ := parts
  have atApi := drop_add_of_drop_eq atModule
  rw [Nat.zero_add] at atApi
  have matches_ : HeaderMatches event event.header.size.toNat :=
    ⟨by omega, magic, version, rfl, fits, by omega⟩
  have moduleAccepted : IsValidIdentifier event.payload moduleName.length true = true := by
    rw [isValidIdentifier_module (by omega), parts, List.take_left]
    exact validModule
  have apiAccepted :
      IsValidIdentifier (event.payload.drop moduleName.length) apiName.length false = true := by
    rw [isValidIdentifier_api (by rw [List.length_drop]; omega), atApi, List.take_left]
    exact validApi
  have loop : parseFields event.payload (event.header.size.toNat - sizeofTraceEventHeader)
      fields.length (moduleName.length + apiName.length) [] = some _ :=
    parseFields_complete (fun field member => ⟨valid field member, small field member⟩) atFields
      (by omega) (by simpa using distinct)
  have ends : moduleName.length + apiName.length + (fields.flatMap Field.bytes).length =
      event.header.size.toNat - sizeofTraceEventHeader := by omega
  simp only [ParseTraceEvent, matches_, not_true_eq_false, if_false, moduleLength, apiLength,
    moduleAccepted, apiAccepted, counted, loop, ends, ne_eq, slice_of_drop_eq atModule,
    slice_of_drop_eq atApi, List.nil_append]

/-- Nothing encodes two different things. -/
theorem Encodes.unique {event : TraceEvent} {moduleName moduleName' apiName apiName' : List UInt8}
    {fields fields' : List Field} (first : Encodes event moduleName apiName fields)
    (second : Encodes event moduleName' apiName' fields') :
    moduleName = moduleName' ∧ apiName = apiName' ∧ fields = fields' := by
  have parsed := (parseTraceEvent_complete first).symm.trans (parseTraceEvent_complete second)
  simp only [Option.some.injEq, ParsedEvent.mk.injEq] at parsed
  obtain ⟨sameModule, sameApi, sameViews⟩ := parsed
  refine ⟨sameModule, sameApi, ?_⟩
  rw [← first.fieldOf_views, ← second.fieldOf_views, sameViews]

end TraceLanguage

end ApiScope
