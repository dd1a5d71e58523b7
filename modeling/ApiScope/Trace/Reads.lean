import ApiScope.Library.Logged
import ApiScope.Trace.Parser

/-!
# What the parser reads

`ParseTraceEvent` with the bytes of the event that it looks at, in the order of
the source and as far as the source goes.  Offsets count from the start of the
event object.
-/

namespace ApiScope

open Bytes Logged

namespace TraceRenderer

/-! ## The parser with its reads -/

def IsValidIdentifier.logged (memory : List UInt8) (name length : Nat) (moduleName : Bool) :
    Logged Span Bool :=
  let maximum := if moduleName then TRACE_MAX_MODULE_NAME_BYTES else TRACE_MAX_API_NAME_BYTES
  if length = 0 ∨ maximum < length then pure false
  else allBytes memory (fun character => IsIdentifierCharacter character moduleName) length name

def IsValidFieldName.logged (memory : List UInt8) (name length : Nat) : Logged Span Bool :=
  if length = 0 ∨ TRACE_MAX_FIELD_NAME_BYTES < length then pure false
  else do
    let first ← readByte memory name
    if first < ascii 'a' ∨ ascii 'z' < first then pure false
    else allBytes memory IsFieldNameCharacter (length - 1) (name + 1)

def HasExpectedValueSize.logged (memory : List UInt8) (type : UInt8) (value : Nat)
    (valueSize : UInt16) : Logged Span Bool :=
  if type = TraceFieldPointer ∨ type = TraceFieldUInt64 ∨ type = TraceFieldInt64 then
    pure (valueSize.toNat = 8)
  else if type = TraceFieldUInt32 ∨ type = TraceFieldStatus ∨ type = TraceFieldInt32 then
    pure (valueSize.toNat = 4)
  else if type = TraceFieldBoolean then
    if valueSize.toNat = 1 then do
      let encoded ← readByte memory value
      pure (encoded = 0 ∨ encoded = 1)
    else pure false
  else if type = TraceFieldBytes then
    if valueSize.toNat < sizeofTraceBytesHeader then pure false
    else do
      let header ← readSpan memory value sizeofTraceBytesHeader
      let bytes := TraceBytesHeader.ofBytes header
      pure (bytes.captured.toNat ≤ TRACE_MAX_BUFFER_BYTES ∧ bytes.captured ≤ bytes.requested ∧
        valueSize.toNat = sizeofTraceBytesHeader + bytes.captured.toNat)
  else pure true

def parseField.logged (memory : List UInt8) (stop cursor : Nat)
    (parsedFields : List TraceFieldView) : Logged Span (Option (TraceFieldView × Nat)) :=
  if stop - cursor < sizeofTraceFieldHeader then pure none
  else do
    let bytes ← readSpan memory cursor sizeofTraceFieldHeader
    let header := TraceFieldHeader.ofBytes bytes
    let cursor := cursor + sizeofTraceFieldHeader
    let fieldSize := header.nameLength.toNat + header.valueSize.toNat
    if stop - cursor < fieldSize then pure none
    else do
      let valid ← IsValidFieldName.logged memory cursor header.nameLength.toNat
      if valid then do
        let name ← readSpan memory cursor header.nameLength.toNat
        if parsedFields.any fun existing => existing.name == name then pure none
        else do
          let cursor := cursor + header.nameLength.toNat
          let expected ← HasExpectedValueSize.logged memory header.type cursor header.valueSize
          -- the view counts from the start of the payload
          if expected then
            pure (some (⟨header, name, cursor - sizeofTraceEventHeader⟩,
              cursor + header.valueSize.toNat))
          else pure none
      else pure none

def parseFields.logged (memory : List UInt8) (stop : Nat) :
    Nat → Nat → List TraceFieldView → Logged Span (Option (Nat × List TraceFieldView))
  | 0, cursor, parsedFields => pure (some (cursor, parsedFields))
  | remaining + 1, cursor, parsedFields => do
      match ← parseField.logged memory stop cursor parsedFields with
      | none => pure none
      | some (field, next) =>
          parseFields.logged memory stop remaining next (parsedFields ++ [field])

/-- A number of the event header. -/
def headerWord (event : TraceEvent) (offset width : Nat) : Logged Span Nat := do
  let bytes ← readSpan event.bytes offset width
  pure (ofLittleEndian bytes)

def HeaderMatches.logged (event : TraceEvent) (bytesReceived : Nat) : Logged Span Bool :=
  if bytesReceived < sizeofTraceEventHeader then pure false
  else do
    let magic ← headerWord event 0 4
    if magic ≠ TRACE_EVENT_MAGIC.toNat then pure false
    else do
      let version ← headerWord event 4 2
      if version ≠ TRACE_EVENT_VERSION.toNat then pure false
      else do
        let size ← headerWord event 6 2
        if size ≠ bytesReceived ∨ TRACE_MAX_EVENT_BYTES < size then pure false
        else do
          let moduleNameLength ← headerWord event 28 1
          let apiNameLength ← headerWord event 29 1
          pure (sizeofTraceEventHeader + moduleNameLength + apiNameLength ≤ size)

/-- `ParseTraceEvent` with all result pointers given; without them it reads less. -/
def ParseTraceEvent.logged (event : TraceEvent) (bytesReceived : Nat) :
    Logged Span (Option ParsedEvent) := do
  let accepted ← HeaderMatches.logged event bytesReceived
  if accepted then do
    let cursor := sizeofTraceEventHeader
    let moduleLength ← headerWord event 28 1
    let validModule ← IsValidIdentifier.logged event.bytes cursor moduleLength true
    if validModule then do
      let moduleName ← readSpan event.bytes cursor moduleLength
      let cursor := cursor + moduleLength
      let apiLength ← headerWord event 29 1
      let validApi ← IsValidIdentifier.logged event.bytes cursor apiLength false
      if validApi then do
        let apiName ← readSpan event.bytes cursor apiLength
        let cursor := cursor + apiLength
        let stop ← headerWord event 6 2
        let fieldCount ← headerWord event 10 2
        match ← parseFields.logged event.bytes stop fieldCount cursor [] with
        | none => pure none
        | some (cursor, fields) =>
            if cursor ≠ stop then pure none else pure (some ⟨moduleName, apiName, fields⟩)
      else pure none
    else pure none
  else pure none

/-! ## It is the parser -/

section Value

variable {memory : List UInt8} {event : TraceEvent}

theorem getD_drop (offset : Nat) : (memory.drop offset).getD 0 0 = memory.getD offset 0 := by
  rw [List.getD_eq_getElem?_getD, List.getD_eq_getElem?_getD, List.getElem?_drop, Nat.add_zero]

theorem value_isValidIdentifier {name length : Nat} {moduleName : Bool}
    (inside : name + length ≤ memory.length) :
    (IsValidIdentifier.logged memory name length moduleName).value =
      IsValidIdentifier (memory.drop name) length moduleName := by
  unfold IsValidIdentifier.logged IsValidIdentifier
  dsimp only
  generalize (if moduleName then TRACE_MAX_MODULE_NAME_BYTES else TRACE_MAX_API_NAME_BYTES) =
    maximum
  split_ifs
  · rfl
  · exact value_allBytes inside

theorem value_isValidFieldName {name length : Nat} (inside : name + length ≤ memory.length) :
    (IsValidFieldName.logged memory name length).value =
      IsValidFieldName (memory.drop name) length := by
  unfold IsValidFieldName.logged IsValidFieldName
  rw [getD_drop]
  by_cases outside : length = 0 ∨ TRACE_MAX_FIELD_NAME_BYTES < length
  · rw [if_pos outside, if_pos outside]
    rfl
  · rw [if_neg outside, if_neg outside, value_bind, readByte, value_emit]
    split_ifs
    · rfl
    · rw [value_allBytes (by omega), slice, ← List.drop_drop, List.drop_take]

theorem value_hasExpectedValueSize {type : UInt8} {value : Nat} {valueSize : UInt16} :
    (HasExpectedValueSize.logged memory type value valueSize).value =
      HasExpectedValueSize type (memory.drop value) valueSize := by
  unfold HasExpectedValueSize.logged HasExpectedValueSize
  rw [getD_drop]
  split_ifs with _ _ _ one
  · rfl
  · rfl
  · rw [value_bind, readByte, value_emit, value_pure]
    simp [one]
  · simp [one]
  · rfl
  · rw [value_bind, readSpan, value_emit, value_pure, slice, sizeofTraceBytesHeader,
      TraceBytesHeader.ofBytes_take _ _ le_rfl]
  · rfl

theorem TraceFieldHeader.ofBytes_slice (cursor : Nat) :
    TraceFieldHeader.ofBytes (slice memory cursor sizeofTraceFieldHeader) =
      TraceFieldHeader.ofBytes (memory.drop cursor) := by
  simp (disch := decide) only [TraceFieldHeader.ofBytes, slice, wordAt_take]

end Value

/-- One pass of the field loop, whose offsets the source counts from the header. -/
theorem value_parseField {event : TraceEvent} {stop cursor : Nat}
    {parsedFields : List TraceFieldView} (bounded : stop ≤ event.payload.length)
    (before : cursor ≤ stop) :
    (parseField.logged event.bytes (sizeofTraceEventHeader + stop)
      (sizeofTraceEventHeader + cursor) parsedFields).value =
      (parseField event.payload stop cursor parsedFields).map fun found =>
        (found.1, sizeofTraceEventHeader + found.2) := by
  have sized := event.length_bytes
  have whole := event.payload_length
  simp only [TRACE_MAX_EVENT_BYTES, sizeofTraceEventHeader] at whole
  unfold parseField.logged parseField
  have room : sizeofTraceEventHeader + stop - (sizeofTraceEventHeader + cursor) = stop - cursor := by
    omega
  rw [room]
  by_cases short : stop - cursor < sizeofTraceFieldHeader
  · rw [if_pos short, if_pos short]
    rfl
  rw [if_neg short, if_neg short, value_bind, readSpan, value_emit,
    TraceFieldHeader.ofBytes_slice, event.drop_bytes]
  simp only [sizeofTraceFieldHeader] at short
  set header := TraceFieldHeader.ofBytes (event.payload.drop cursor)
  dsimp only
  have room' : sizeofTraceEventHeader + stop - (sizeofTraceEventHeader + cursor +
      sizeofTraceFieldHeader) = stop - (cursor + sizeofTraceFieldHeader) := by
    omega
  rw [room']
  by_cases large : stop - (cursor + sizeofTraceFieldHeader) <
      header.nameLength.toNat + header.valueSize.toNat
  · rw [if_pos large, if_pos (.inl large)]
    rfl
  have atName : event.bytes.drop (sizeofTraceEventHeader + cursor + sizeofTraceFieldHeader) =
      event.payload.drop (cursor + sizeofTraceFieldHeader) := by
    rw [Nat.add_assoc, event.drop_bytes]
  have atValue : event.bytes.drop (sizeofTraceEventHeader + cursor + sizeofTraceFieldHeader +
      header.nameLength.toNat) =
        event.payload.drop (cursor + sizeofTraceFieldHeader + header.nameLength.toNat) := by
    rw [← List.drop_drop, atName, List.drop_drop]
  have checked := @value_isValidFieldName event.bytes
    (sizeofTraceEventHeader + cursor + sizeofTraceFieldHeader) header.nameLength.toNat
    (by simp only [sizeofTraceEventHeader, sizeofTraceFieldHeader] at large ⊢; omega)
  rw [atName] at checked
  rw [if_neg large, value_bind, checked]
  by_cases valid : IsValidFieldName (event.payload.drop (cursor + sizeofTraceFieldHeader))
      header.nameLength.toNat = true
  · rw [if_pos valid, if_neg (not_or.mpr ⟨large, not_not.mpr valid⟩), value_bind, readSpan,
      value_emit, slice, atName, ← slice]
    by_cases duplicate : (parsedFields.any fun existing => existing.name ==
        slice event.payload (cursor + sizeofTraceFieldHeader) header.nameLength.toNat) = true
    · rw [if_pos duplicate, if_pos duplicate]
      rfl
    rw [if_neg duplicate, if_neg duplicate, value_bind, value_hasExpectedValueSize, atValue]
    by_cases expected : HasExpectedValueSize header.type
        (event.payload.drop (cursor + sizeofTraceFieldHeader + header.nameLength.toNat))
        header.valueSize = true
    · rw [if_pos expected, if_neg (not_not.mpr expected)]
      simp only [value_pure, Option.map_some, Option.some.injEq, Prod.mk.injEq,
        TraceFieldView.mk.injEq, true_and]
      omega
    · rw [if_neg expected, if_pos expected]
      rfl
  · rw [if_neg valid, if_pos (.inr valid)]
    rfl

/-- The cursor stays in front of the end. -/
theorem parseField_next {payload : List UInt8} {stop cursor next : Nat}
    {parsedFields : List TraceFieldView} {field : TraceFieldView}
    (parsed : parseField payload stop cursor parsedFields = some (field, next)) : next ≤ stop := by
  simp only [parseField, Option.ite_none_left_eq_some, not_or, not_lt, Option.some.injEq,
    Prod.mk.injEq] at parsed
  obtain ⟨short, ⟨large, _⟩, _, _, _, rfl⟩ := parsed
  simp only [sizeofTraceFieldHeader] at short large ⊢
  omega

theorem value_parseFields {event : TraceEvent} {stop : Nat} (bounded : stop ≤ event.payload.length)
    {remaining cursor : Nat} {parsedFields : List TraceFieldView} (before : cursor ≤ stop) :
    (parseFields.logged event.bytes (sizeofTraceEventHeader + stop) remaining
      (sizeofTraceEventHeader + cursor) parsedFields).value =
      (parseFields event.payload stop remaining cursor parsedFields).map fun found =>
        (sizeofTraceEventHeader + found.1, found.2) := by
  induction remaining generalizing cursor parsedFields with
  | zero => rfl
  | succ remaining inductionHypothesis =>
      rw [parseFields.logged, value_bind, value_parseField bounded before, parseFields]
      cases first : parseField event.payload stop cursor parsedFields with
      | none => rfl
      | some found => exact inductionHypothesis (parseField_next first)

/-! ## Where it reads -/

section Reads

variable {memory : List UInt8}

theorem all_isValidIdentifier {name length : Nat} {moduleName : Bool} :
    All (Span.Inside name length) (IsValidIdentifier.logged memory name length moduleName) := by
  unfold IsValidIdentifier.logged
  dsimp only
  generalize (if moduleName then TRACE_MAX_MODULE_NAME_BYTES else TRACE_MAX_API_NAME_BYTES) =
    maximum
  split_ifs
  · exact all_pure _
  · exact all_allBytes

theorem all_isValidFieldName {name length : Nat} :
    All (Span.Inside name length) (IsValidFieldName.logged memory name length) := by
  unfold IsValidFieldName.logged
  by_cases outside : length = 0 ∨ TRACE_MAX_FIELD_NAME_BYTES < length
  · rw [if_pos outside]
    exact all_pure _
  · rw [if_neg outside, all_bind]
    refine ⟨all_emit.mpr ⟨le_rfl, by dsimp only; omega⟩, ?_⟩
    split_ifs
    · exact all_pure _
    · exact all_allBytes.mono fun span inside => inside.within _ _ (by omega) (by omega)

/-- A value is read only where its size is known to be enough. -/
theorem all_hasExpectedValueSize {type : UInt8} {value : Nat} {valueSize : UInt16} :
    All (Span.Inside value valueSize.toNat)
      (HasExpectedValueSize.logged memory type value valueSize) := by
  unfold HasExpectedValueSize.logged
  split_ifs with _ _ _ one _ short
  · exact all_pure _
  · exact all_pure _
  · exact all_bind.mpr ⟨all_emit.mpr ⟨le_rfl, by dsimp only; omega⟩, all_pure _⟩
  · exact all_pure _
  · exact all_pure _
  · exact all_bind.mpr ⟨all_emit.mpr ⟨le_rfl, by dsimp only; omega⟩, all_pure _⟩
  · exact all_pure _

/-- One pass of the field loop reads nothing behind the end. -/
theorem all_parseField {stop cursor : Nat} {parsedFields : List TraceFieldView} :
    All (Span.Below stop) (parseField.logged memory stop cursor parsedFields) := by
  have headerSize : sizeofTraceFieldHeader = 4 := rfl
  unfold parseField.logged
  by_cases short : stop - cursor < sizeofTraceFieldHeader
  · rw [if_pos short]
    exact all_pure _
  rw [if_neg short, all_bind, readSpan, value_emit]
  generalize TraceFieldHeader.ofBytes (slice memory cursor sizeofTraceFieldHeader) = header
  refine ⟨all_emit.mpr (show cursor + sizeofTraceFieldHeader ≤ stop by omega), ?_⟩
  dsimp only
  by_cases large : stop - (cursor + sizeofTraceFieldHeader) <
      header.nameLength.toNat + header.valueSize.toNat
  · rw [if_pos large]
    exact all_pure _
  rw [if_neg large, all_bind]
  refine ⟨all_isValidFieldName.mono fun span inside => inside.below (by omega), ?_⟩
  split_ifs
  · have named : cursor + sizeofTraceFieldHeader + header.nameLength.toNat ≤ stop := by omega
    refine all_bind.mpr ⟨all_emit.mpr named, ?_⟩
    split_ifs
    · exact all_pure _
    · refine all_bind.mpr
        ⟨all_hasExpectedValueSize.mono fun span inside => inside.below (by omega), ?_⟩
      split_ifs
      · exact all_pure _
      · exact all_pure _
  · exact all_pure _

end Reads

theorem all_parseFields {event : TraceEvent} {stop : Nat} (bounded : stop ≤ event.payload.length)
    {remaining cursor : Nat} {parsedFields : List TraceFieldView} (before : cursor ≤ stop) :
    All (Span.Below (sizeofTraceEventHeader + stop))
      (parseFields.logged event.bytes (sizeofTraceEventHeader + stop) remaining
        (sizeofTraceEventHeader + cursor) parsedFields) := by
  induction remaining generalizing cursor parsedFields with
  | zero => exact all_pure _
  | succ remaining inductionHypothesis =>
      rw [parseFields.logged, all_bind, value_parseField bounded before]
      refine ⟨all_parseField, ?_⟩
      cases first : parseField event.payload stop cursor parsedFields with
      | none => exact all_pure _
      | some found => exact inductionHypothesis (parseField_next first)

/-! ## The whole parser -/

section Header

variable (event : TraceEvent)

/-- The numbers that the parser takes from the header. -/
theorem value_headerWord :
    (headerWord event 0 4).value = event.header.magic.toNat ∧
    (headerWord event 4 2).value = event.header.version.toNat ∧
    (headerWord event 6 2).value = event.header.size.toNat ∧
    (headerWord event 10 2).value = event.header.fieldCount.toNat ∧
    (headerWord event 28 1).value = event.header.moduleNameLength.toNat ∧
    (headerWord event 29 1).value = event.header.apiNameLength.toNat := by
  have header : TraceEventHeader.ofBytes event.bytes = event.header :=
    event.header.ofBytes_bytes event.payload
  have small := wordAt_lt event.bytes
  have value : ∀ offset width, (headerWord event offset width).value =
      wordAt event.bytes offset width := fun _ _ => rfl
  simp only [value, ← header, TraceEventHeader.ofBytes]
  refine ⟨?_, ?_, ?_, ?_, ?_, ?_⟩
  · exact (Nat.mod_eq_of_lt (small 0 4)).symm
  · exact (Nat.mod_eq_of_lt (small 4 2)).symm
  · exact (Nat.mod_eq_of_lt (small 6 2)).symm
  · exact (Nat.mod_eq_of_lt (small 10 2)).symm
  · exact (Nat.mod_eq_of_lt (small 28 1)).symm
  · exact (Nat.mod_eq_of_lt (small 29 1)).symm

theorem all_headerWord {offset width : Nat} (inside : offset + width ≤ sizeofTraceEventHeader) :
    All (Span.Below sizeofTraceEventHeader) (headerWord event offset width) :=
  all_bind.mpr ⟨all_emit.mpr inside, all_pure _⟩

theorem headerMatches_logged (bytesReceived : Nat) :
    ((HeaderMatches.logged event bytesReceived).value = true ↔
      HeaderMatches event bytesReceived) ∧
    All (Span.Below sizeofTraceEventHeader) (HeaderMatches.logged event bytesReceived) := by
  obtain ⟨magic, version, size, _, moduleLength, apiLength⟩ := value_headerWord event
  have inside := fun offset width => @all_headerWord event offset width
  unfold HeaderMatches.logged
  by_cases short : bytesReceived < sizeofTraceEventHeader
  · rw [if_pos short]
    exact ⟨iff_of_false Bool.false_ne_true fun ok => not_lt.mpr ok.1 short, all_pure _⟩
  rw [if_neg short, value_bind, all_bind, magic]
  by_cases wrongMagic : event.header.magic.toNat ≠ TRACE_EVENT_MAGIC.toNat
  · rw [if_pos wrongMagic]
    refine ⟨iff_of_false Bool.false_ne_true fun ok => wrongMagic ?_, inside _ _ (by decide),
      all_pure _⟩
    rw [ok.2.1]
  rw [if_neg wrongMagic, value_bind, all_bind, version]
  by_cases wrongVersion : event.header.version.toNat ≠ TRACE_EVENT_VERSION.toNat
  · rw [if_pos wrongVersion]
    refine ⟨iff_of_false Bool.false_ne_true fun ok => wrongVersion ?_, inside _ _ (by decide),
      inside _ _ (by decide), all_pure _⟩
    rw [ok.2.2.1]
  rw [if_neg wrongVersion, value_bind, all_bind, size]
  by_cases wrongSize : event.header.size.toNat ≠ bytesReceived ∨
      TRACE_MAX_EVENT_BYTES < event.header.size.toNat
  · rw [if_pos wrongSize]
    refine ⟨iff_of_false Bool.false_ne_true fun ok => ?_, inside _ _ (by decide),
      inside _ _ (by decide), inside _ _ (by decide), all_pure _⟩
    obtain ⟨_, _, _, received, fits, _⟩ := ok
    omega
  rw [if_neg wrongSize, value_bind, value_bind, value_pure, moduleLength, apiLength,
    decide_eq_true_iff]
  constructor
  · refine ⟨fun names => ⟨not_lt.mp short, ?_, ?_, by omega, by omega, names⟩,
      fun ok => ok.2.2.2.2.2⟩
    · exact UInt32.toNat_inj.mp (not_not.mp wrongMagic)
    · exact UInt16.toNat_inj.mp (not_not.mp wrongVersion)
  · refine ⟨inside _ _ (by decide), inside _ _ (by decide), inside _ _ (by decide), ?_⟩
    exact all_bind.mpr ⟨inside _ _ (by decide),
      all_bind.mpr ⟨inside _ _ (by decide), all_pure _⟩⟩

end Header

/-- The bytes of the event: its fixed header, and what its size says. -/
def InEvent (event : TraceEvent) (span : Span) : Prop :=
  span.Below TRACE_MAX_EVENT_BYTES ∧
    (span.Below sizeofTraceEventHeader ∨ span.Below event.header.size.toNat)

theorem InEvent.header {event : TraceEvent} {span : Span}
    (inHeader : span.Below sizeofTraceEventHeader) : InEvent event span :=
  ⟨inHeader.trans (by decide), .inl inHeader⟩

theorem InEvent.below {event : TraceEvent} {span : Span}
    (fits : event.header.size.toNat ≤ TRACE_MAX_EVENT_BYTES)
    (inside : span.Below event.header.size.toNat) : InEvent event span :=
  ⟨inside.trans fits, .inr inside⟩

/-- The parser with its reads is the parser, and it reads the event only. -/
theorem parseTraceEvent_logged (event : TraceEvent) (bytesReceived : Nat) :
    (ParseTraceEvent.logged event bytesReceived).value = ParseTraceEvent event bytesReceived ∧
    All (InEvent event) (ParseTraceEvent.logged event bytesReceived) := by
  obtain ⟨_, _, size, fieldCount, moduleLength, apiLength⟩ := value_headerWord event
  have word : ∀ offset width, offset + width ≤ sizeofTraceEventHeader →
      All (InEvent event) (headerWord event offset width) := fun offset width inside =>
    (all_headerWord event inside).mono fun span => InEvent.header
  obtain ⟨sameHeader, headerReads⟩ := headerMatches_logged event bytesReceived
  have sized := event.length_bytes
  have payloadSize := event.payload_length
  have headerSize : sizeofTraceEventHeader = 32 := rfl
  have whole : TRACE_MAX_EVENT_BYTES = 1024 := rfl
  have start := event.drop_bytes 0
  rw [Nat.add_zero, List.drop_zero] at start
  unfold ParseTraceEvent.logged ParseTraceEvent
  rw [value_bind, all_bind]
  by_cases matches_ : HeaderMatches event bytesReceived
  swap
  · rw [if_neg (fun same => matches_ (sameHeader.mp same)), if_pos matches_]
    exact ⟨rfl, headerReads.mono fun span => InEvent.header, all_pure _⟩
  obtain ⟨_, _, _, received, fits, names⟩ := id matches_
  have within : ∀ {name length : Nat}, name + length ≤ event.header.size.toNat →
      ∀ span, Span.Inside name length span → InEvent event span := fun bound span inside =>
    InEvent.below fits (inside.below bound)
  have span : ∀ {name length : Nat}, name + length ≤ event.header.size.toNat →
      All (InEvent event) (readSpan event.bytes name length) := fun bound =>
    all_emit.mpr (within bound _ ⟨le_rfl, le_rfl⟩)
  rw [if_pos (sameHeader.mpr matches_), if_neg (not_not.mpr matches_)]
  dsimp only
  rw [value_bind, all_bind, moduleLength, value_bind, all_bind,
    value_isValidIdentifier (by omega), start]
  set moduleSize := event.header.moduleNameLength.toNat
  set apiSize := event.header.apiNameLength.toNat
  have moduleReads := (@all_isValidIdentifier event.bytes sizeofTraceEventHeader moduleSize true).mono
    (within (by omega))
  by_cases validModule : IsValidIdentifier event.payload moduleSize true = true
  swap
  · rw [if_neg validModule, if_pos validModule]
    exact ⟨rfl, headerReads.mono fun span => InEvent.header, word _ _ (by decide), moduleReads,
      all_pure _⟩
  rw [if_pos validModule, if_neg (not_not.mpr validModule), value_bind, all_bind, value_bind,
    all_bind, apiLength, value_bind, all_bind, value_isValidIdentifier (by omega),
    event.drop_bytes]
  have apiReads := (@all_isValidIdentifier event.bytes (sizeofTraceEventHeader + moduleSize) apiSize
    false).mono (within (by omega))
  have front : All (InEvent event) (HeaderMatches.logged event bytesReceived) :=
    headerReads.mono fun span => InEvent.header
  by_cases validApi : IsValidIdentifier (event.payload.drop moduleSize) apiSize false = true
  swap
  · rw [if_neg validApi, if_pos validApi]
    exact ⟨rfl, front, word _ _ (by decide), moduleReads, span (by omega), word _ _ (by decide),
      apiReads, all_pure _⟩
  obtain ⟨stop, stopEq⟩ := Nat.exists_eq_add_of_le (show sizeofTraceEventHeader ≤
    event.header.size.toNat by omega)
  rw [if_pos validApi, if_neg (not_not.mpr validApi), value_bind, all_bind, value_bind, all_bind,
    size, value_bind, all_bind, fieldCount, value_bind, all_bind, stopEq, Nat.add_sub_cancel_left,
    Nat.add_assoc sizeofTraceEventHeader, value_parseFields (by omega) (by omega)]
  have loopReads := @all_parseFields event stop (by omega) event.header.fieldCount.toNat
    (moduleSize + apiSize) [] (by omega)
  have names : slice event.bytes sizeofTraceEventHeader moduleSize =
      slice event.payload 0 moduleSize ∧
      slice event.bytes (sizeofTraceEventHeader + moduleSize) apiSize =
        slice event.payload moduleSize apiSize := by
    rw [slice, slice, slice, slice, start, event.drop_bytes, List.drop_zero]
    exact ⟨rfl, rfl⟩
  constructor
  · cases parseFields event.payload stop event.header.fieldCount.toNat (moduleSize + apiSize) [] with
    | none => rfl
    | some found =>
        dsimp only [Option.map_some]
        by_cases ended : found.1 = stop
        · rw [if_neg (not_not.mpr (congrArg _ ended)), if_neg (not_not.mpr ended), value_pure,
            readSpan, value_emit, readSpan, value_emit, names.1, names.2]
        · rw [if_pos (fun same => ended (Nat.add_left_cancel same)), if_pos ended]
          rfl
  · refine ⟨front, word _ _ (by decide), moduleReads, span (by omega), word _ _ (by decide),
      apiReads, span (by omega), word _ _ (by decide), word _ _ (by decide), ?_, ?_⟩
    · exact loopReads.mono fun span inside => InEvent.below fits (stopEq ▸ inside)
    · cases parseFields event.payload stop event.header.fieldCount.toNat (moduleSize + apiSize) []
        with
      | none => exact all_pure _
      | some found =>
          dsimp only [Option.map_some]
          split_ifs
          · exact all_pure _
          · exact all_pure _

end TraceRenderer

end ApiScope
