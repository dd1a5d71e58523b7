import ApiScope.Library.Logged
import ApiScope.Ring.Machine
import ApiScope.Trace.RoundTrip

/-!
# Calls that are rejected

A field that `AppendTraceField` rejects leaves nothing but a flag behind, and the
walk over the fields that came before it stays inside the event although it
checks no bound.
-/

namespace ApiScope

open Bytes Logged TraceLanguage

/-! ## What a call changes -/

/-- The flags take the two bytes behind the first eight. -/
theorem TraceEventHeader.exists_flags (header : TraceEventHeader) :
    ∃ front back, front.length = 8 ∧ ∀ flags,
      ({ header with flags := flags } : TraceEventHeader).bytes =
        front ++ littleEndian 2 flags.toNat ++ back := by
  refine ⟨littleEndian 4 header.magic.toNat ++ littleEndian 2 header.version.toNat ++
      littleEndian 2 header.size.toNat,
    littleEndian 2 header.fieldCount.toNat ++ littleEndian 4 header.sequence.toNat ++
      littleEndian 8 header.timestamp100ns.toNat ++ littleEndian 4 header.threadId.toNat ++
      littleEndian 1 header.moduleNameLength.toNat ++ littleEndian 1 header.apiNameLength.toNat ++
      littleEndian 1 header.reserved.1.toNat ++ littleEndian 1 header.reserved.2.toNat,
    by simp, fun flags => ?_⟩
  simp only [TraceEventHeader.bytes, List.append_assoc]

namespace TraceTransport

/-- Raising a flag changes nothing but the two bytes of the flags. -/
theorem bytes_raise (event : TraceEvent) (flag : UInt16) {index : Nat}
    (elsewhere : index < 8 ∨ 10 ≤ index) :
    (event.raise flag).bytes[index]? = event.bytes[index]? := by
  obtain ⟨front, back, sized, bytes⟩ := event.header.exists_flags
  have whole : ∀ flags,
      (({ event.header with flags := flags } : TraceEventHeader).bytes ++ event.payload)[index]? =
        if index < 8 then front[index]? else (back ++ event.payload)[index - 10]? := by
    intro flags
    rw [bytes, List.append_assoc, List.append_assoc]
    rcases elsewhere with before | behind
    · rw [if_pos before, List.getElem?_append_left (by omega)]
    · rw [if_neg (by omega), List.getElem?_append_right (by omega),
        List.getElem?_append_right (by rw [length_littleEndian]; omega), length_littleEndian, sized,
        Nat.sub_sub]
  exact (whole _).trans (whole event.header.flags).symm

/-- A valid field with a new name that has no room. -/
def Overflows (event : TraceEvent) (fields : List Field) (field : Field) : Prop :=
  FieldName field.name ∧ field.name ∉ fields.map Field.name ∧
    TRACE_MAX_EVENT_BYTES < event.header.size.toNat + field.bytes.length

section Frame

variable {event : TraceEvent} {moduleName apiName : List UInt8} {fields : List Field}
  {type : UInt8} {name : CString} {value : List UInt8} {valueSize : UInt16}

/-- A rejected field raises one flag and does nothing else. -/
theorem appendTraceField_rejected (encodes : Encodes event moduleName apiName fields)
    (enough : valueSize.toNat ≤ value.length)
    (rejected : (AppendTraceField event type name (some value) valueSize).1 = false) :
    (Overflows event fields ⟨type, name.text, value.take valueSize.toNat⟩ →
      (AppendTraceField event type name (some value) valueSize).2 =
        event.raise TraceEventFlagTruncated) ∧
    (¬Overflows event fields ⟨type, name.text, value.take valueSize.toNat⟩ →
      (AppendTraceField event type name (some value) valueSize).2 =
        event.raise TraceEventFlagFieldError) := by
  have sized : (value.take valueSize.toNat).length = valueSize.toNat := by simpa using enough
  unfold Overflows
  rw [Field.length_bytes, sized]
  simp only [AppendTraceField, encodes_canAppend encodes, not_true_eq_false, if_false]
    at rejected ⊢
  cases validated : IsValidFieldName name with
  | none =>
      refine ⟨fun overflows => ?_, fun _ => rfl⟩
      rw [isValidFieldName_iff.mpr ⟨overflows.1, rfl⟩] at validated
      cases validated
  | some nameLength =>
      obtain ⟨valid, rfl⟩ := isValidFieldName_iff.mp validated
      have counted := toNat_textLength (fieldName_length valid)
      have present := hasTraceField_event_iff encodes counted (take_text name)
      simp only [validated, counted] at rejected ⊢
      by_cases duplicate : HasTraceField event (name.getD []) (.ofNat name.text.length) = true
      · rw [if_pos duplicate]
        exact ⟨fun overflows => absurd (present.mp duplicate) overflows.2.1, fun _ => rfl⟩
      · rw [if_neg duplicate] at rejected ⊢
        split_ifs at rejected ⊢ with full
        refine ⟨fun _ => rfl, fun fits => absurd ⟨valid, ?_, full⟩ fits⟩
        exact fun member => duplicate (present.mpr member)

/-- An accepted field leaves the flags and everything in front of it alone. -/
theorem appendTraceField_accepted (encodes : Encodes event moduleName apiName fields)
    (accepted : (AppendTraceField event type name (some value) valueSize).1 = true) :
    (∃ size fieldCount, (AppendTraceField event type name (some value) valueSize).2.header =
        { event.header with size := size, fieldCount := fieldCount }) ∧
      (AppendTraceField event type name (some value) valueSize).2.payload.take
          (event.header.size.toNat - sizeofTraceEventHeader) =
        event.payload.take (event.header.size.toNat - sizeofTraceEventHeader) := by
  simp only [AppendTraceField, encodes_canAppend encodes, not_true_eq_false, if_false]
    at accepted ⊢
  cases validated : IsValidFieldName name with
  | none => simp [validated] at accepted
  | some nameLength =>
      simp only [validated] at accepted ⊢
      split_ifs at accepted ⊢
      refine ⟨⟨_, _, rfl⟩, ?_⟩
      simp only [withField, TraceEvent.write]
      rw [take_overwrite_of_le _ _ _ (by omega), take_overwrite_of_le _ _ _ (by omega),
        take_overwrite_of_le _ _ _ (by omega)]

end Frame

/-! ## The walk over the fields -/

/-- `HasTraceField` with the spans of the event that it reads. -/
def walkFields (event name : List UInt8) (nameLength : UInt8) : Nat → Nat → Logged Span Bool
  | 0, _ => pure false
  | remaining + 1, cursor => do
      let bytes ← readSpan event cursor sizeofTraceFieldHeader
      let field := TraceFieldHeader.ofBytes bytes
      let cursor := cursor + sizeofTraceFieldHeader
      let next := cursor + (field.nameLength.toNat + field.valueSize.toNat)
      if field.nameLength = nameLength then
        let same ← equalBytes event (name.take nameLength.toNat) cursor
        if same then pure true else walkFields event name nameLength remaining next
      else walkFields event name nameLength remaining next

def HasTraceField.walk (event : TraceEvent) (name : List UInt8) (nameLength : UInt8) :
    Logged Span Bool :=
  walkFields event.bytes name nameLength event.header.fieldCount.toNat
    (sizeofTraceEventHeader + TraceNameBytes event)

/-- What the walk finds where a field starts: its header, and the next field
behind it. -/
theorem fieldHeader_at {event rest : List UInt8} {cursor : Nat} {field : Field}
    (valid : field.Valid) (small : field.value.length < 65536)
    (starts : event.drop cursor = field.bytes ++ rest) :
    TraceFieldHeader.ofBytes (slice event cursor sizeofTraceFieldHeader) = field.header ∧
      cursor + sizeofTraceFieldHeader +
        (field.header.nameLength.toNat + field.header.valueSize.toNat) =
          cursor + field.bytes.length := by
  constructor
  · have piece : event.drop cursor = field.header.bytes ++ (field.name ++ field.value ++ rest) := by
      rw [starts, Field.bytes]
      simp only [List.append_assoc]
    have found := slice_of_drop_eq piece
    rw [TraceFieldHeader.length_bytes] at found
    rw [sizeofTraceFieldHeader, found]
    simpa using field.header.ofBytes_bytes []
  · rw [Field.nameLength_toNat valid, Field.valueSize_toNat small, Field.length_bytes,
      sizeofTraceFieldHeader]
    omega

/-- The walk stays inside consecutive fields. -/
theorem all_walkFields {event name rest : List UInt8} {nameLength : UInt8} {cursor : Nat}
    {fields : List Field} (valid : ∀ field ∈ fields, field.Valid ∧ field.value.length < 65536)
    (starts : event.drop cursor = fields.flatMap Field.bytes ++ rest) :
    All (Span.Inside cursor (fields.flatMap Field.bytes).length)
      (walkFields event name nameLength fields.length cursor) := by
  induction fields generalizing cursor with
  | nil => exact all_pure _
  | cons field fields inductionHypothesis =>
      rw [List.flatMap_cons, List.append_assoc] at starts
      obtain ⟨validField, small⟩ := valid field (by simp)
      obtain ⟨header, next⟩ := fieldHeader_at validField small starts
      have total := field.length_bytes
      have later := inductionHypothesis
        (fun other member => valid other (List.mem_cons_of_mem _ member))
        (drop_add_of_drop_eq starts)
      rw [List.flatMap_cons, List.length_append]
      have behind := later.mono fun span inside =>
        inside.within cursor (field.bytes.length + (fields.flatMap Field.bytes).length) (by omega)
          (by omega)
      simp only [List.length_cons, walkFields, all_bind, readSpan, value_emit, header, next]
      refine ⟨all_emit.mpr ⟨le_rfl, ?_⟩, ?_⟩
      · simp only [sizeofTraceFieldHeader]
        omega
      split_ifs with sameLength
      · refine all_bind.mpr ⟨all_equalBytes.mono fun span inside => inside.within _ _ ?_ ?_, ?_⟩
        · omega
        · have counted := congrArg UInt8.toNat sameLength
          rw [Field.nameLength_toNat validField] at counted
          simp only [List.length_take, sizeofTraceFieldHeader]
          omega
        · split_ifs
          · exact all_pure _
          · exact behind
      · exact behind

/-- The walk with its reads finds what the walk of the encoder's model finds. -/
theorem value_walkFields {event name rest : List UInt8} {nameLength : UInt8} {cursor : Nat}
    {fields : List Field} (valid : ∀ field ∈ fields, field.Valid ∧ field.value.length < 65536)
    (named : nameLength.toNat ≤ name.length)
    (starts : event.drop cursor = fields.flatMap Field.bytes ++ rest) :
    (walkFields event name nameLength fields.length cursor).value =
      hasTraceField event name nameLength fields.length cursor := by
  induction fields generalizing cursor with
  | nil => rfl
  | cons field fields inductionHypothesis =>
      rw [List.flatMap_cons, List.append_assoc] at starts
      obtain ⟨validField, small⟩ := valid field (by simp)
      obtain ⟨header, next⟩ := fieldHeader_at validField small starts
      have later := inductionHypothesis
        (fun other member => valid other (List.mem_cons_of_mem _ member))
        (drop_add_of_drop_eq starts)
      have header' : TraceFieldHeader.ofBytes (event.drop cursor) = field.header := by
        rw [starts, Field.bytes, List.append_assoc, List.append_assoc,
          TraceFieldHeader.ofBytes_bytes]
      simp only [List.length_cons, walkFields, hasTraceField, value_bind, readSpan, value_emit,
        header, header', next, ← later]
      by_cases sameLength : field.header.nameLength = nameLength
      · have inside : cursor + sizeofTraceFieldHeader + (name.take nameLength.toNat).length ≤
            event.length := by
          have sizes := congrArg List.length starts
          have total := field.length_bytes
          have counted := congrArg UInt8.toNat sameLength
          rw [Field.nameLength_toNat validField] at counted
          simp only [List.length_drop, List.length_append] at sizes
          simp only [List.length_take, sizeofTraceFieldHeader]
          omega
        have compared := value_equalBytes inside
        rw [List.length_take, min_eq_left named] at compared
        simp only [sameLength, true_and, if_true, value_bind, ← compared]
        split_ifs <;> rfl
      · simp only [sameLength, false_and, if_false]

section Walk

variable {event : TraceEvent} {moduleName apiName : List UInt8} {fields : List Field}
  {name : List UInt8} {nameLength : UInt8}

/-- Where the walk starts. -/
theorem drop_bytes_names (encodes : Encodes event moduleName apiName fields) :
    event.bytes.drop (sizeofTraceEventHeader + TraceNameBytes event) =
      fields.flatMap Field.bytes ++
        event.payload.drop (event.header.size.toNat - sizeofTraceEventHeader) := by
  rw [event.drop_bytes, TraceNameBytes, encodes.moduleNameLength, encodes.apiNameLength,
    encodes.drop_names]

theorem all_walk (encodes : Encodes event moduleName apiName fields) :
    All (Span.Below event.header.size.toNat) (HasTraceField.walk event name nameLength) := by
  rw [HasTraceField.walk, encodes.fieldCount]
  have inside := @all_walkFields event.bytes name _ nameLength _ fields
    (fun field member => ⟨encodes.valid field member, encodes.small field member⟩)
    (drop_bytes_names encodes)
  refine inside.mono fun span within => within.below ?_
  rw [encodes.size, TraceNameBytes, encodes.moduleNameLength, encodes.apiNameLength, contents,
    List.length_append, List.length_append]
  omega

theorem value_walk (encodes : Encodes event moduleName apiName fields)
    (named : nameLength.toNat ≤ name.length) :
    (HasTraceField.walk event name nameLength).value = HasTraceField event name nameLength := by
  have valid : ∀ field ∈ fields, field.Valid ∧ field.value.length < 65536 :=
    fun field member => ⟨encodes.valid field member, encodes.small field member⟩
  have walked := value_walkFields valid named (drop_bytes_names encodes)
  have behindHeader : ∀ remaining cursor,
      hasTraceField event.bytes name nameLength remaining (sizeofTraceEventHeader + cursor) =
        hasTraceField event.payload name nameLength remaining cursor := by
    intro remaining
    induction remaining with
    | zero => exact fun _ => rfl
    | succ remaining inductionHypothesis =>
        intro cursor
        simp only [hasTraceField, slice, Nat.add_assoc, event.drop_bytes, inductionHypothesis]
  rw [HasTraceField.walk, HasTraceField, encodes.fieldCount, walked, behindHeader]

end Walk

/-! ## Events that were never started -/

/-- A call on an event that is not one only raises a flag. -/
theorem addCall_of_not_canAppend {event : TraceEvent} (broken : ¬CanAppend event)
    (call : AddCall) : call.run event = (false, event.raise TraceEventFlagFieldError) := by
  obtain ⟨type, name, value, valueSize, _, _, _, appends⟩ := call.exists_append
  rw [appends]
  simp only [AppendTraceField, broken, not_false_eq_true, if_true]

theorem addAll_of_magic_ne {event : TraceEvent} (broken : event.header.magic ≠ TRACE_EVENT_MAGIC)
    (calls : List AddCall) :
    (addAll event calls).2.header.magic ≠ TRACE_EVENT_MAGIC := by
  induction calls generalizing event with
  | nil => exact broken
  | cons call calls inductionHypothesis =>
      have raised := addCall_of_not_canAppend (fun can => broken can.1) call
      simp only [addAll, raised]
      exact inductionHypothesis broken

/-- A start that fails leaves zeros and a flag. -/
theorem initializeTraceEvent_failed {clock : Clock} {moduleName apiName : CString}
    (failed : (InitializeTraceEvent clock moduleName apiName).1 = false) :
    (InitializeTraceEvent clock moduleName apiName).2 =
      TraceEvent.zero.raise TraceEventFlagFieldError := by
  unfold InitializeTraceEvent at failed ⊢
  split at failed
  · cases failed
  · rfl

/-! ## Every run of the encoder -/

/-- What a further call does to an event with the given fields. -/
def LeavesIntact (event : TraceEvent) (fields : List Field) (call : AddCall) : Prop :=
  ((call.run event).1 = false →
    (∀ index, index < 8 ∨ 10 ≤ index → (call.run event).2.bytes[index]? = event.bytes[index]?) ∧
    (Overflows event fields call.field →
      (call.run event).2 = event.raise TraceEventFlagTruncated) ∧
    (¬Overflows event fields call.field →
      (call.run event).2 = event.raise TraceEventFlagFieldError)) ∧
  ((call.run event).1 = true →
    (∃ size fieldCount,
      (call.run event).2.header = { event.header with size := size, fieldCount := fieldCount }) ∧
    (call.run event).2.payload.take (event.header.size.toNat - sizeofTraceEventHeader) =
      event.payload.take (event.header.size.toNat - sizeofTraceEventHeader))

theorem leavesIntact_of_encodes {event : TraceEvent} {moduleName apiName : List UInt8}
    {fields : List Field} (encodes : Encodes event moduleName apiName fields) (call : AddCall) :
    LeavesIntact event fields call := by
  obtain ⟨type, name, value, valueSize, enough, _, isField, appends⟩ := call.exists_append
  rw [LeavesIntact, appends, isField]
  refine ⟨fun rejected => ?_, appendTraceField_accepted encodes⟩
  have flagged := appendTraceField_rejected encodes enough rejected
  refine ⟨fun index elsewhere => ?_, flagged⟩
  by_cases overflows : Overflows event fields ⟨type, name.text, value.take valueSize.toNat⟩
  · rw [flagged.1 overflows]
    exact bytes_raise event _ elsewhere
  · rw [flagged.2 overflows]
    exact bytes_raise event _ elsewhere

/-- After any calls on a started event, a further call that fails raises the one
flag that says why, a call that succeeds touches nothing in front of it, and the
walk over the fields stays in the event.  An event that could not be started
stays unusable. -/
theorem rejected_leaves_intact (clock : Clock) (moduleName apiName : CString)
    (calls : List AddCall) :
    let start := InitializeTraceEvent clock moduleName apiName
    let built := addAll start.2 calls
    (start.1 = true →
      (∀ call, LeavesIntact built.2 built.1 call) ∧
      ∀ name nameLength,
        All (Span.Below built.2.header.size.toNat) (HasTraceField.walk built.2 name nameLength) ∧
        (nameLength.toNat ≤ name.length →
          (HasTraceField.walk built.2 name nameLength).value =
            HasTraceField built.2 name nameLength)) ∧
    (start.1 = false →
      (∀ call : AddCall, (call.run built.2).1 = false) ∧
      ∀ transport shared shared' pc',
        ¬EmitTraceEvent.Step transport shared .idle (.call built.2) shared' pc') := by
  intro start built
  refine ⟨fun started => ?_, fun failed => ?_⟩
  · have encodes : Encodes built.2 moduleName.text apiName.text built.1 :=
      addAll_spec ((initializeTraceEvent_spec clock moduleName apiName).2 started) calls
    refine ⟨leavesIntact_of_encodes encodes, fun name nameLength => ⟨all_walk encodes, ?_⟩⟩
    exact value_walk encodes
  · have magic : built.2.header.magic ≠ TRACE_EVENT_MAGIC := by
      apply addAll_of_magic_ne
      rw [initializeTraceEvent_failed failed]
      decide
    constructor
    · intro call
      rw [addCall_of_not_canAppend (fun can => magic can.1)]
    · intro transport shared shared' pc' accepted
      cases accepted with
      | call checks => exact magic checks.2.2.2.2.1

end TraceTransport

end ApiScope
