import ApiScope.Hook.Registry
import ApiScope.Trace.Values

/-!
# The hook handlers

A handler notes the arguments of the call, lets the original function run, notes
its status and emits the event.  What is noted is a script, one for each hook; a
pointer is a number of 64 bits, and addresses are those of the hooked process.
-/

namespace ApiScope

open Bytes TraceLanguage TraceRenderer TraceTransport

/-! ## The hooked functions -/

structure BCryptOpenAlgorithmProvider.Arguments where
  Algorithm : UInt64
  AlgorithmId : UInt64
  Implementation : UInt64
  Flags : UInt32

structure NtCreateFile.Arguments where
  FileHandle : UInt64
  DesiredAccess : UInt32
  ObjectAttributes : UInt64
  IoStatusBlock : UInt64
  AllocationSize : UInt64
  FileAttributes : UInt32
  ShareAccess : UInt32
  CreateDisposition : UInt32
  CreateOptions : UInt32
  EaBuffer : UInt64
  EaLength : UInt32

structure NtReadFile.Arguments where
  FileHandle : UInt64
  Event : UInt64
  ApcRoutine : UInt64
  ApcContext : UInt64
  IoStatusBlock : UInt64
  Buffer : UInt64
  Length : UInt32
  ByteOffset : UInt64
  Key : UInt64

structure NtWriteFile.Arguments where
  FileHandle : UInt64
  Event : UInt64
  ApcRoutine : UInt64
  ApcContext : UInt64
  IoStatusBlock : UInt64
  Buffer : UInt64
  Length : UInt32
  ByteOffset : UInt64
  Key : UInt64

inductive HookedCall where
  | bcryptOpenAlgorithmProvider (arguments : BCryptOpenAlgorithmProvider.Arguments)
  | ntCreateFile (arguments : NtCreateFile.Arguments)
  | ntReadFile (arguments : NtReadFile.Arguments)
  | ntWriteFile (arguments : NtWriteFile.Arguments)

/-- What a handler finds in its process: its thread and the time of its start, the
memory-read bypass once there is one, and the code behind the trampolines. -/
structure HookedProcess where
  clock : Clock
  readMemory : Option (Memory → ReadVirtualMemory)
  original : HookedCall → Memory → UInt32 × Memory

def NT_SUCCESS (status : UInt32) : Prop := 0 ≤ status.toInt32

instance decidableNtSuccess (status : UInt32) : Decidable (NT_SUCCESS status) :=
  inferInstanceAs (Decidable (0 ≤ status.toInt32))

/-- `IoStatusBlock->Information` -/
def ioStatusInformation (memory : Memory) (ioStatusBlock : UInt64) : UInt64 :=
  .ofNat (ofLittleEndian (memory.read (ioStatusBlock.toNat + 8) 8))

/-! ## Scripts -/

/-- What a handler notes before and after the original function runs. -/
structure HookScript where
  moduleName : String
  apiName : String
  before : Memory → List AddCall
  after : UInt32 → Memory → List AddCall

/-- A string literal of the source. -/
def literal (name : String) : CString := some (narrow name)

def BCryptOpenAlgorithmProvider.script (arguments : BCryptOpenAlgorithmProvider.Arguments) :
    HookScript where
  moduleName := "bcrypt.dll"
  apiName := "BCryptOpenAlgorithmProvider"
  before := fun _ => [
    .pointer (literal "algorithm") arguments.Algorithm,
    .pointer (literal "algorithm_id") arguments.AlgorithmId,
    .pointer (literal "implementation") arguments.Implementation,
    .uint32 (literal "flags") arguments.Flags]
  after := fun result _ => [.status (literal "result") result]

def NtCreateFile.script (arguments : NtCreateFile.Arguments) : HookScript where
  moduleName := "ntdll.dll"
  apiName := "NtCreateFile"
  before := fun _ => [
    .pointer (literal "file_handle") arguments.FileHandle,
    .uint32 (literal "desired_access") arguments.DesiredAccess,
    .pointer (literal "object_attributes") arguments.ObjectAttributes,
    .pointer (literal "io_status_block") arguments.IoStatusBlock,
    .pointer (literal "allocation_size") arguments.AllocationSize,
    .uint32 (literal "file_attributes") arguments.FileAttributes,
    .uint32 (literal "share_access") arguments.ShareAccess,
    .uint32 (literal "create_disposition") arguments.CreateDisposition,
    .uint32 (literal "create_options") arguments.CreateOptions,
    .pointer (literal "ea_buffer") arguments.EaBuffer,
    .uint32 (literal "ea_length") arguments.EaLength]
  after := fun result _ => [.status (literal "result") result]

/-- How many bytes the read has stored, as far as its caller has room for them. -/
def NtReadFile.bytesRead (arguments : NtReadFile.Arguments) (memory : Memory) : UInt64 :=
  if ioStatusInformation memory arguments.IoStatusBlock < arguments.Length.toUInt64 then
    ioStatusInformation memory arguments.IoStatusBlock
  else arguments.Length.toUInt64

def NtReadFile.script (process : HookedProcess) (arguments : NtReadFile.Arguments) :
    HookScript where
  moduleName := "ntdll.dll"
  apiName := "NtReadFile"
  before := fun _ => [
    .pointer (literal "file_handle") arguments.FileHandle,
    .pointer (literal "event") arguments.Event,
    .pointer (literal "apc_routine") arguments.ApcRoutine,
    .pointer (literal "apc_context") arguments.ApcContext,
    .pointer (literal "io_status_block") arguments.IoStatusBlock,
    .pointer (literal "buffer_address") arguments.Buffer,
    .uint32 (literal "length") arguments.Length,
    .pointer (literal "byte_offset") arguments.ByteOffset,
    .pointer (literal "key") arguments.Key]
  after := fun result memory =>
    (if NT_SUCCESS result ∧ arguments.IoStatusBlock ≠ 0 then
      [.bufferPreview (literal "buffer") arguments.Buffer
        (NtReadFile.bytesRead arguments memory).toUInt32
        (process.readMemory.map fun readMemory => readMemory memory)]
    else []) ++ [.status (literal "result") result]

def NtWriteFile.script (process : HookedProcess) (arguments : NtWriteFile.Arguments) :
    HookScript where
  moduleName := "ntdll.dll"
  apiName := "NtWriteFile"
  before := fun memory => [
    .pointer (literal "file_handle") arguments.FileHandle,
    .pointer (literal "event") arguments.Event,
    .pointer (literal "apc_routine") arguments.ApcRoutine,
    .pointer (literal "apc_context") arguments.ApcContext,
    .pointer (literal "io_status_block") arguments.IoStatusBlock,
    .pointer (literal "buffer_address") arguments.Buffer,
    .uint32 (literal "length") arguments.Length,
    .pointer (literal "byte_offset") arguments.ByteOffset,
    .pointer (literal "key") arguments.Key,
    .bufferPreview (literal "buffer") arguments.Buffer arguments.Length
      (process.readMemory.map fun readMemory => readMemory memory)]
  after := fun result _ => [.status (literal "result") result]

/-! ## Handlers -/

/-- What a handler does that others can see. -/
inductive HandlerAction where
  /-- `HookCallGuard()` -/
  | construct
  | callOriginal (call : HookedCall)
  | emitTraceEvent (event : TraceEvent)
  /-- `~HookCallGuard()` -/
  | destroy

/-- The body of a handler. -/
def HookScript.run (script : HookScript) (process : HookedProcess) (call : HookedCall)
    (memory : Memory) : Logged HandlerAction (UInt32 × Memory) := do
  Logged.emit .construct ()
  let event := (InitializeTraceEvent process.clock (literal script.moduleName)
    (literal script.apiName)).2
  let event := (addAll event (script.before memory)).2
  let (result, memory) ← Logged.emit (.callOriginal call) (process.original call memory)
  let event := (addAll event (script.after result memory)).2
  Logged.emit (.emitTraceEvent event) ()
  Logged.emit .destroy ()
  return (result, memory)

def BCryptOpenAlgorithmProviderHandler (process : HookedProcess)
    (arguments : BCryptOpenAlgorithmProvider.Arguments) :
    Memory → Logged HandlerAction (UInt32 × Memory) :=
  (BCryptOpenAlgorithmProvider.script arguments).run process
    (.bcryptOpenAlgorithmProvider arguments)

def NtCreateFileHandler (process : HookedProcess) (arguments : NtCreateFile.Arguments) :
    Memory → Logged HandlerAction (UInt32 × Memory) :=
  (NtCreateFile.script arguments).run process (.ntCreateFile arguments)

def NtReadFileHandler (process : HookedProcess) (arguments : NtReadFile.Arguments) :
    Memory → Logged HandlerAction (UInt32 × Memory) :=
  (NtReadFile.script process arguments).run process (.ntReadFile arguments)

def NtWriteFileHandler (process : HookedProcess) (arguments : NtWriteFile.Arguments) :
    Memory → Logged HandlerAction (UInt32 × Memory) :=
  (NtWriteFile.script process arguments).run process (.ntWriteFile arguments)

namespace HookedCall

def script (process : HookedProcess) : HookedCall → HookScript
  | bcryptOpenAlgorithmProvider arguments => BCryptOpenAlgorithmProvider.script arguments
  | ntCreateFile arguments => NtCreateFile.script arguments
  | ntReadFile arguments => NtReadFile.script process arguments
  | ntWriteFile arguments => NtWriteFile.script process arguments

/-- The call arrives at its handler. -/
def handler (process : HookedProcess) :
    HookedCall → Memory → Logged HandlerAction (UInt32 × Memory)
  | bcryptOpenAlgorithmProvider arguments => BCryptOpenAlgorithmProviderHandler process arguments
  | ntCreateFile arguments => NtCreateFileHandler process arguments
  | ntReadFile arguments => NtReadFileHandler process arguments
  | ntWriteFile arguments => NtWriteFileHandler process arguments

theorem handler_eq (process : HookedProcess) (call : HookedCall) (memory : Memory) :
    call.handler process memory = (call.script process).run process call memory := by
  cases call <;> rfl

/-- Everything the handler notes, in order. -/
def noted (process : HookedProcess) (call : HookedCall) (memory : Memory) : List AddCall :=
  (call.script process).before memory ++
    (call.script process).after (process.original call memory).1 (process.original call memory).2

end HookedCall

/-! ## Every value finds its place -/

/-- Names and capacities of the values that are noted, checked once and for all. -/
def HookScript.Fits (moduleName apiName : String) (shape : List (String × Nat)) : Bool :=
  decide ((literal moduleName).text = narrow moduleName) &&
  decide ((literal apiName).text = narrow apiName) &&
  (TraceTransport.IsValidIdentifier (literal moduleName) TRACE_MAX_MODULE_NAME_BYTES true).isSome &&
  (TraceTransport.IsValidIdentifier (literal apiName) TRACE_MAX_API_NAME_BYTES false).isSome &&
  (shape.all fun entry => (TraceTransport.IsValidFieldName (literal entry.1)).isSome) &&
  decide (shape.map fun entry => (literal entry.1).text).Nodup &&
  decide (sizeofTraceEventHeader + (narrow moduleName).length + (narrow apiName).length +
    (shape.map fun entry =>
      sizeofTraceFieldHeader + (literal entry.1).text.length + entry.2).sum ≤
        TRACE_MAX_EVENT_BYTES)

/-- The values have these names and capacities. -/
def Shaped (noted : List AddCall) (shape : List (String × Nat)) : Prop :=
  noted.map (fun call => (call.field.name, call.capacity)) =
    shape.map fun entry => ((literal entry.1).text, entry.2)

namespace Shaped

variable {noted : List AddCall} {shape : List (String × Nat)}

theorem names (shaped : Shaped noted shape) :
    noted.map (fun call => call.field.name) = shape.map fun entry => (literal entry.1).text := by
  have firsts := congrArg (List.map Prod.fst) shaped
  simpa [List.map_map, Function.comp_def] using firsts

theorem rooms (shaped : Shaped noted shape) :
    noted.map AddCall.room = shape.map fun entry =>
      sizeofTraceFieldHeader + (literal entry.1).text.length + entry.2 := by
  change List.map (fun call : AddCall =>
    sizeofTraceFieldHeader + call.field.name.length + call.capacity) noted = _
  have sizes := congrArg (List.map fun entry : List UInt8 × Nat =>
    sizeofTraceFieldHeader + entry.1.length + entry.2) shaped
  simpa [List.map_map, Function.comp_def] using sizes

end Shaped

/-- The event reports the call: it encodes everything that was noted, with the thread and the
time at which the handler started, and no flag is raised. -/
structure Reports (process : HookedProcess) (call : HookedCall) (memory : Memory)
    (event : TraceEvent) : Prop where
  encodes : Encodes event (narrow (call.script process).moduleName)
    (narrow (call.script process).apiName) ((call.noted process memory).map AddCall.field)
  flags : event.header.flags = 0
  threadId : event.header.threadId = process.clock.threadId
  timestamp : event.header.timestamp100ns = process.clock.timestamp100ns

/-- A new event has no flags and no number, and knows its thread and its time. -/
theorem initializeTraceEvent_header {clock : Clock} {moduleName apiName : CString}
    (accepted : (InitializeTraceEvent clock moduleName apiName).1 = true) :
    (InitializeTraceEvent clock moduleName apiName).2.header.flags = 0 ∧
    (InitializeTraceEvent clock moduleName apiName).2.header.threadId = clock.threadId ∧
    (InitializeTraceEvent clock moduleName apiName).2.header.timestamp100ns =
      clock.timestamp100ns := by
  unfold InitializeTraceEvent at accepted ⊢
  split at accepted
  · exact ⟨rfl, rfl, rfl⟩
  · cases accepted

/-- What a handler leaves behind, if its names are good and its values find room. -/
theorem HookScript.run_spec {process : HookedProcess} {call : HookedCall} {memory : Memory}
    {shape : List (String × Nat)} (shaped : Shaped (call.noted process memory) shape)
    (fits : HookScript.Fits (call.script process).moduleName (call.script process).apiName shape =
      true) :
    ((call.script process).run process call memory).value = process.original call memory ∧
    ∃ event, ((call.script process).run process call memory).log =
        [.construct, .callOriginal call, .emitTraceEvent event, .destroy] ∧
      Reports process call memory event := by
  simp only [HookScript.Fits, Bool.and_eq_true, decide_eq_true_eq, List.all_eq_true] at fits
  obtain ⟨⟨⟨⟨⟨⟨moduleText, apiText⟩, validModule⟩, validApi⟩, validNames⟩, distinct⟩, room⟩ := fits
  set start := InitializeTraceEvent process.clock (literal (call.script process).moduleName)
    (literal (call.script process).apiName) with startDef
  obtain ⟨condition, started⟩ := initializeTraceEvent_spec process.clock
    (literal (call.script process).moduleName) (literal (call.script process).apiName)
  obtain ⟨moduleLength, isModule⟩ := Option.isSome_iff_exists.mp validModule
  obtain ⟨apiLength, isApi⟩ := Option.isSome_iff_exists.mp validApi
  have accepted : start.1 = true := condition.mpr
    ⟨((isValidIdentifier_iff TraceTransport.isIdentifierCharacter_true).mp isModule).1,
      ((isValidIdentifier_iff TraceTransport.isIdentifierCharacter_false).mp isApi).1⟩
  have empty := started accepted
  rw [moduleText, apiText] at empty
  obtain ⟨flags, threadId, timestamp⟩ := initializeTraceEvent_header accepted
  have valid : ∀ added ∈ call.noted process memory, FieldName added.field.name := by
    intro added member
    have named : added.field.name ∈ (call.noted process memory).map (·.field.name) :=
      List.mem_map_of_mem member
    rw [shaped.names] at named
    obtain ⟨entry, inShape, same⟩ := List.mem_map.mp named
    obtain ⟨length, isName⟩ := Option.isSome_iff_exists.mp (validNames entry inShape)
    exact same ▸ (isValidFieldName_iff.mp isName).1
  obtain ⟨final, size, fieldCount, header⟩ := addAll_complete empty valid
    (by rw [List.nil_append, List.map_map]; exact shaped.names ▸ distinct)
    (by
      have emptySize := empty.size
      simp only [contents, List.flatMap_nil, List.append_nil, List.length_append] at emptySize
      rw [emptySize, shaped.rooms]
      omega)
  rw [List.nil_append] at final
  have joined := addAll_append start.2 ((call.script process).before memory)
    ((call.script process).after (process.original call memory).1 (process.original call memory).2)
  have reports : Reports process call memory (addAll start.2 (call.noted process memory)).2 :=
    ⟨final, by rw [header]; exact flags, by rw [header]; exact threadId,
      by rw [header]; exact timestamp⟩
  rw [HookedCall.noted, joined] at reports
  exact ⟨rfl, _, rfl, reports⟩

/-- The nine values that reading and writing have in common. -/
def fileShape : List (String × Nat) :=
  [("file_handle", 8), ("event", 8), ("apc_routine", 8), ("apc_context", 8),
    ("io_status_block", 8), ("buffer_address", 8), ("length", 4), ("byte_offset", 8), ("key", 8)]

/-- The most a preview takes. -/
def previewShape : String × Nat := ("buffer", sizeofTraceBytesHeader + TRACE_MAX_BUFFER_BYTES)

/-- Every handler has good names and room for all its values, whatever they are. -/
theorem HookedCall.exists_shape (process : HookedProcess) (call : HookedCall) (memory : Memory) :
    ∃ shape, Shaped (call.noted process memory) shape ∧
      HookScript.Fits (call.script process).moduleName (call.script process).apiName shape =
        true := by
  have preview : ∀ apiName ∈ ["NtReadFile", "NtWriteFile"],
      HookScript.Fits "ntdll.dll" apiName (fileShape ++ [previewShape, ("result", 4)]) = true := by
    decide +kernel
  cases call with
  | bcryptOpenAlgorithmProvider arguments =>
      have fits : HookScript.Fits "bcrypt.dll" "BCryptOpenAlgorithmProvider"
          [("algorithm", 8), ("algorithm_id", 8), ("implementation", 8), ("flags", 4),
            ("result", 4)] = true := by decide +kernel
      refine ⟨_, ?_, fits⟩
      rfl
  | ntCreateFile arguments =>
      have fits : HookScript.Fits "ntdll.dll" "NtCreateFile"
          [("file_handle", 8), ("desired_access", 4), ("object_attributes", 8),
            ("io_status_block", 8), ("allocation_size", 8), ("file_attributes", 4),
            ("share_access", 4), ("create_disposition", 4), ("create_options", 4),
            ("ea_buffer", 8), ("ea_length", 4), ("result", 4)] = true := by decide +kernel
      refine ⟨_, ?_, fits⟩
      rfl
  | ntReadFile arguments =>
      set outcome := process.original (.ntReadFile arguments) memory with outcomeDef
      by_cases read : NT_SUCCESS outcome.1 ∧ arguments.IoStatusBlock ≠ 0
      · refine ⟨_, ?_, preview "NtReadFile" (by simp)⟩
        simp only [noted, script, NtReadFile.script, ← outcomeDef, if_pos read]
        rfl
      · have fits : HookScript.Fits "ntdll.dll" "NtReadFile" (fileShape ++ [("result", 4)]) =
            true := by decide +kernel
        refine ⟨_, ?_, fits⟩
        simp only [noted, script, NtReadFile.script, ← outcomeDef, if_neg read]
        rfl
  | ntWriteFile arguments =>
      refine ⟨_, ?_, preview "NtWriteFile" (by simp)⟩
      rfl

/-! ## What the trace says -/

/-- The object of a line that reports the call. -/
structure LineReports (process : HookedProcess) (call : HookedCall) (memory : Memory)
    (sequence : UInt32) (members fieldMembers : List (List Char × Json.Value)) : Prop where
  sequence : Json.lookup (text "sequence") members = some (.number sequence.toNat)
  timestamp : Json.lookup (text "timestamp_100ns") members =
    some (.number process.clock.timestamp100ns.toNat)
  threadId : Json.lookup (text "thread_id") members =
    some (.number process.clock.threadId.toNat)
  moduleName : Json.lookup (text "module") members =
    some (.string (chars (narrow (call.script process).moduleName)))
  apiName : Json.lookup (text "api") members =
    some (.string (chars (narrow (call.script process).apiName)))
  truncated : Json.lookup (text "truncated") members = some (.bool false)
  fieldError : Json.lookup (text "field_error") members = some (.bool false)
  fields : Json.lookup (text "fields") members = some (.object fieldMembers)
  noted : List.Forall₂ (fun added member => member.1 = chars added.field.name ∧
    added.Shows member.2) (call.noted process memory) fieldMembers

/-- The line of a reporting event reports the call, under the number of the event. -/
theorem Reports.line {process : HookedProcess} {call : HookedCall} {memory : Memory}
    {event : TraceEvent} (reports : Reports process call memory event)
    (fileTimeToSystemTime : FileTimeToSystemTime) :
    ∃ (line : List Char) (members fieldMembers : List (List Char × Json.Value)),
      RenderTraceEventJsonl fileTimeToSystemTime event = line ++ ['\n'] ∧ '\n' ∉ line ∧
      Json.decode line = some (.object members) ∧
      LineReports process call memory event.header.sequence members fieldMembers := by
  have printable := printable_eventMembers fileTimeToSystemTime reports.encodes
  have visible := Json.visible_encodeValue _ printable
  refine ⟨_, _, ((call.noted process memory).map AddCall.field).map memberOf,
    renderTraceEventJsonl_eq fileTimeToSystemTime reports.encodes,
    fun newline => absurd (visible '\n' newline) (by decide), Json.decode_encode _ printable, ?_⟩
  have unflagged : ∀ flag, flagged event flag = false := by
    intro flag
    rw [flagged, reports.flags]
    simp
  constructor
  case sequence => rfl
  case timestamp => rw [← reports.timestamp]; rfl
  case threadId => rw [← reports.threadId]; rfl
  case moduleName => rfl
  case apiName => rfl
  case truncated => rw [← unflagged TraceEventFlagTruncated]; rfl
  case fieldError => rw [← unflagged TraceEventFlagFieldError]; rfl
  case fields => rfl
  case noted =>
      rw [List.map_map, List.forall₂_map_right_iff, List.forall₂_same]
      exact fun added _ => ⟨rfl, added.shows_jsonOf⟩

/-- The number an event takes on its way into the ring is no part of what it reports. -/
theorem Reports.withSequence {process : HookedProcess} {call : HookedCall} {memory : Memory}
    {event : TraceEvent} (reports : Reports process call memory event) (sequence : UInt32) :
    Reports process call memory (EmitTraceEvent.withSequence event sequence) := by
  obtain ⟨encodes, flags, threadId, timestamp⟩ := reports
  obtain ⟨magic, version, validModule, moduleLength, validApi, apiLength, counted, valid, distinct,
    size, fits, payload⟩ := encodes
  exact ⟨⟨magic, version, validModule, moduleLength, validApi, apiLength, counted, valid, distinct,
    size, fits, payload⟩, flags, threadId, timestamp⟩

theorem HookedCall.handler_spec (process : HookedProcess) (call : HookedCall) (memory : Memory) :
    (call.handler process memory).value = process.original call memory ∧
    ∃ event, (call.handler process memory).log =
        [.construct, .callOriginal call, .emitTraceEvent event, .destroy] ∧
      Reports process call memory event := by
  obtain ⟨shape, shaped, fits⟩ := call.exists_shape process memory
  rw [call.handler_eq]
  exact HookScript.run_spec shaped fits

/-- A hooked call is passed on once and as it is, and its result comes back; between the call
and its end the handler emits one event, whose line shows every argument and the status. -/
theorem handler_reports (fileTimeToSystemTime : FileTimeToSystemTime) (process : HookedProcess)
    (call : HookedCall) (memory : Memory) :
    (call.handler process memory).value = process.original call memory ∧
    ∃ event, (call.handler process memory).log =
        [.construct, .callOriginal call, .emitTraceEvent event, .destroy] ∧
      IsValidTraceEvent event event.header.size.toNat = true ∧
      ∀ sequence, ∃ (line : List Char) (members fieldMembers : List (List Char × Json.Value)),
        RenderTraceEventJsonl fileTimeToSystemTime (EmitTraceEvent.withSequence event sequence) =
          line ++ ['\n'] ∧
        '\n' ∉ line ∧ Json.decode line = some (.object members) ∧
        LineReports process call memory sequence members fieldMembers := by
  obtain ⟨transparent, event, log, reports⟩ := call.handler_spec process memory
  refine ⟨transparent, event, log, ?_, fun sequence =>
    (reports.withSequence sequence).line fileTimeToSystemTime⟩
  rw [IsValidTraceEvent, parseTraceEvent_complete reports.encodes]
  rfl

/-! ## Previews -/

/-- The bypass stores as many bytes as it reports, and stores what is there. -/
def Honest (memory : Memory) (readMemory : ReadVirtualMemory) : Prop :=
  ∀ address length,
    (readMemory address length).captured ≤ length ∧
    (readMemory address length).written =
      memory.read address.toNat (readMemory address length).captured.toNat

/-- How many bytes of a buffer a preview holds: as many as the bypass reports when it is asked
for all of them, or for as many as fit. -/
def capturedBytes (readMemory : ReadVirtualMemory) (buffer : UInt64) (requested : Nat) : Nat :=
  if buffer = 0 ∨ requested = 0 then 0
  else (readMemory buffer (.ofNat (min requested TRACE_MAX_BUFFER_BYTES))).captured.toNat

/-- A bypass that reads all it is asked for fills the preview. -/
theorem capturedBytes_of_whole {readMemory : ReadVirtualMemory}
    (whole : ∀ address length, (readMemory address length).captured = length) {buffer : UInt64}
    (given : buffer ≠ 0) (requested : Nat) :
    capturedBytes readMemory buffer requested = min requested TRACE_MAX_BUFFER_BYTES := by
  unfold capturedBytes
  split_ifs with empty
  · rw [empty.resolve_left given, Nat.zero_min]
  · rw [whole, UInt32.toNat_ofNat_of_lt']
    exact (Nat.min_le_right _ _).trans_lt (by decide)

/-- The bytes of a preview are what the memory held, from the start of the buffer on, as many as
the bypass has read. -/
theorem captureTraceBuffer_honest {memory : Memory} {readMemory : ReadVirtualMemory}
    (honest : Honest memory readMemory) (buffer : UInt64) (length : UInt32) :
    let preview := CaptureTraceBuffer (some readMemory) buffer length
    preview.header.requested = length ∧
    preview.header.captured.toNat = capturedBytes readMemory buffer length.toNat ∧
    preview.bytes.take preview.header.captured.toNat =
      memory.read buffer.toNat preview.header.captured.toNat := by
  intro preview
  have isZero : length.toNat = 0 ↔ length = 0 := UInt32.toNat_inj (b := 0)
  by_cases empty : buffer = 0 ∨ length = 0
  · have none : capturedBytes readMemory buffer length.toNat = 0 :=
      if_pos (empty.imp_right isZero.mpr)
    simp only [preview, CaptureTraceBuffer, if_pos empty, none, true_and]
    exact ⟨rfl, rfl⟩
  · set captureLength : UInt32 :=
      if length.toNat < TRACE_MAX_BUFFER_BYTES then length else .ofNat TRACE_MAX_BUFFER_BYTES
      with captureDef
    obtain ⟨bounded, written⟩ := honest buffer captureLength
    set outcome := readMemory buffer captureLength with outcomeDef
    have unfolded : preview = ⟨⟨length,
        if outcome.captured < captureLength then outcome.captured else captureLength,
        outcome.status⟩, overwrite (List.replicate TRACE_MAX_BUFFER_BYTES 0) 0
          (outcome.written.take captureLength.toNat)⟩ := by
      simp only [preview, CaptureTraceBuffer, if_neg empty]
      rfl
    have clipped : (if outcome.captured < captureLength then outcome.captured
        else captureLength) = outcome.captured := by
      split_ifs with fewer
      · rfl
      · exact UInt32.le_antisymm (UInt32.not_lt.mp fewer) bounded
    have small : captureLength.toNat ≤ TRACE_MAX_BUFFER_BYTES := by
      rw [captureDef]
      split_ifs with short
      · exact short.le
      · decide
    have asked : UInt32.ofNat (min length.toNat TRACE_MAX_BUFFER_BYTES) = captureLength := by
      rw [captureDef]
      split_ifs with short
      · rw [min_eq_left short.le, UInt32.ofNat_toNat]
      · rw [min_eq_right (Nat.le_of_not_lt short)]
    have reported : capturedBytes readMemory buffer length.toNat = outcome.captured.toNat := by
      rw [capturedBytes, if_neg (empty ∘ Or.imp_right isZero.mp), asked]
    have counted : outcome.written.length = outcome.captured.toNat := by
      rw [written, Memory.length_read]
    have whole : outcome.written.take captureLength.toNat = outcome.written :=
      List.take_of_length_le (counted ▸ UInt32.le_iff_toNat_le.mp bounded)
    rw [unfolded, clipped, whole, ← written, reported]
    refine ⟨rfl, rfl, ?_⟩
    have stored := take_overwrite_end (List.replicate TRACE_MAX_BUFFER_BYTES (0 : UInt8)) 0
      outcome.written (by
        rw [List.length_replicate, counted, Nat.zero_add]
        exact (UInt32.le_iff_toNat_le.mp bounded).trans small)
    simpa [counted] using stored

section Lookup

variable {noted : List AddCall} {fieldMembers : List (List Char × Json.Value)}

theorem lookup_eq_none (shown : List.Forall₂ (fun added member =>
    member.1 = chars added.field.name ∧ added.Shows member.2) noted fieldMembers)
    {name : List UInt8} (absent : name ∉ noted.map fun added => added.field.name) :
    Json.lookup (chars name) fieldMembers = none := by
  induction shown with
  | nil => rfl
  | @cons added member noted members first _ inductionHypothesis =>
      rw [List.map_cons, List.mem_cons, not_or] at absent
      have other : member.1 ≠ chars name := fun same =>
        absent.1 (chars_injective (same.symm.trans first.1))
      rw [Json.lookup_cons_of_ne other]
      exact inductionHypothesis absent.2

theorem exists_lookup (shown : List.Forall₂ (fun added member =>
    member.1 = chars added.field.name ∧ added.Shows member.2) noted fieldMembers)
    (distinct : (noted.map fun added => added.field.name).Nodup) {added : AddCall}
    (member : added ∈ noted) :
    ∃ value, Json.lookup (chars added.field.name) fieldMembers = some value ∧
      added.Shows value := by
  induction shown with
  | nil => cases member
  | @cons other shownMember noted members first _ inductionHypothesis =>
      rw [List.map_cons, List.nodup_cons] at distinct
      rcases List.mem_cons.mp member with rfl | later
      · exact ⟨shownMember.2, Json.lookup_cons_of_eq first.1 _, first.2⟩
      · have otherName : shownMember.1 ≠ chars added.field.name := fun same =>
          distinct.1 (chars_injective (first.1.symm.trans same) ▸ List.mem_map_of_mem later)
        rw [Json.lookup_cons_of_ne otherName]
        exact inductionHypothesis distinct.2 later

end Lookup

theorem HookedCall.noted_distinct (process : HookedProcess) (call : HookedCall)
    (memory : Memory) :
    ((call.noted process memory).map fun added => added.field.name).Nodup := by
  obtain ⟨shape, shaped, fits⟩ := call.exists_shape process memory
  simp only [HookScript.Fits, Bool.and_eq_true, decide_eq_true_eq] at fits
  rw [shaped.names]
  exact fits.1.2

/-- A member shows the bytes of a buffer: of those that were asked for as many as fit and the
bypass has read. -/
def ShowsBuffer (memory : Memory) (readMemory : ReadVirtualMemory) (buffer : UInt64)
    (requested : Nat) (shown : Option Json.Value) : Prop :=
  ∃ members digits, shown = some (.object members) ∧
    Json.lookup (text "requested") members = some (.number (requested : Nat)) ∧
    Json.lookup (text "captured") members =
      some (.number (capturedBytes readMemory buffer requested : Nat)) ∧
    capturedBytes readMemory buffer requested ≤ min requested TRACE_MAX_BUFFER_BYTES ∧
    Json.lookup (text "hex") members = some (.string digits) ∧
    decodeHex digits =
      some (memory.read buffer.toNat (capturedBytes readMemory buffer requested))

theorem showsBuffer_of_shows {memory : Memory} {readMemory : ReadVirtualMemory}
    (honest : Honest memory readMemory) {name : CString} {buffer : UInt64} {length : UInt32}
    {value : Json.Value}
    (shown : (AddCall.bufferPreview name buffer length (some readMemory)).Shows value) :
    ShowsBuffer memory readMemory buffer length.toNat (some value) := by
  obtain ⟨members, digits, isObject, requested, captured, _, hex, decodes⟩ := shown
  obtain ⟨_, small, ordered⟩ := captureTraceBuffer_spec (some readMemory) buffer length
  obtain ⟨isLength, isCaptured, bytes⟩ := captureTraceBuffer_honest honest buffer length
  rw [isLength] at requested ordered
  rw [bytes, isCaptured] at decodes
  rw [isCaptured] at captured small
  have fewer := UInt32.le_iff_toNat_le.mp ordered
  rw [isCaptured] at fewer
  exact ⟨members, digits, congrArg some isObject, requested, captured, le_min fewer small, hex,
    decodes⟩

theorem NtReadFile.toNat_bytesRead (arguments : NtReadFile.Arguments) (memory : Memory) :
    (NtReadFile.bytesRead arguments memory).toUInt32.toNat =
      min (ioStatusInformation memory arguments.IoStatusBlock).toNat arguments.Length.toNat := by
  have small : arguments.Length.toNat < 2 ^ 32 := arguments.Length.toNat_lt
  rw [UInt64.toNat_toUInt32, NtReadFile.bytesRead]
  split_ifs with fewer
  · have less := UInt64.lt_iff_toNat_lt.mp fewer
    rw [UInt32.toNat_toUInt64] at less
    rw [min_eq_left less.le, Nat.mod_eq_of_lt (less.trans small)]
  · have more := UInt64.le_iff_toNat_le.mp (UInt64.not_lt.mp fewer)
    rw [UInt32.toNat_toUInt64] at more
    rw [UInt32.toNat_toUInt64, min_eq_right more, Nat.mod_eq_of_lt small]

/-- With a bypass that reads what is there, the line of a write shows the bytes that are to be
written, as they stand before the call.  The line of a read shows the bytes that were read, as
they stand after it, and none if the call failed or has nowhere to say how many. -/
theorem previews_show_buffers (fileTimeToSystemTime : FileTimeToSystemTime)
    (process : HookedProcess) (readMemory : Memory → ReadVirtualMemory)
    (configured : process.readMemory = some readMemory)
    (honest : ∀ memory, Honest memory (readMemory memory)) (call : HookedCall) (memory : Memory) :
    ∃ event, .emitTraceEvent event ∈ (call.handler process memory).log ∧
      ∃ line members fieldMembers,
        RenderTraceEventJsonl fileTimeToSystemTime event = line ++ ['\n'] ∧
        Json.decode line = some (.object members) ∧
        Json.lookup (text "fields") members = some (.object fieldMembers) ∧
        (∀ arguments, call = .ntWriteFile arguments →
          ShowsBuffer memory (readMemory memory) arguments.Buffer arguments.Length.toNat
            (Json.lookup (text "buffer") fieldMembers)) ∧
        ∀ arguments, call = .ntReadFile arguments →
          let outcome := process.original call memory
          if NT_SUCCESS outcome.1 ∧ arguments.IoStatusBlock ≠ 0 then
            ShowsBuffer outcome.2 (readMemory outcome.2) arguments.Buffer
              (min (ioStatusInformation outcome.2 arguments.IoStatusBlock).toNat
                arguments.Length.toNat) (Json.lookup (text "buffer") fieldMembers)
          else Json.lookup (text "buffer") fieldMembers = none := by
  obtain ⟨_, event, log, reports⟩ := call.handler_spec process memory
  obtain ⟨line, members, fieldMembers, rendered, _, decoded, reported⟩ :=
    reports.line fileTimeToSystemTime
  refine ⟨event, by simp [log], line, members, fieldMembers, rendered, decoded, reported.fields, ?_,
    ?_⟩
  · rintro arguments rfl
    have member : AddCall.bufferPreview (literal "buffer") arguments.Buffer arguments.Length
        (some (readMemory memory)) ∈ HookedCall.noted process (.ntWriteFile arguments) memory := by
      simp [HookedCall.noted, HookedCall.script, NtWriteFile.script, configured]
    obtain ⟨value, found, shown⟩ :=
      exists_lookup reported.noted (HookedCall.noted_distinct process _ memory) member
    have named : Json.lookup (text "buffer") fieldMembers = some value := found
    exact named ▸ showsBuffer_of_shows (honest memory) shown
  · rintro arguments rfl outcome
    have notes : HookedCall.noted process (.ntReadFile arguments) memory =
        (NtReadFile.script process arguments).before memory ++
          (NtReadFile.script process arguments).after outcome.1 outcome.2 := rfl
    split_ifs with read
    · have member : AddCall.bufferPreview (literal "buffer") arguments.Buffer
          (NtReadFile.bytesRead arguments outcome.2).toUInt32 (some (readMemory outcome.2)) ∈
            HookedCall.noted process (.ntReadFile arguments) memory := by
        rw [notes]
        simp [NtReadFile.script, configured, read]
      obtain ⟨value, found, shown⟩ :=
        exists_lookup reported.noted (HookedCall.noted_distinct process _ memory) member
      have named : Json.lookup (text "buffer") fieldMembers = some value := found
      rw [named, ← NtReadFile.toNat_bytesRead]
      exact showsBuffer_of_shows (honest outcome.2) shown
    · have absent : (literal "buffer").text ∉
          (HookedCall.noted process (.ntReadFile arguments) memory).map
            fun added => added.field.name := by
        have names : (HookedCall.noted process (.ntReadFile arguments) memory).map
            (fun added => added.field.name) =
              (fileShape ++ [("result", 4)]).map
                fun entry : String × Nat => (literal entry.1).text := by
          simp only [notes, NtReadFile.script, if_neg read]
          rfl
        rw [names]
        decide +kernel
      exact lookup_eq_none reported.noted absent

namespace HookedProcess.Sample

/-- Ten bytes are read into a buffer at 0x3000. -/
def memory : Memory :=
  Memory.write (Memory.write (fun _ => 0) 0x2008 (littleEndian 8 10)) 0x3000
    [104, 101, 108, 108, 111, 32, 114, 101, 97, 100]

def readMemory (memory : Memory) : ReadVirtualMemory := fun address length =>
  ⟨0, length, memory.read address.toNat length.toNat⟩

/-- A process whose system calls succeed and change nothing. -/
def process : HookedProcess := ⟨⟨7, 0⟩, some readMemory, fun _ memory => (0, memory)⟩

def readFile : NtReadFile.Arguments := ⟨4, 0, 0, 0, 0x2000, 0x3000, 32, 0, 0⟩

theorem honest (memory : Memory) : Honest memory (readMemory memory) :=
  fun _ _ => ⟨UInt32.le_refl _, rfl⟩

end HookedProcess.Sample

open HookedProcess.Sample in
/-- All of the ten bytes are shown. -/
theorem previews_show_buffers_sample :
    ∃ event, .emitTraceEvent event ∈ (HookedCall.handler process (.ntReadFile readFile) memory).log ∧
      ∃ line members fieldMembers bufferMembers digits,
        RenderTraceEventJsonl (fun _ => none) event = line ++ ['\n'] ∧
        Json.decode line = some (.object members) ∧
        Json.lookup (text "fields") members = some (.object fieldMembers) ∧
        Json.lookup (text "buffer") fieldMembers = some (.object bufferMembers) ∧
        Json.lookup (text "captured") bufferMembers = some (.number (10 : Nat)) ∧
        Json.lookup (text "hex") bufferMembers = some (.string digits) ∧
        decodeHex digits = some [104, 101, 108, 108, 111, 32, 114, 101, 97, 100] := by
  obtain ⟨event, emitted, line, members, fieldMembers, rendered, decoded, fields, _, read⟩ :=
    previews_show_buffers (fun _ => none) process readMemory rfl honest (.ntReadFile readFile)
      memory
  have counted : min (ioStatusInformation memory readFile.IoStatusBlock).toNat
      readFile.Length.toNat = 10 := by decide +kernel
  have captured : capturedBytes (readMemory memory) readFile.Buffer 10 = 10 :=
    capturedBytes_of_whole (fun _ _ => rfl) (by decide) 10
  have bytes : memory.read readFile.Buffer.toNat 10 =
      [104, 101, 108, 108, 111, 32, 114, 101, 97, 100] := by decide +kernel
  have shown := read readFile rfl
  rw [process] at shown
  dsimp only at shown
  rw [if_pos (by decide), counted] at shown
  obtain ⟨bufferMembers, digits, isBuffer, _, isCaptured, _, hex, decodes⟩ := shown
  rw [captured] at isCaptured decodes
  rw [bytes] at decodes
  exact ⟨event, emitted, line, members, fieldMembers, bufferMembers, digits, rendered, decoded,
    fields, isBuffer, isCaptured, hex, decodes⟩

end ApiScope
