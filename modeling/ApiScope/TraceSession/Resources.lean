import ApiScope.Cli.Options
import ApiScope.Hook.Effects

/-!
# What a trace session acquires and releases

The shared ring, the wake event and the two bypass trampolines, from `Start` to
`CleanupRemote` and `Stop`.  A null member stands for a resource that is not
held; calls on the controller's side are kept in order, like those on the
target.
-/

namespace ApiScope

/-- Resources of the controller's own process. -/
inductive LocalAction where
  | createMapping (handle : Nat)
  | mapView (address : Nat)
  | createEvent (handle : Nat)
  | unmapView (address : Nat)
  | closeHandle (handle : Nat)
  deriving DecidableEq, Repr

/-- `sizeof(TraceRing)` -/
def sizeofTraceRing : Nat := 64 + 4096 * 1088

/-- The members of `TraceSession` that stand for resources, and the calls made for them. -/
structure TraceSession where
  mappingHandle : Nat
  localRing : Nat
  remoteRing : Nat
  wakeEvent : Nat
  remoteWakeEvent : Nat
  stopEvent : Nat
  running : Bool
  setEventBypass : RemoteTrampoline
  readMemoryBypass : RemoteTrampoline
  log : List LocalAction
  deriving DecidableEq, Repr

namespace TraceSession

/-- `TraceSession::TraceSession` -/
def construct (stopEvent : Nat) : TraceSession :=
  { mappingHandle := 0
    localRing := 0
    remoteRing := 0
    wakeEvent := 0
    remoteWakeEvent := 0
    stopEvent := stopEvent
    running := false
    setEventBypass := ⟨0, 0⟩
    readMemoryBypass := ⟨0, 0⟩
    log := if stopEvent = 0 then [] else [.createEvent stopEvent] }

/-! ## Starting -/

def OpenOutput (outputOptions : TraceOutputOptions) (opened : Bool) : Bool :=
  if outputOptions.outputPath = [] then
    outputOptions.format ≠ .jsonl && !outputOptions.quiet
  else opened

def ReleaseLocalRing (session : TraceSession) : TraceSession :=
  let session :=
    if session.wakeEvent ≠ 0 then
      { session with wakeEvent := 0, log := session.log ++ [LocalAction.closeHandle session.wakeEvent] }
    else session
  let session :=
    if session.localRing ≠ 0 then
      { session with localRing := 0, log := session.log ++ [LocalAction.unmapView session.localRing] }
    else session
  if session.mappingHandle ≠ 0 then
    { session with mappingHandle := 0, log := session.log ++ [LocalAction.closeHandle session.mappingHandle] }
  else session

/-- Remote calls of `Start` and `CreateSharedRing`. -/
inductive Start.Call where
  | mapViewOfSection
  | unmapRing
  | duplicateHandle
  | writeRing
  | writeWakeEvent
  | writeActiveHookCalls

/-- How the calls end, and the handles and addresses they return, null on failure. -/
structure Start.Calls where
  opened : Bool
  ok : Start.Call → Bool
  mappingHandle : Nat
  localRing : Nat
  remoteRing : Nat
  wakeEvent : Nat
  remoteWakeEvent : Nat

def CreateSharedRing (calls : Start.Calls) (session : TraceSession) (targetProcess : Target) :
    Bool × TraceSession × Target :=
  if calls.mappingHandle = 0 then (false, session, targetProcess)
  else
    let session :=
      { session with
        mappingHandle := calls.mappingHandle
        log := session.log ++ [LocalAction.createMapping calls.mappingHandle] }
    if calls.localRing = 0 then (false, session.ReleaseLocalRing, targetProcess)
    else
      let session :=
        { session with
          localRing := calls.localRing
          log := session.log ++ [LocalAction.mapView calls.localRing] }
      let targetProcess := targetProcess.NtMapViewOfSection (calls.ok .mapViewOfSection)
        calls.remoteRing sizeofTraceRing
      if !calls.ok .mapViewOfSection then (false, session.ReleaseLocalRing, targetProcess)
      else
        let session := { session with remoteRing := calls.remoteRing }
        if calls.wakeEvent = 0 then
          (false, { session with remoteRing := 0 }.ReleaseLocalRing,
            targetProcess.NtUnmapViewOfSection (calls.ok .unmapRing) session.remoteRing)
        else
          let session :=
            { session with
              wakeEvent := calls.wakeEvent
              log := session.log ++ [LocalAction.createEvent calls.wakeEvent] }
          if !calls.ok .duplicateHandle then
            (false, { session with remoteRing := 0 }.ReleaseLocalRing,
              targetProcess.NtUnmapViewOfSection (calls.ok .unmapRing) session.remoteRing)
          else
            (true, { session with remoteWakeEvent := calls.remoteWakeEvent },
              targetProcess.DuplicateHandle true calls.remoteWakeEvent)

def WriteRemoteExport (succeeds : Bool) (hookImageBase : Nat) (exportName : String)
    (value : List UInt8) (targetProcess : Target) : Bool × Target :=
  match targetProcess.GetRemoteExport hookImageBase (narrow exportName) with
  | none => (false, targetProcess)
  | some remoteExport =>
      if remoteExport.address = 0 then (false, targetProcess)
      else
        (succeeds, targetProcess.WriteProcessMemory succeeds remoteExport.address value)

/-- A write that is not reached is not made. -/
def WriteRemoteExport.andThen (result : Bool × Target) (next : Target → Bool × Target) :
    Bool × Target :=
  if result.1 then next result.2 else result

/-- The exports through which the hooks find the ring, in the order they are written. -/
def Start.publish (calls : Start.Calls) (hookImageBase : Nat) (session : TraceSession)
    (targetProcess : Target) : Bool × Target :=
  WriteRemoteExport.andThen
    (WriteRemoteExport (calls.ok .writeRing) hookImageBase "TransportRing"
      (pointerBytes session.remoteRing) targetProcess) fun targetProcess =>
  WriteRemoteExport.andThen
    (WriteRemoteExport (calls.ok .writeWakeEvent) hookImageBase "TransportWakeEvent"
      (pointerBytes session.remoteWakeEvent) targetProcess) fun targetProcess =>
  WriteRemoteExport (calls.ok .writeActiveHookCalls) hookImageBase "ActiveHookCalls"
    (Bytes.littleEndian 4 0) targetProcess

def Start (calls : Start.Calls) (outputOptions : TraceOutputOptions) (hookImageBase : Nat)
    (session : TraceSession) (targetProcess : Target) : Bool × TraceSession × Target :=
  if session.stopEvent = 0 then (false, session, targetProcess)
  else if !OpenOutput outputOptions calls.opened then (false, session, targetProcess)
  else
    match session.CreateSharedRing calls targetProcess with
    | (false, session, targetProcess) => (false, session, targetProcess)
    | (true, session, targetProcess) =>
        match Start.publish calls hookImageBase session targetProcess with
        | (false, targetProcess) =>
            (false, { session with remoteRing := 0 }.ReleaseLocalRing,
              targetProcess.NtUnmapViewOfSection (calls.ok .unmapRing) session.remoteRing)
        | (true, targetProcess) => (true, { session with running := true }, targetProcess)

/-! ## The bypasses -/

structure ConfigureTransport.Calls where
  setEvent : CreateBypassTrampoline.Calls
  readMemory : CreateBypassTrampoline.Calls
  writeSetEvent : Bool
  writeReadMemory : Bool

/-- The exports through which the hooks find the bypasses. -/
def ConfigureTransport.publish (calls : ConfigureTransport.Calls) (hookImageBase : Nat)
    (session : TraceSession) (targetProcess : Target) : Bool × Target :=
  WriteRemoteExport.andThen
    (WriteRemoteExport calls.writeSetEvent hookImageBase "TransportNtSetEvent"
      (pointerBytes session.setEventBypass.address) targetProcess) fun targetProcess =>
  WriteRemoteExport calls.writeReadMemory hookImageBase "TransportNtReadVirtualMemory"
    (pointerBytes session.readMemoryBypass.address) targetProcess

def ConfigureTransport (decode : Decoder) (calls : ConfigureTransport.Calls)
    (ntdllBase hookImageBase : Nat) (session : TraceSession) (targetProcess : Target) :
    Bool × TraceSession × Target :=
  match CreateBypassTrampolineForFunction decode calls.setEvent ntdllBase
      (narrow "NtSetEvent") targetProcess with
  | (none, targetProcess) => (false, session, targetProcess)
  | (some setEventBypass, targetProcess) =>
      let session := { session with setEventBypass := setEventBypass }
      match CreateBypassTrampolineForFunction decode calls.readMemory ntdllBase
          (narrow "NtReadVirtualMemory") targetProcess with
      | (none, targetProcess) => (false, session, targetProcess)
      | (some readMemoryBypass, targetProcess) =>
          let session := { session with readMemoryBypass := readMemoryBypass }
          match ConfigureTransport.publish calls hookImageBase session targetProcess with
          | (written, targetProcess) => (written, session, targetProcess)

/-! ## Releasing -/

/-- Remote calls of `CleanupRemote`. -/
inductive CleanupRemote.Call where
  | clearRing
  | clearWakeEvent
  | clearSetEvent
  | clearReadMemory
  | unmapRing
  | closeWakeEvent
  | freeSetEvent
  | freeReadMemory
  deriving DecidableEq, Repr

/-- The exports through which a hook finds the ring, the wake event and the bypasses. -/
def transportExports : List String :=
  ["TransportRing", "TransportWakeEvent", "TransportNtSetEvent", "TransportNtReadVirtualMemory"]

/-- The four writes of `CleanupRemote`. -/
def clearExports (ok : CleanupRemote.Call → Bool) (hookImageBase : Nat) (targetProcess : Target) :
    Bool × Target :=
  let (ring, targetProcess) := WriteRemoteExport (ok .clearRing) hookImageBase "TransportRing"
    (pointerBytes 0) targetProcess
  let (wakeEvent, targetProcess) := WriteRemoteExport (ok .clearWakeEvent) hookImageBase
    "TransportWakeEvent" (pointerBytes 0) targetProcess
  let (setEvent, targetProcess) := WriteRemoteExport (ok .clearSetEvent) hookImageBase
    "TransportNtSetEvent" (pointerBytes 0) targetProcess
  let (readMemory, targetProcess) := WriteRemoteExport (ok .clearReadMemory) hookImageBase
    "TransportNtReadVirtualMemory" (pointerBytes 0) targetProcess
  (ring && wakeEvent && setEvent && readMemory, targetProcess)

def freeBypass (succeeds : Bool) (bypass : RemoteTrampoline) (targetProcess : Target) :
    Bool × Target :=
  if bypass.address ≠ 0 then (succeeds, targetProcess.VirtualFreeEx succeeds bypass.address)
  else (true, targetProcess)

/-- `CloseHandle` on the copy `DuplicateHandle` makes is not recorded. -/
def CleanupRemote (ok : CleanupRemote.Call → Bool) (hookImageBase : Nat)
    (session : TraceSession) (targetProcess : Target) : Bool × TraceSession × Target :=
  let (cleaned, targetProcess) := clearExports ok hookImageBase targetProcess
  let (unmapped, targetProcess) :=
    if session.remoteRing ≠ 0 then
      (ok .unmapRing, targetProcess.NtUnmapViewOfSection (ok .unmapRing) session.remoteRing)
    else (true, targetProcess)
  let (closed, targetProcess) :=
    if session.remoteWakeEvent ≠ 0 then
      (ok .closeWakeEvent,
        targetProcess.CloseRemoteHandle (ok .closeWakeEvent) session.remoteWakeEvent)
    else (true, targetProcess)
  let (freedSetEvent, targetProcess) :=
    freeBypass (ok .freeSetEvent) session.setEventBypass targetProcess
  let (freedReadMemory, targetProcess) :=
    freeBypass (ok .freeReadMemory) session.readMemoryBypass targetProcess
  (cleaned && unmapped && closed && freedSetEvent && freedReadMemory,
    { session with
      remoteRing := 0
      remoteWakeEvent := 0
      setEventBypass := ⟨0, 0⟩
      readMemoryBypass := ⟨0, 0⟩ },
    targetProcess)

/-- The threads are joined before the ring is released. -/
def Stop (session : TraceSession) : TraceSession :=
  { session.ReleaseLocalRing with running := false }

/-- `~TraceSession` -/
def destroy (session : TraceSession) : TraceSession :=
  let session := session.Stop
  if session.stopEvent ≠ 0 then
    { session with stopEvent := 0, log := session.log ++ [LocalAction.closeHandle session.stopEvent] }
  else session

/-! ## No image comes or goes -/

section Images

variable (targetProcess : Target) (hookImageBase : Nat)

@[simp]
theorem images_WriteRemoteExport (succeeds : Bool) (exportName : String) (value : List UInt8) :
    (WriteRemoteExport succeeds hookImageBase exportName value targetProcess).2.images =
      targetProcess.images := by
  unfold WriteRemoteExport
  cases targetProcess.GetRemoteExport hookImageBase (narrow exportName) with
  | none => rfl
  | some remoteExport =>
      dsimp only
      split_ifs
      · rfl
      · exact targetProcess.WriteProcessMemory_images _ _ _

theorem images_andThen {result : Bool × Target} {next : Target → Bool × Target}
    (unchanged : ∀ process, (next process).2.images = process.images) :
    (WriteRemoteExport.andThen result next).2.images = result.2.images := by
  unfold WriteRemoteExport.andThen
  split_ifs
  · exact unchanged _
  · rfl

theorem images_CreateSharedRing (calls : Start.Calls) (session : TraceSession) :
    (session.CreateSharedRing calls targetProcess).2.2.images = targetProcess.images := by
  unfold CreateSharedRing
  dsimp only
  split_ifs <;> simp

theorem images_Start_publish (calls : Start.Calls) (session : TraceSession) :
    (Start.publish calls hookImageBase session targetProcess).2.images =
      targetProcess.images := by
  unfold Start.publish
  rw [images_andThen, images_WriteRemoteExport]
  intro process
  rw [images_andThen, images_WriteRemoteExport]
  exact fun process => images_WriteRemoteExport _ _ _ _ _

theorem images_Start (calls : Start.Calls) (outputOptions : TraceOutputOptions)
    (session : TraceSession) :
    (session.Start calls outputOptions hookImageBase targetProcess).2.2.images =
      targetProcess.images := by
  have shared := images_CreateSharedRing targetProcess calls session
  unfold Start
  split_ifs
  · rfl
  · rfl
  · revert shared
    generalize session.CreateSharedRing calls targetProcess = outcome
    obtain ⟨created, session, process⟩ := outcome
    intro shared
    cases created with
    | false => exact shared
    | true =>
        have published := images_Start_publish process hookImageBase calls session
        dsimp only at shared ⊢
        revert published
        generalize Start.publish calls hookImageBase session process = outcome
        obtain ⟨written, after⟩ := outcome
        intro published
        cases written with
        | false => exact (after.NtUnmapViewOfSection_images _ _).trans (published.trans shared)
        | true => exact published.trans shared

theorem images_CreateBypassTrampolineForFunction (decode : Decoder)
    (calls : CreateBypassTrampoline.Calls) (moduleBase : Nat) (functionName : List UInt8) :
    (CreateBypassTrampolineForFunction decode calls moduleBase functionName
      targetProcess).2.images = targetProcess.images := by
  unfold CreateBypassTrampolineForFunction
  cases targetProcess.GetRemoteExport moduleBase functionName with
  | none => rfl
  | some remoteExport =>
      dsimp only
      split_ifs
      · rfl
      · exact (CreateBypassTrampoline_effect decode calls _ targetProcess).images

theorem images_ConfigureTransport (decode : Decoder) (calls : ConfigureTransport.Calls)
    (ntdllBase : Nat) (session : TraceSession) :
    (session.ConfigureTransport decode calls ntdllBase hookImageBase targetProcess).2.2.images =
      targetProcess.images := by
  have first := images_CreateBypassTrampolineForFunction targetProcess decode calls.setEvent
    ntdllBase (narrow "NtSetEvent")
  unfold ConfigureTransport
  revert first
  generalize CreateBypassTrampolineForFunction decode calls.setEvent ntdllBase
    (narrow "NtSetEvent") targetProcess = outcome
  obtain ⟨setEventBypass, process⟩ := outcome
  intro first
  cases setEventBypass with
  | none => exact first
  | some setEventBypass =>
      have second := images_CreateBypassTrampolineForFunction process decode calls.readMemory
        ntdllBase (narrow "NtReadVirtualMemory")
      dsimp only at first ⊢
      revert second
      generalize CreateBypassTrampolineForFunction decode calls.readMemory ntdllBase
        (narrow "NtReadVirtualMemory") process = outcome
      obtain ⟨readMemoryBypass, after⟩ := outcome
      intro second
      cases readMemoryBypass with
      | none => exact second.trans first
      | some readMemoryBypass =>
          dsimp only at second ⊢
          rw [← first, ← second]
          unfold ConfigureTransport.publish
          rw [images_andThen, images_WriteRemoteExport]
          exact fun process => images_WriteRemoteExport _ _ _ _ _

end Images

/-! ## What is released -/

/-- The remote calls that release what the session holds. -/
def heldReleases (session : TraceSession) : List RemoteAction :=
  (if session.remoteRing ≠ 0 then [.unmap session.remoteRing] else []) ++
    (if session.remoteWakeEvent ≠ 0 then [.closeHandle session.remoteWakeEvent] else []) ++
    (if session.setEventBypass.address ≠ 0 then [.free session.setEventBypass.address] else []) ++
    (if session.readMemoryBypass.address ≠ 0 then [.free session.readMemoryBypass.address] else [])

theorem writtenTo_WriteRemoteExport (succeeds : Bool) (hookImageBase : Nat) (exportName : String)
    (value : List UInt8) (targetProcess : Target) :
    targetProcess.WrittenTo
      (WriteRemoteExport succeeds hookImageBase exportName value targetProcess).2 := by
  unfold WriteRemoteExport
  cases targetProcess.GetRemoteExport hookImageBase (narrow exportName) with
  | none => exact .refl _
  | some remoteExport =>
      dsimp only
      split_ifs
      · exact .refl _
      · exact targetProcess.writtenTo_WriteProcessMemory _ _ _

theorem WriteRemoteExport_found {hookImageBase : Nat} {exportName : String}
    {targetProcess : Target} {remoteExport : RemoteExport}
    (found : targetProcess.GetRemoteExport hookImageBase (narrow exportName) = some remoteExport)
    (nonzero : remoteExport.address ≠ 0) (succeeds : Bool) (value : List UInt8) :
    WriteRemoteExport succeeds hookImageBase exportName value targetProcess =
      (succeeds, targetProcess.WriteProcessMemory succeeds remoteExport.address value) := by
  rw [WriteRemoteExport, found]
  dsimp only
  rw [if_neg nonzero]

/-- What every write of a null pointer to a transport export keeps. -/
theorem clearExports_induction {holds : Target → Prop} {hookImageBase : Nat}
    (preserved : ∀ succeeds, ∀ exportName ∈ transportExports, ∀ process, holds process →
      holds (WriteRemoteExport succeeds hookImageBase exportName (pointerBytes 0) process).2)
    {targetProcess : Target} (held : holds targetProcess) (ok : CleanupRemote.Call → Bool) :
    holds (clearExports ok hookImageBase targetProcess).2 := by
  have ring := preserved (ok .clearRing) "TransportRing" (by simp [transportExports]) _ held
  have wakeEvent := preserved (ok .clearWakeEvent) "TransportWakeEvent"
    (by simp [transportExports]) _ ring
  have setEvent := preserved (ok .clearSetEvent) "TransportNtSetEvent"
    (by simp [transportExports]) _ wakeEvent
  exact preserved (ok .clearReadMemory) "TransportNtReadVirtualMemory"
    (by simp [transportExports]) _ setEvent

theorem writtenTo_clearExports (ok : CleanupRemote.Call → Bool) (hookImageBase : Nat)
    (targetProcess : Target) :
    targetProcess.WrittenTo (clearExports ok hookImageBase targetProcess).2 :=
  clearExports_induction
    (fun succeeds exportName _ _ written => written.trans
      (writtenTo_WriteRemoteExport succeeds hookImageBase exportName _ _))
    (.refl targetProcess) ok

theorem clearExports_succeeds {ok : CleanupRemote.Call → Bool} (succeeds : ∀ call, ok call = true)
    {hookImageBase : Nat} {targetProcess : Target}
    (found : ∀ exportName ∈ transportExports, ∃ remoteExport, remoteExport.address ≠ 0 ∧
      targetProcess.GetRemoteExport hookImageBase (narrow exportName) = some remoteExport) :
    (clearExports ok hookImageBase targetProcess).1 = true := by
  have written : ∀ call, ∀ exportName ∈ transportExports, ∀ process,
      process.images = targetProcess.images →
        (WriteRemoteExport (ok call) hookImageBase exportName (pointerBytes 0) process).1 =
          true := by
    intro call exportName member process images
    obtain ⟨remoteExport, nonzero, isFound⟩ := found exportName member
    have same : process.GetRemoteExport hookImageBase (narrow exportName) = some remoteExport := by
      rw [Target.GetRemoteExport, images]
      exact isFound
    rw [WriteRemoteExport_found same nonzero]
    exact succeeds call
  unfold clearExports
  simp only [Bool.and_eq_true]
  refine ⟨⟨⟨?_, ?_⟩, ?_⟩, ?_⟩
  · exact written _ _ (by simp [transportExports]) _ rfl
  · exact written _ _ (by simp [transportExports]) _ (by simp)
  · exact written _ _ (by simp [transportExports]) _ (by simp)
  · exact written _ _ (by simp [transportExports]) _ (by simp)

theorem memory_CleanupRemote (ok : CleanupRemote.Call → Bool) (hookImageBase : Nat)
    (session : TraceSession) (targetProcess : Target) :
    (session.CleanupRemote ok hookImageBase targetProcess).2.2.memory =
      (clearExports ok hookImageBase targetProcess).2.memory := by
  unfold CleanupRemote freeBypass
  dsimp only
  split_ifs <;> simp

/-- Every resource that is held is released once. -/
theorem log_CleanupRemote {ok : CleanupRemote.Call → Bool} (unmapRing : ok .unmapRing = true)
    (closeWakeEvent : ok .closeWakeEvent = true) (freeSetEvent : ok .freeSetEvent = true)
    (freeReadMemory : ok .freeReadMemory = true) (hookImageBase : Nat) (session : TraceSession)
    (targetProcess : Target) :
    ∃ writes, OnlyWrites writes ∧
      (session.CleanupRemote ok hookImageBase targetProcess).2.2.log =
        targetProcess.log ++ writes ++ session.heldReleases := by
  obtain ⟨_, _, writes, onlyWrites, isWrites⟩ :=
    writtenTo_clearExports ok hookImageBase targetProcess
  refine ⟨writes, onlyWrites, ?_⟩
  rw [← isWrites]
  unfold CleanupRemote freeBypass heldReleases
  dsimp only
  rw [unmapRing, closeWakeEvent, freeSetEvent, freeReadMemory]
  split_ifs <;>
    simp [Target.NtUnmapViewOfSection, Target.CloseRemoteHandle, Target.VirtualFreeEx]

/-- Regions the session does not hold stay allocated. -/
theorem allocations_CleanupRemote (ok : CleanupRemote.Call → Bool) (hookImageBase : Nat)
    {session : TraceSession} {base : Nat} (ring : session.remoteRing ≠ base)
    (setEvent : session.setEventBypass.address ≠ base)
    (readMemory : session.readMemoryBypass.address ≠ base) (targetProcess : Target) :
    (session.CleanupRemote ok hookImageBase targetProcess).2.2.allocations base =
      targetProcess.allocations base := by
  have cleared := (writtenTo_clearExports ok hookImageBase targetProcess).2.1
  unfold CleanupRemote freeBypass
  dsimp only
  split_ifs <;>
    simp [Target.allocations_VirtualFreeEx_of_ne, Target.allocations_NtUnmapViewOfSection_of_ne,
      ring.symm, setEvent.symm, readMemory.symm, cleared]

theorem CleanupRemote_succeeds {ok : CleanupRemote.Call → Bool}
    (succeeds : ∀ call, ok call = true) {hookImageBase : Nat} {targetProcess : Target}
    (found : ∀ exportName ∈ transportExports, ∃ remoteExport, remoteExport.address ≠ 0 ∧
      targetProcess.GetRemoteExport hookImageBase (narrow exportName) = some remoteExport)
    (session : TraceSession) :
    (session.CleanupRemote ok hookImageBase targetProcess).1 = true := by
  have cleared := clearExports_succeeds succeeds found
  unfold CleanupRemote freeBypass
  dsimp only
  rw [cleared]
  split_ifs <;> simp [succeeds]

/-! ## Null pointers -/

/-- A null pointer spoils no byte that is null. -/
theorem null_WriteRemoteExport (succeeds : Bool) (hookImageBase : Nat) (exportName : String)
    {targetProcess : Target} {address : Nat} (null : targetProcess.memory address = 0) :
    (WriteRemoteExport succeeds hookImageBase exportName (pointerBytes 0)
      targetProcess).2.memory address = 0 := by
  unfold WriteRemoteExport
  cases targetProcess.GetRemoteExport hookImageBase (narrow exportName) with
  | none => exact null
  | some remoteExport =>
      dsimp only
      split_ifs
      · exact null
      · cases succeeds with
        | false => exact null
        | true =>
            refine Memory.write_of_eq _ (fun written member => ?_) null
            rw [pointerBytes_zero] at member
            exact List.eq_of_mem_replicate member

theorem null_clearExports (ok : CleanupRemote.Call → Bool) (hookImageBase : Nat)
    {targetProcess : Target} {address : Nat} (null : targetProcess.memory address = 0) :
    (clearExports ok hookImageBase targetProcess).2.memory address = 0 :=
  @clearExports_induction (fun process => process.memory address = 0) hookImageBase
    (fun succeeds exportName _ _ held => null_WriteRemoteExport succeeds hookImageBase exportName
      held) targetProcess null ok

/-- An export that is written to holds a null pointer. -/
theorem WriteRemoteExport_clears {hookImageBase : Nat} {exportName : String}
    {targetProcess : Target} {remoteExport : RemoteExport}
    (found : targetProcess.GetRemoteExport hookImageBase (narrow exportName) = some remoteExport)
    (nonzero : remoteExport.address ≠ 0) {address : Nat} (lower : remoteExport.address ≤ address)
    (upper : address < remoteExport.address + 8) :
    (WriteRemoteExport true hookImageBase exportName (pointerBytes 0)
      targetProcess).2.memory address = 0 := by
  rw [WriteRemoteExport_found found nonzero]
  refine Memory.write_of_inside _ lower ?_
  rw [pointerBytes_zero, List.getElem?_replicate, if_pos (by omega)]

theorem clearExports_clears {ok : CleanupRemote.Call → Bool} (succeeds : ∀ call, ok call = true)
    {hookImageBase : Nat} {targetProcess : Target} {exportName : String}
    (member : exportName ∈ transportExports) {remoteExport : RemoteExport}
    (found : targetProcess.GetRemoteExport hookImageBase (narrow exportName) = some remoteExport)
    (nonzero : remoteExport.address ≠ 0) :
    (clearExports ok hookImageBase targetProcess).2.memory.read remoteExport.address 8 =
      pointerBytes 0 := by
  rw [pointerBytes_zero]
  apply Memory.read_eq_replicate
  intro address lower upper
  have clears : ∀ process : Target, process.images = targetProcess.images →
      (WriteRemoteExport true hookImageBase exportName (pointerBytes 0) process).2.memory
        address = 0 := by
    intro process images
    refine WriteRemoteExport_clears ?_ nonzero lower upper
    rw [Target.GetRemoteExport, images]
    exact found
  unfold clearExports
  simp only [succeeds]
  simp only [transportExports, List.mem_cons, List.not_mem_nil, or_false] at member
  rcases member with rfl | rfl | rfl | rfl
  · apply null_WriteRemoteExport
    apply null_WriteRemoteExport
    apply null_WriteRemoteExport
    exact clears _ rfl
  · apply null_WriteRemoteExport
    apply null_WriteRemoteExport
    exact clears _ (by simp)
  · apply null_WriteRemoteExport
    exact clears _ (by simp)
  · exact clears _ (by simp)

end TraceSession

end ApiScope
