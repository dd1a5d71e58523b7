import ApiScope.Session.Modules
import ApiScope.TraceSession.Resources

/-!
# The debug session

The handlers of the debug events that load and unload modules, the installation
of hooks and the cleanup of the target.  A handler takes the outcomes of the
remote calls it may make; the answers for a hook are found under its definition
when it is installed, and under the installed hook when it is removed.
-/

namespace ApiScope

/-! ## The hook image -/

/-- What `InjectDll` maps into the target. -/
structure HookImage where
  size : Nat
  content : List UInt8
  exports : ExportTable

/-- How the calls of `InjectDll` end.  `accepted` and `prepared` stand for the
checks of the file before and after the remote allocation. -/
structure InjectDll.Calls where
  image : HookImage
  accepted : Bool
  allocation : Nat
  prepared : Bool
  write : Bool
  protect : Bool
  flush : Bool
  free : Bool

/-- The operating system or the controller has laid an image out at this base. -/
def Target.mapImage (process : Target) (base : Nat) (exports : ExportTable) : Target :=
  { process with images := Function.update process.images base (some exports) }

def Target.unmapImage (process : Target) (base : Nat) : Target :=
  { process with images := Function.update process.images base none }

/-- The base of the mapped image, null on failure. -/
def InjectDll (calls : InjectDll.Calls) (process : Target) : Nat × Target :=
  if !calls.accepted then (0, process)
  else if calls.allocation = 0 then (0, process)
  else
    let process := process.VirtualAllocEx calls.allocation calls.image.size
    if !calls.prepared then (0, process.VirtualFreeEx calls.free calls.allocation)
    else
      let process :=
        process.WriteProcessMemory calls.write calls.allocation calls.image.content
      if !calls.write || !calls.protect || !calls.flush then
        (0, process.VirtualFreeEx calls.free calls.allocation)
      else (calls.allocation, process.mapImage calls.allocation calls.image.exports)

/-! ## The session -/

structure DebugSession where
  options : CommandLineOptions
  process : Target
  processId : Nat
  hookImageBase : Nat
  hookImageSize : Nat
  traceSession : TraceSession
  modules : List ModuleRecord
  installedHooks : List InstalledHook
  transportConfigured : Bool
  initialBreakpointSeen : Bool
  stopBreakRequested : Bool
  debugActive : Bool
  moduleGeneration : Nat

/-- What the debugger is told about an image the target has mapped: the path
behind the file handle, if there is one, and the names the image itself carries. -/
structure LoadedImage where
  base : Nat
  file : Option (List UInt16)
  remoteModuleName : List UInt8
  exports : ExportTable

inductive ModuleEvent where
  | createProcess (image : LoadedImage)
  | loadDll (image : LoadedImage)
  | unloadDll (base : Nat)

structure InitializeDebuggee.Calls where
  setKillOnExit : Bool
  inject : InjectDll.Calls
  imageSize : Nat
  start : TraceSession.Start.Calls

/-- How the remote calls made for one event end. -/
structure ModuleEvent.Calls where
  debuggee : InitializeDebuggee.Calls
  configure : TraceSession.ConfigureTransport.Calls
  install : HookDefinition → HookFunction.Calls
  unhook : InstalledHook → UnhookFunction.Call → Bool
  release : InstalledHook → ReleaseUnloadedHook.Call → Bool

def GetModulePath (file : Option (List UInt16)) : List UInt16 :=
  match file with
  | none => []
  | some path => if path.length = 0 ∨ path.length ≥ 32768 then [] else path

/-- The name `RegisterModule` records, empty if the module is not identified. -/
def LoadedImage.name (image : LoadedImage) : List UInt8 :=
  let name := NormalizeModuleName (NarrowAscii (GetModulePath image.file))
  if name = [] then NormalizeModuleName image.remoteModuleName else name

namespace DebugSession

/-- `DebugSession::DebugSession`, once the target has been created or attached to. -/
def construct (options : CommandLineOptions) (process : Target) (processId stopEvent : Nat) :
    DebugSession :=
  { options := options
    process := process
    processId := processId
    hookImageBase := 0
    hookImageSize := 0
    traceSession := .construct stopEvent
    modules := []
    installedHooks := []
    transportConfigured := false
    initialBreakpointSeen := false
    stopBreakRequested := false
    debugActive := false
    moduleGeneration := 0 }

def InitializeDebuggee (calls : InitializeDebuggee.Calls) (session : DebugSession) :
    Bool × DebugSession :=
  if !calls.setKillOnExit then (false, session)
  else
    let (hookImageBase, process) := InjectDll calls.inject session.process
    let session :=
      { session with
        debugActive := true
        hookImageBase := hookImageBase
        process := process }
    if hookImageBase = 0 then (false, session)
    else
      let session := { session with hookImageSize := calls.imageSize }
      if calls.imageSize = 0 then (false, session)
      else
        let (started, traceSession, process) := session.traceSession.Start calls.start
          session.options.output hookImageBase session.process
        (started, { session with traceSession := traceSession, process := process })

/-! ## Installing hooks -/

namespace TryInstallPendingHooks

/-- One round of the loop over the selected hooks; `false` ends the loop. -/
def round (decode : Decoder) (install : HookDefinition → HookFunction.Calls)
    (definition : HookDefinition) (session : DebugSession) : Bool × DebugSession :=
  if session.installedHooks.any (·.canonicalName == definition.canonicalName) then
    (true, session)
  else
    match ResolveHookAddress session.process session.modules definition with
    | (_, .pending) => (true, session)
    | (_, .error) => (false, session)
    | (sourceModuleBase, .resolved address targetModuleBase) =>
        if session.installedHooks.any (·.originalFunction == address) then (false, session)
        else
          match HookFunction decode (install definition) address session.hookImageBase
              definition session.process with
          | (none, process) => (false, { session with process := process })
          | (some hook, process) =>
              let hook :=
                { hook with
                  sourceModuleBase := sourceModuleBase.getD 0
                  targetModuleBase := targetModuleBase }
              (true,
                { session with
                  process := process
                  installedHooks := session.installedHooks ++ [hook] })

def loop (decode : Decoder) (install : HookDefinition → HookFunction.Calls) :
    List HookDefinition → DebugSession → Bool × DebugSession
  | [], session => (true, session)
  | definition :: rest, session =>
      match round decode install definition session with
      | (false, session) => (false, session)
      | (true, session) => loop decode install rest session

end TryInstallPendingHooks

def TryInstallPendingHooks (decode : Decoder) (install : HookDefinition → HookFunction.Calls)
    (session : DebugSession) : Bool × DebugSession :=
  TryInstallPendingHooks.loop decode install session.options.hooks session

/-! ## Modules that come and go -/

/-- `modules_[base] = module` for the next generation. -/
def recordModule (image : LoadedImage) (session : DebugSession) : DebugSession :=
  let moduleGeneration := session.moduleGeneration + 1
  { session with
    moduleGeneration := moduleGeneration
    modules := insertModule
      { base := image.base
        path := GetModulePath image.file
        name := image.name
        generation := moduleGeneration } session.modules }

/-- The bypasses are made when the first `ntdll.dll` is registered. -/
def configureTransport (decode : Decoder) (calls : TraceSession.ConfigureTransport.Calls)
    (image : LoadedImage) (session : DebugSession) : Bool × DebugSession :=
  if image.name = narrow "ntdll.dll" ∧ session.transportConfigured = false then
    let (configured, traceSession, process) := session.traceSession.ConfigureTransport decode
      calls image.base session.hookImageBase session.process
    (configured,
      { session with
        traceSession := traceSession
        process := process
        transportConfigured := configured })
  else (true, session)

def RegisterModule (decode : Decoder) (calls : ModuleEvent.Calls) (image : LoadedImage)
    (session : DebugSession) : Bool × DebugSession :=
  if image.name = [] then (true, session)
  else
    match (session.recordModule image).configureTransport decode calls.configure image with
    | (false, session) => (false, session)
    | (true, session) =>
        if !session.transportConfigured then (true, session)
        else session.TryInstallPendingHooks decode calls.install

def HandleCreateProcess (decode : Decoder) (calls : ModuleEvent.Calls) (image : LoadedImage)
    (session : DebugSession) : Bool × DebugSession :=
  let (initialized, session) :=
    if session.hookImageBase = 0 then session.InitializeDebuggee calls.debuggee
    else (true, session)
  if !initialized then (false, session)
  else session.RegisterModule decode calls image

def HandleLoadDll (decode : Decoder) (calls : ModuleEvent.Calls) (image : LoadedImage)
    (session : DebugSession) : Bool × DebugSession :=
  session.RegisterModule decode calls image

/-- The loop of `HandleUnloadDll`; it returns the hooks it keeps. -/
def HandleUnloadDll.loop (calls : ModuleEvent.Calls) (base : Nat) :
    List InstalledHook → Target → List InstalledHook × Target
  | [], process => ([], process)
  | hook :: rest, process =>
      if hook.targetModuleBase = base then
        loop calls base rest (ReleaseUnloadedHook (calls.release hook) hook process).2
      else if hook.sourceModuleBase = base then
        loop calls base rest (UnhookFunction (calls.unhook hook) hook process).2
      else
        let (kept, process) := loop calls base rest process
        (hook :: kept, process)

def HandleUnloadDll (calls : ModuleEvent.Calls) (base : Nat) (session : DebugSession) :
    DebugSession :=
  let (installedHooks, process) :=
    HandleUnloadDll.loop calls base session.installedHooks session.process
  { session with
    installedHooks := installedHooks
    process := process
    modules := eraseModule base session.modules }

/-- The target has mapped an image. -/
def withImage (session : DebugSession) (image : LoadedImage) : DebugSession :=
  { session with process := session.process.mapImage image.base image.exports }

/-- The target has unmapped an image. -/
def withoutImage (session : DebugSession) (base : Nat) : DebugSession :=
  { session with process := session.process.unmapImage base }

/-- The image has come or gone before the debugger is told. -/
def HandleModuleEvent (decode : Decoder) (calls : ModuleEvent.Calls) (event : ModuleEvent)
    (session : DebugSession) : Bool × DebugSession :=
  match event with
  | .createProcess image => (session.withImage image).HandleCreateProcess decode calls image
  | .loadDll image => (session.withImage image).HandleLoadDll decode calls image
  | .unloadDll base => (true, (session.withoutImage base).HandleUnloadDll calls base)

/-! ## Cleanup -/

/-- How the remote calls of `CleanupRemote` end. -/
structure CleanupRemote.Calls where
  unhook : InstalledHook → UnhookFunction.Call → Bool
  transport : TraceSession.CleanupRemote.Call → Bool
  freeImage : Bool

/-- The loop over the installed hooks, given in the order in which they are removed. -/
def CleanupRemote.loop (unhook : InstalledHook → UnhookFunction.Call → Bool) :
    List InstalledHook → Target → Bool × Target
  | [], process => (true, process)
  | hook :: rest, process =>
      let (unhooked, process) := UnhookFunction (unhook hook) hook process
      let (cleaned, process) := loop unhook rest process
      (unhooked && cleaned, process)

def CleanupRemote (calls : CleanupRemote.Calls) (session : DebugSession) :
    Bool × DebugSession :=
  let (unhooked, process) :=
    CleanupRemote.loop calls.unhook session.installedHooks.reverse session.process
  let session := { session with process := process, installedHooks := [] }
  if session.hookImageBase = 0 then
    (unhooked, { session with traceSession := session.traceSession.Stop })
  else
    let (cleaned, traceSession, process) := session.traceSession.CleanupRemote calls.transport
      session.hookImageBase session.process
    (calls.freeImage && cleaned && unhooked,
      { session with
        traceSession := traceSession.Stop
        process := process.VirtualFreeEx calls.freeImage session.hookImageBase
        hookImageBase := 0 })

/-! ## Quiescence -/

def IsInstrumentationAddress (session : DebugSession) (instructionPointer : Nat) : Bool :=
  (session.hookImageBase ≠ 0 && session.hookImageBase ≤ instructionPointer &&
    instructionPointer < session.hookImageBase + session.hookImageSize) ||
  session.installedHooks.any fun hook =>
    (hook.originalFunction ≤ instructionPointer &&
      instructionPointer < hook.originalFunction + hook.originalBytes.length) ||
    (hook.trampolineAddress ≤ instructionPointer &&
      instructionPointer < hook.trampolineAddress + 1024)

/-- What `OpenThread` and `GetThreadContext` answer. -/
inductive ThreadContext where
  | gone
  | denied
  | stopped (instructionPointer : Nat)
  deriving DecidableEq, Repr

structure ThreadEntry where
  ownerProcessId : Nat
  context : ThreadContext
  deriving DecidableEq, Repr

structure IsCleanupQuiescent.Calls where
  readCounter : Bool
  snapshot : Option (List ThreadEntry)

/-- The loop over the snapshot. -/
def IsCleanupQuiescent.loop (session : DebugSession) : List ThreadEntry → Bool
  | [] => true
  | entry :: rest =>
      if entry.ownerProcessId ≠ session.processId then loop session rest
      else
        match entry.context with
        | .gone => loop session rest
        | .denied => false
        | .stopped instructionPointer =>
            if session.IsInstrumentationAddress instructionPointer then false
            else loop session rest

def IsCleanupQuiescent (calls : IsCleanupQuiescent.Calls) (session : DebugSession) : Bool :=
  if session.hookImageBase = 0 then true
  else
    match session.process.GetRemoteExport session.hookImageBase (narrow "ActiveHookCalls") with
    | none => false
    | some counterExport =>
        if counterExport.address = 0 ∨ calls.readCounter = false ∨
            session.process.memory.read counterExport.address 4 ≠ Bytes.littleEndian 4 0 then
          false
        else
          match calls.snapshot with
          | none => false
          | some entries => IsCleanupQuiescent.loop session entries

end DebugSession

end ApiScope
