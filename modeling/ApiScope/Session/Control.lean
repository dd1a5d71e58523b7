import ApiScope.Cli.Quoting
import ApiScope.Library.Logged
import ApiScope.Session.EventLoop

/-!
# The debugger's side of the session

`Run`, `Attach` and `EventLoop` as the calls they make.  `Debugger` is what has to
hold between these calls, whatever the target does and whichever of them fail: an
event is continued before the next is waited for, handles are closed once, and a
target is left alone at the end.
-/

namespace ApiScope

open Transition

def DBG_CONTINUE : UInt32 := 0x00010002
def DBG_EXCEPTION_NOT_HANDLED : UInt32 := 0x80010001
def EXCEPTION_BREAKPOINT : UInt32 := 0x80000003

/-! ## Debug events -/

/-- The union of a `DEBUG_EVENT` under its code.  Handles are null where there is none. -/
inductive DebugEventInfo where
  | createProcess (image : LoadedImage) (hFile hThread hProcess : Nat)
  | createThread (hThread : Nat)
  | loadDll (image : LoadedImage) (hFile : Nat)
  | unloadDll (base : Nat)
  | exception (exceptionCode : UInt32)
  | exitProcess (exitCode : UInt32)
  | other

structure DEBUG_EVENT where
  processId : Nat
  threadId : Nat
  info : DebugEventInfo

inductive Waited where
  | timedOut
  | failed
  | event (event : DEBUG_EVENT)

/-- What `CreateProcessW` returns: two handles and the number of the process. -/
structure ProcessInformation where
  hProcess : Nat
  hThread : Nat
  processId : Nat
  process_ne_zero : hProcess ≠ 0

/-- The calls of the session, each with its answer. -/
inductive ControlAction where
  | createProcess (applicationName commandLine : List UInt16)
      (processInfo : Option ProcessInformation)
  | openProcess (processId process : Nat)
  | debugActiveProcess (processId : Nat) (succeeds : Bool)
  | setConsoleCtrlHandler (add : Bool)
  | debugBreakProcess (process : Nat) (succeeds : Bool)
  | waitForDebugEvent (waited : Waited)
  | cleanupRemote
  | drain
  | stop
  | closeHandle (handle : Nat)
  | continueDebugEvent (processId threadId : Nat) (continueStatus : UInt32) (succeeds : Bool)
  | debugActiveProcessStop (processId : Nat) (succeeds : Bool)

/-- `TraceSession::Drain`, which does what `Stop` does. -/
def TraceSession.Drain (session : TraceSession) : TraceSession :=
  { session.ReleaseLocalRing with running := false }

namespace DebugSession

namespace EventLoop

/-! ## One turn of the loop -/

/-- What one turn of the loop reads and how its calls end. -/
structure Turn where
  stopRequested : Bool
  debugBreak : Bool
  waited : Waited
  memory : Memory
  calls : Calls
  cleanup : CleanupRemote.Calls
  continued : Bool
  retryBreak : Bool
  detached : Bool

/-- The session, `process_` and the local variables that outlive a turn. -/
structure Locals where
  session : DebugSession
  process : Nat
  result : Nat := 1
  finished : Bool := false
  naturalExit : Bool := false
  targetExitCode : UInt32 := 0

/-- What the `switch` decides about an event. -/
structure Verdict where
  continueStatus : UInt32 := DBG_CONTINUE
  eventOk : Bool := true
  cleanStop : Bool := false
  retryCleanStop : Bool := false

/-- `!eventOk || cleanStop` -/
def Verdict.leaves (verdict : Verdict) : Bool := !verdict.eventOk || verdict.cleanStop

/-- `DebugBreakProcess` for a stop that has been requested; false breaks the loop. -/
def requestStop (turn : Turn) (locals : Locals) : Logged ControlAction (Bool × Locals) :=
  if turn.stopRequested && !locals.session.stopBreakRequested then
    Logged.emit (.debugBreakProcess locals.process turn.debugBreak)
      (if !turn.debugBreak then (false, locals)
      else (true, { locals with session := { locals.session with stopBreakRequested := true } }))
  else pure (true, locals)

/-- The `switch` over the code of the event. -/
def switch (decode : Decoder) (calls : Calls) (event : DEBUG_EVENT) (locals : Locals) :
    Logged ControlAction (Verdict × Locals) :=
  let session := locals.session
  match event.info with
  | .createProcess image _ _ _ =>
      let (eventOk, session) :=
        (session.withImage image).HandleCreateProcess decode calls.module image
      pure ({ eventOk }, { locals with session })
  | .loadDll image _ =>
      let (eventOk, session) := (session.withImage image).HandleLoadDll decode calls.module image
      pure ({ eventOk }, { locals with session })
  | .unloadDll base =>
      pure ({}, { locals with
        session := (session.withoutImage base).HandleUnloadDll calls.module base })
  | .exception exceptionCode =>
      if exceptionCode = EXCEPTION_BREAKPOINT then
        if session.stopBreakRequested then
          if session.IsCleanupQuiescent calls.quiescence then pure ({ cleanStop := true }, locals)
          else pure ({ retryCleanStop := true }, locals)
        else if !session.initialBreakpointSeen then
          pure ({}, { locals with session := { session with initialBreakpointSeen := true } })
        else pure ({ continueStatus := DBG_EXCEPTION_NOT_HANDLED }, locals)
      else pure ({ continueStatus := DBG_EXCEPTION_NOT_HANDLED }, locals)
  | .exitProcess exitCode =>
      Logged.emit .drain ({}, { locals with
        session := { session with traceSession := session.traceSession.Drain }
        result := if exitCode = 0 then 0 else 1
        finished := true
        naturalExit := true
        targetExitCode := exitCode })
  | .createThread _ | .other => pure ({}, locals)

def cleanup (turn : Turn) (verdict : Verdict) (locals : Locals) : Logged ControlAction Locals :=
  if verdict.leaves then
    Logged.emit .cleanupRemote
      { locals with session := (locals.session.CleanupRemote turn.cleanup).2 }
  else pure locals

def closeIfOpen (handle : Nat) : Logged ControlAction Unit :=
  if handle ≠ 0 then Logged.emit (.closeHandle handle) () else pure ()

def CloseDebugEventHandles (event : DEBUG_EVENT) : Logged ControlAction Unit :=
  match event.info with
  | .createProcess _ hFile hThread hProcess => do
      closeIfOpen hFile
      closeIfOpen hThread
      closeIfOpen hProcess
  | .createThread hThread => closeIfOpen hThread
  | .loadDll _ hFile => closeIfOpen hFile
  | .unloadDll _ | .exception _ | .exitProcess _ | .other => pure ()

/-- The second `DebugBreakProcess` after a breakpoint at which somebody was inside. -/
def retry (turn : Turn) (verdict : Verdict) (locals : Locals) : Logged ControlAction Bool :=
  if verdict.retryCleanStop then
    Logged.emit (.debugBreakProcess locals.process turn.retryBreak) turn.retryBreak
  else pure true

def detach (turn : Turn) (verdict : Verdict) (locals : Locals) :
    Logged ControlAction (Bool × Locals) :=
  if verdict.leaves then
    Logged.emit (.debugActiveProcessStop locals.session.processId turn.detached)
      (true, { locals with
        session := { locals.session with debugActive := false }
        result := if verdict.cleanStop then 0 else 1
        finished := true })
  else pure (true, locals)

/-- From `CloseDebugEventHandles` to the end of the turn; false breaks the loop. -/
def conclude (turn : Turn) (event : DEBUG_EVENT) (verdict : Verdict) (locals : Locals) :
    Logged ControlAction (Bool × Locals) := do
  CloseDebugEventHandles event
  let continued ← Logged.emit (.continueDebugEvent event.processId event.threadId
    verdict.continueStatus turn.continued) turn.continued
  if !continued then pure (false, locals)
  else do
    let retried ← retry turn verdict locals
    if !retried then pure (false, locals) else detach turn verdict locals

/-- The target has run up to the event. -/
def handle (decode : Decoder) (turn : Turn) (event : DEBUG_EVENT) (locals : Locals) :
    Logged ControlAction (Bool × Locals) := do
  let (verdict, locals) ← switch decode turn.calls event
    { locals with session := resumed locals.session turn.memory }
  let locals ← cleanup turn verdict locals
  conclude turn event verdict locals

def turn (decode : Decoder) (turn : Turn) (locals : Locals) :
    Logged ControlAction (Bool × Locals) := do
  let (goesOn, locals) ← requestStop turn locals
  if !goesOn then pure (false, locals)
  else do
    Logged.emit (.waitForDebugEvent turn.waited) ()
    match turn.waited with
    | .timedOut => pure (true, locals)
    | .failed => pure (false, locals)
    | .event event => handle decode turn event locals

/-- `while (!finished)`; true once the loop has been left. -/
def turns (decode : Decoder) : List Turn → Locals → Logged ControlAction (Bool × Locals)
  | [], locals => pure (false, locals)
  | first :: rest, locals => do
      let (goesOn, locals) ← turn decode first locals
      if !goesOn || locals.finished then pure (true, locals) else turns decode rest locals

/-- A loop that was broken leaves the target to itself. -/
def letGo (detached : Bool) (locals : Locals) : Logged ControlAction Unit :=
  if locals.session.debugActive && !locals.finished then
    Logged.emit (.debugActiveProcessStop locals.session.processId detached) ()
  else pure ()

def stopTracing (locals : Locals) : Logged ControlAction DebugSession :=
  if locals.naturalExit then pure locals.session
  else Logged.emit .stop { locals.session with traceSession := locals.session.traceSession.Stop }

/-- What follows the loop. -/
def epilogue (detached : Bool) (locals : Locals) : Logged ControlAction (Nat × DebugSession) := do
  Logged.emit (.setConsoleCtrlHandler false) ()
  letGo detached locals
  let session ← stopTracing locals
  closeIfOpen locals.process
  pure (locals.result, session)

end EventLoop

/-- The first turns of the loop, and what follows if they leave it; no result if they do not. -/
def EventLoop (decode : Decoder) (turns : List EventLoop.Turn) (detached : Bool) (process : Nat)
    (session : DebugSession) : Logged ControlAction (Option Nat × DebugSession) := do
  Logged.emit (.setConsoleCtrlHandler true) ()
  let (left, locals) ← EventLoop.turns decode turns { session, process }
  if left then do
    let (result, session) ← EventLoop.epilogue detached locals
    pure (some result, session)
  else pure (none, locals.session)

/-- The target as the operating system has created or opened it. -/
structure Launch where
  target : Target
  stopEvent : Nat
  turns : List EventLoop.Turn
  detached : Bool

/-- `DebugSession::Run` -/
def Run (decode : Decoder) (options : CommandLineOptions) (launch : Launch)
    (processInfo : Option ProcessInformation) : Logged ControlAction (Option Nat × DebugSession) := do
  Logged.emit (.createProcess (options.targetArguments.headD [])
    (BuildWindowsCommandLine options.targetArguments ++ [0]) processInfo) ()
  match processInfo with
  | none => pure (some 1, construct options launch.target 0 launch.stopEvent)
  | some processInfo => do
      Logged.emit (.closeHandle processInfo.hThread) ()
      EventLoop decode launch.turns launch.detached processInfo.hProcess
        (construct options launch.target processInfo.processId launch.stopEvent)

/-- `DebugSession::Attach` -/
def Attach (decode : Decoder) (options : CommandLineOptions) (launch : Launch) (process : Nat)
    (attached : Bool) : Logged ControlAction (Option Nat × DebugSession) := do
  let session := construct options launch.target options.targetProcessId launch.stopEvent
  Logged.emit (.openProcess options.targetProcessId process) ()
  if process = 0 then
    pure (some 1, construct options launch.target 0 launch.stopEvent)
  else do
    Logged.emit (.debugActiveProcess options.targetProcessId attached) ()
    if !attached then do
      Logged.emit (.closeHandle process) ()
      pure (some 1, session)
    else EventLoop decode launch.turns launch.detached process session

end DebugSession

/-! ## What has to hold between the calls -/

namespace DEBUG_EVENT

/-- The handles that the receiver of an event has to close, in the order of the source. -/
def handles (event : DEBUG_EVENT) : List Nat :=
  (match event.info with
    | .createProcess _ hFile hThread hProcess => [hFile, hThread, hProcess]
    | .createThread hThread => [hThread]
    | .loadDll _ hFile => [hFile]
    | .unloadDll _ | .exception _ | .exitProcess _ | .other => []).filter (· ≠ 0)

def isBreakpoint (event : DEBUG_EVENT) : Bool :=
  match event.info with
  | .exception exceptionCode => exceptionCode == EXCEPTION_BREAKPOINT
  | _ => false

def isException (event : DEBUG_EVENT) : Bool :=
  match event.info with
  | .exception _ => true
  | _ => false

/-- The exit code of the target, if the event is its end. -/
def exitCode? (event : DEBUG_EVENT) : Option UInt32 :=
  match event.info with
  | .exitProcess exitCode => some exitCode
  | _ => none

end DEBUG_EVENT

/-- An event that has been received and not been continued: the handles that are still open, the
status it has to be continued with, whether the target has been cleaned up meanwhile, and whether
the system has refused to continue it. -/
structure HeldEvent where
  event : DEBUG_EVENT
  handles : List Nat
  continueStatus : UInt32
  cleaned : Bool := false
  refused : Bool := false

/-- What a debugger owes at any time.  `opened` are the handles of its own, `debugged` is the
process it debugs, and `breakIns` counts the breakpoints it has asked for and not seen yet. -/
structure Debugger where
  opened : List Nat := []
  debugged : Option Nat := none
  handlerSet : Bool := false
  tracing : Bool := true
  held : Option HeldEvent := none
  stopping : Bool := false
  breakIns : Nat := 0
  breakpointSeen : Bool := false
  cleaned : Bool := false
  succeeded : Bool := false

namespace Debugger

/-- Exceptions are the target's own, except for the first breakpoint and for those that arrive
once a stop has been asked for. -/
def statusFor (debugger : Debugger) (event : DEBUG_EVENT) : UInt32 :=
  if event.isException && !(event.isBreakpoint &&
      (debugger.stopping || !debugger.breakpointSeen)) then
    DBG_EXCEPTION_NOT_HANDLED
  else DBG_CONTINUE

def receive (debugger : Debugger) (event : DEBUG_EVENT) : Debugger :=
  { debugger with
    debugged := if event.exitCode?.isSome then none else debugger.debugged
    held := some ⟨event, event.handles, debugger.statusFor event, false, false⟩
    breakIns :=
      if event.isBreakpoint && debugger.stopping then debugger.breakIns - 1
      else debugger.breakIns
    breakpointSeen := debugger.breakpointSeen || (event.isBreakpoint && !debugger.stopping)
    succeeded := event.exitCode? == some 0 }

/-- No event is owed, and if a stop has been asked for then a breakpoint is on its way. -/
structure MayWait (debugger : Debugger) : Prop where
  held : debugger.held = none
  debugged : debugger.debugged ≠ none
  handlerSet : debugger.handlerSet = true
  tracing : debugger.tracing = true
  stopping : debugger.stopping = true → 0 < debugger.breakIns

inductive Step : Debugger → ControlAction → Debugger → Prop where
  | createProcess {debugger : Debugger} {applicationName commandLine : List UInt16}
      {processInfo : ProcessInformation} :
      debugger.debugged = none →
      Step debugger (.createProcess applicationName commandLine (some processInfo))
        { debugger with
          opened := processInfo.hThread :: processInfo.hProcess :: debugger.opened
          debugged := some processInfo.processId }
  | createProcessFailed {debugger : Debugger} {applicationName commandLine : List UInt16} :
      Step debugger (.createProcess applicationName commandLine none) debugger
  | openProcess {debugger : Debugger} {processId process : Nat} :
      process ≠ 0 →
      Step debugger (.openProcess processId process)
        { debugger with opened := process :: debugger.opened }
  | openProcessFailed {debugger : Debugger} {processId : Nat} :
      Step debugger (.openProcess processId 0) debugger
  | debugActiveProcess {debugger : Debugger} {processId : Nat} :
      debugger.debugged = none →
      Step debugger (.debugActiveProcess processId true)
        { debugger with debugged := some processId }
  | debugActiveProcessFailed {debugger : Debugger} {processId : Nat} :
      Step debugger (.debugActiveProcess processId false) debugger
  | setHandler {debugger : Debugger} :
      debugger.handlerSet = false →
      Step debugger (.setConsoleCtrlHandler true) { debugger with handlerSet := true }
  | resetHandler {debugger : Debugger} :
      debugger.handlerSet = true →
      Step debugger (.setConsoleCtrlHandler false) { debugger with handlerSet := false }
  | breakIn {debugger : Debugger} {process : Nat} :
      debugger.held = none → debugger.debugged ≠ none → process ∈ debugger.opened →
      Step debugger (.debugBreakProcess process true)
        { debugger with stopping := true, breakIns := debugger.breakIns + 1 }
  | breakInFailed {debugger : Debugger} {process : Nat} :
      debugger.held = none → debugger.debugged ≠ none → process ∈ debugger.opened →
      Step debugger (.debugBreakProcess process false) debugger
  | timedOut {debugger : Debugger} :
      debugger.MayWait → Step debugger (.waitForDebugEvent .timedOut) debugger
  | waitFailed {debugger : Debugger} :
      debugger.MayWait → Step debugger (.waitForDebugEvent .failed) debugger
  | event {debugger : Debugger} {event : DEBUG_EVENT} :
      debugger.MayWait →
      Step debugger (.waitForDebugEvent (.event event)) (debugger.receive event)
  | drain {debugger : Debugger} {held : HeldEvent} :
      debugger.held = some held → held.event.exitCode? ≠ none → debugger.tracing = true →
      Step debugger .drain { debugger with tracing := false }
  /-- Nothing of the event has been given back yet, and a breakpoint has been asked for. -/
  | cleanupRemote {debugger : Debugger} {held : HeldEvent} :
      debugger.held = some held → held.handles = held.event.handles →
      held.event.exitCode? = none → (held.event.isBreakpoint = true → debugger.stopping = true) →
      Step debugger .cleanupRemote
        { debugger with tracing := false, held := some { held with cleaned := true } }
  | closeEventHandle {debugger : Debugger} {held : HeldEvent} {handle : Nat}
      {handles : List Nat} :
      debugger.held = some held → held.handles = handle :: handles →
      Step debugger (.closeHandle handle)
        { debugger with held := some { held with handles := handles } }
  | continueEvent {debugger : Debugger} {held : HeldEvent} :
      debugger.held = some held → held.handles = [] →
      Step debugger (.continueDebugEvent held.event.processId held.event.threadId
          held.continueStatus true)
        { debugger with held := none, cleaned := held.cleaned && held.event.isBreakpoint }
  | continueFailed {debugger : Debugger} {held : HeldEvent} :
      debugger.held = some held → held.handles = [] →
      Step debugger (.continueDebugEvent held.event.processId held.event.threadId
          held.continueStatus false)
        { debugger with held := some { held with refused := true } }
  /-- The stop has succeeded if the target has been cleaned up at a breakpoint and continued. -/
  | detach {debugger : Debugger} {processId : Nat} {succeeds : Bool} :
      debugger.debugged = some processId →
      Step debugger (.debugActiveProcessStop processId succeeds)
        { debugger with debugged := none, succeeded := debugger.cleaned }
  | stop {debugger : Debugger} :
      Step debugger .stop { debugger with tracing := false }
  | closeOwn {debugger : Debugger} {handle : Nat} :
      handle ∈ debugger.opened →
      Step debugger (.closeHandle handle)
        { debugger with opened := debugger.opened.erase handle }

def system : System Debugger ControlAction where
  initial := (· = {})
  step := Step

/-- The calls of a computation lead from one state to the other. -/
def Follows {Result : Type} (first : Debugger) (calls : Logged ControlAction Result)
    (last : Debugger) : Prop := system.Path first calls.log last

section Follows

variable {Result Other : Type} {first middle last : Debugger}

theorem follows_pure (value : Result) : Follows first (pure value) first := .refl first

theorem follows_emit {action : ControlAction} {value : Result} (step : Step first action last) :
    Follows first (Logged.emit action value) last := .single step

theorem follows_bind {calls : Logged ControlAction Result}
    {next : Result → Logged ControlAction Other} (front : Follows first calls middle)
    (rest : Follows middle (next calls.value) last) : Follows first (calls >>= next) last := by
  unfold Follows
  rw [Logged.log_bind]
  exact front.trans rest

end Follows

end Debugger

/-! ## What the handlers leave alone -/

namespace DebugSession

/-- The part of the session that only the loop itself changes. -/
structure SameControl (session next : DebugSession) : Prop where
  processId : next.processId = session.processId
  initialBreakpointSeen : next.initialBreakpointSeen = session.initialBreakpointSeen
  stopBreakRequested : next.stopBreakRequested = session.stopBreakRequested

theorem SameControl.trans {session middle next : DebugSession}
    (first : SameControl session middle) (second : SameControl middle next) :
    SameControl session next :=
  ⟨second.processId.trans first.processId,
    second.initialBreakpointSeen.trans first.initialBreakpointSeen,
    second.stopBreakRequested.trans first.stopBreakRequested⟩

theorem sameControl_InitializeDebuggee (calls : InitializeDebuggee.Calls)
    (session : DebugSession) : SameControl session (session.InitializeDebuggee calls).2 := by
  unfold InitializeDebuggee
  rcases InjectDll calls.inject session.process with ⟨hookImageBase, process⟩
  dsimp only
  split_ifs <;> exact ⟨rfl, rfl, rfl⟩

theorem sameControl_TryInstallPendingHooks (decode : Decoder)
    (install : HookDefinition → HookFunction.Calls) (session : DebugSession) :
    SameControl session (session.TryInstallPendingHooks decode install).2 := by
  refine @TryInstallPendingHooks.loop_induction decode install (SameControl session) _ _
    (fun _ _ _ _ _ same effect => same.trans ?_) ⟨rfl, rfl, rfl⟩
  cases effect <;> exact ⟨rfl, rfl, rfl⟩

theorem sameControl_RegisterModule (decode : Decoder) (calls : ModuleEvent.Calls)
    (image : LoadedImage) (session : DebugSession) :
    SameControl session (session.RegisterModule decode calls image).2 := by
  have configuring : SameControl session
      ((session.recordModule image).configureTransport decode calls.configure image).2 := by
    unfold DebugSession.configureTransport
    split_ifs <;> exact ⟨rfl, rfl, rfl⟩
  unfold DebugSession.RegisterModule
  revert configuring
  generalize (session.recordModule image).configureTransport decode calls.configure image =
    outcome
  obtain ⟨configured, next⟩ := outcome
  intro same
  split_ifs
  · exact ⟨rfl, rfl, rfl⟩
  · cases configured with
    | false => exact same
    | true =>
        dsimp only
        split_ifs
        · exact same
        · exact same.trans (sameControl_TryInstallPendingHooks decode calls.install next)

theorem sameControl_HandleCreateProcess (decode : Decoder) (calls : ModuleEvent.Calls)
    (image : LoadedImage) (session : DebugSession) :
    SameControl session (session.HandleCreateProcess decode calls image).2 := by
  have initialized := sameControl_InitializeDebuggee calls.debuggee session
  unfold DebugSession.HandleCreateProcess
  by_cases first : session.hookImageBase = 0
  · simp only [if_pos first]
    split_ifs
    · exact initialized
    · exact initialized.trans (sameControl_RegisterModule decode calls image _)
  · simp only [if_neg first]
    exact sameControl_RegisterModule decode calls image session

theorem sameControl_CleanupRemote (calls : CleanupRemote.Calls) (session : DebugSession) :
    SameControl session (session.CleanupRemote calls).2 := by
  unfold DebugSession.CleanupRemote
  dsimp only
  split_ifs <;> exact ⟨rfl, rfl, rfl⟩

end DebugSession

end ApiScope
