import ApiScope.Session.Quiescence
import ApiScope.Session.Rollbacks

/-!
# The event loop

The target stands still while an event is handled.  The loop releases
instrumentation when a module goes, when one that comes cannot be hooked, and
when it cleans up; it asks whether anybody is inside only before a clean stop,
and then neither knows the hooks it has forgotten nor whether it has seen every
thread.
-/

namespace ApiScope

namespace DebugSession

/-! ## The loop -/

inductive DebugEvent where
  | module (event : ModuleEvent)
  | breakpoint
  | exitProcess
  | other

/-- No image is mapped at a null base. -/
def DebugEvent.Based : DebugEvent → Prop
  | .module (.createProcess image) | .module (.loadDll image) => image.base ≠ 0
  | .module (.unloadDll _) | .breakpoint | .exitProcess | .other => True

/-! ## Hooks need an image -/

/-- Without a hook image there are no hooks. -/
structure Anchored (session : DebugSession) : Prop where
  null : session.process.images 0 = none
  hookless : session.hookImageBase = 0 → session.installedHooks = []

theorem Anchored.round {decode : Decoder} {install : HookDefinition → HookFunction.Calls}
    {definition : HookDefinition} {session next : DebugSession} {continues : Bool}
    (anchored : session.Anchored)
    (effect : TryInstallPendingHooks.Effect decode install definition session continues next) :
    next.Anchored := by
  obtain ⟨null, hookless⟩ := anchored
  have images := effect.frame.images
  cases effect with
  | skipped => exact ⟨null, hookless⟩
  | pending => exact ⟨null, hookless⟩
  | unresolved => exact ⟨null, hookless⟩
  | sameAddress => exact ⟨null, hookless⟩
  | failed => exact ⟨by rw [images, null], hookless⟩
  | installed _ _ _ hookEffect =>
      refine ⟨by rw [images, null], fun unmapped => ?_⟩
      dsimp only at unmapped
      cases hookEffect with
      | installed _ handler =>
          rw [unmapped, Target.GetRemoteExport, null] at handler
          cases handler

theorem Anchored.registerModule {session : DebugSession} (anchored : session.Anchored)
    (decode : Decoder) (calls : ModuleEvent.Calls) (image : LoadedImage) :
    (session.RegisterModule decode calls image).2.Anchored := by
  have configuring :
      ((session.recordModule image).configureTransport decode calls.configure image).2.Anchored :=
    ⟨by rw [images_configureTransport]; exact anchored.null, by
      unfold DebugSession.configureTransport
      split_ifs <;> exact anchored.hookless⟩
  unfold DebugSession.RegisterModule
  revert configuring
  generalize (session.recordModule image).configureTransport decode calls.configure image =
    outcome
  obtain ⟨configured, next⟩ := outcome
  intro held
  split_ifs
  · exact anchored
  · cases configured with
    | false => exact held
    | true =>
        dsimp only
        split_ifs
        · exact held
        · exact @TryInstallPendingHooks.loop_induction decode calls.install Anchored _ _
            (fun _ _ _ _ _ anchored effect => anchored.round effect) held

/-- A failed allocation maps nothing, and a null base is a failed allocation. -/
theorem images_InitializeDebuggee_null (calls : InitializeDebuggee.Calls)
    (session : DebugSession) :
    (session.InitializeDebuggee calls).2.process.images 0 = session.process.images 0 := by
  by_cases allocated : calls.inject.allocation = 0
  · unfold InitializeDebuggee InjectDll
    simp only [allocated, if_true, ite_self]
    split_ifs <;> rfl
  · exact images_InitializeDebuggee_of_ne (Ne.symm allocated) session

theorem Anchored.handleCreateProcess {session : DebugSession} (anchored : session.Anchored)
    (decode : Decoder) (calls : ModuleEvent.Calls) (image : LoadedImage) :
    (session.HandleCreateProcess decode calls image).2.Anchored := by
  unfold DebugSession.HandleCreateProcess
  by_cases first : session.hookImageBase = 0
  · have initialized : (session.InitializeDebuggee calls.debuggee).2.Anchored := by
      refine ⟨by rw [images_InitializeDebuggee_null]; exact anchored.null, fun _ => ?_⟩
      rw [(sameBooks_InitializeDebuggee calls.debuggee session).installedHooks]
      exact anchored.hookless first
    simp only [if_pos first]
    split_ifs
    · exact initialized
    · exact initialized.registerModule decode calls image
  · simp only [if_neg first]
    exact anchored.registerModule decode calls image

theorem Anchored.mapImage {session : DebugSession} (anchored : session.Anchored)
    {image : LoadedImage} (based : image.base ≠ 0) : (session.withImage image).Anchored := by
  refine ⟨?_, anchored.hookless⟩
  show Function.update session.process.images image.base (some image.exports) 0 = none
  rw [Function.update_of_ne (Ne.symm based)]
  exact anchored.null

theorem Anchored.unloadDll {session : DebugSession} (anchored : session.Anchored)
    (calls : ModuleEvent.Calls) (base : Nat) :
    ((session.withoutImage base).HandleUnloadDll calls base).Anchored := by
  constructor
  · rw [images_HandleUnloadDll]
    show Function.update session.process.images base none 0 = none
    rw [Function.update_apply]
    split_ifs
    · rfl
    · exact anchored.null
  · intro unmapped
    have hooks : session.installedHooks = [] := anchored.hookless unmapped
    have kept := HandleUnloadDll.loop_fst calls base session.installedHooks
      (session.withoutImage base).process
    rw [hooks] at kept
    show (HandleUnloadDll.loop calls base session.installedHooks _).1 = []
    rw [hooks]
    exact kept

theorem Anchored.handleModuleEvent {session : DebugSession} (anchored : session.Anchored)
    {event : ModuleEvent} (based : DebugEvent.Based (.module event)) (decode : Decoder)
    (calls : ModuleEvent.Calls) : (session.HandleModuleEvent decode calls event).2.Anchored := by
  cases event with
  | createProcess image =>
      exact (anchored.mapImage based).handleCreateProcess decode calls image
  | loadDll image => exact (anchored.mapImage based).registerModule decode calls image
  | unloadDll base => exact anchored.unloadDll calls base

/-- Without a hook image nothing is ever patched. -/
theorem TryInstallPendingHooks.strays_of_unmapped {session : DebugSession}
    (null : session.process.images 0 = none) (unmapped : session.hookImageBase = 0)
    (decode : Decoder) (install : HookDefinition → HookFunction.Calls)
    (definitions : List HookDefinition) : strays decode install definitions session = [] := by
  refine List.filterMap_eq_nil_iff.mpr fun visited isVisited => ?_
  obtain ⟨_, frame⟩ := rounds_frame decode install definitions session visited isVisited
  have nothing : ∀ address, HookFunction.stray decode (install visited.1) address
      visited.2.hookImageBase visited.1 visited.2.process = none := by
    intro address
    refine Option.eq_none_iff_forall_not_mem.mpr fun hook left => ?_
    obtain ⟨_, installed, _⟩ := HookFunction.strayed_of_stray left
    obtain ⟨handlerExport, _, handler⟩ := installed.handler
    rw [Target.GetRemoteExport, frame.images, frame.hookImageBase, unmapped, null] at handler
    cases handler
  unfold stray
  split_ifs
  · rfl
  · cases ResolveHookAddress visited.2.process visited.2.modules visited.1 with
    | mk source result =>
        cases result with
        | pending => rfl
        | error => rfl
        | resolved address base =>
            dsimp only
            split_ifs
            · rfl
            · rw [nothing address]
              rfl

/-- Where there is no hook image before or after an event, nothing is forgotten. -/
theorem HandleModuleEvent.strays_of_unmapped {session : DebugSession}
    (anchored : session.Anchored) {event : ModuleEvent}
    (based : DebugEvent.Based (.module event)) {decode : Decoder} {calls : ModuleEvent.Calls}
    (unmapped : (session.HandleModuleEvent decode calls event).2.hookImageBase = 0)
    {forgotten : List InstalledHook}
    (remembered : session.hookImageBase = 0 → forgotten = []) :
    strays decode calls event session forgotten = [] := by
  have unmappedBefore : session.hookImageBase = 0 := by
    by_contra mapped
    exact mapped ((hookImageBase_HandleModuleEvent decode calls event mapped).symm.trans unmapped)
  have null := (anchored.handleModuleEvent based decode calls).null
  have loads := HandleModuleEvent.loads decode calls event session
  rw [remembered unmappedBefore]
  cases event with
  | unloadDll base =>
      rw [strays, anchored.hookless unmappedBefore]
      rfl
  | createProcess image | loadDll image =>
      obtain ⟨_, loads⟩ := loads.resolve_left (by simp)
      rw [strays, List.nil_append]
      generalize installing decode calls _ session = entered at loads ⊢
      generalize session.HandleModuleEvent decode calls _ = outcome at loads null unmapped
      cases loads with
      | ends => rfl
      | @installs entered _ _ =>
          have frame := TryInstallPendingHooks.loop_frame decode calls.install
            entered.options.hooks entered
          rw [TryInstallPendingHooks] at null unmapped
          rw [frame.images] at null
          rw [frame.hookImageBase] at unmapped
          exact TryInstallPendingHooks.strays_of_unmapped null unmapped _ _ _

/-! ## Steps -/

namespace EventLoop

/-- How the remote calls for one event end. -/
structure Calls where
  module : ModuleEvent.Calls
  quiescence : IsCleanupQuiescent.Calls

/-- Where the loop stands: at the wait for an event, before the cleanup, with
`cleanStop` or because the event was not handled, or behind the end. -/
inductive Progress where
  | waiting
  | cleaning (cleanStop : Bool)
  | finished
  deriving DecidableEq, Repr

/-- The `switch` over the code of the event. -/
def dispatch (decode : Decoder) (calls : Calls) (event : DebugEvent) (session : DebugSession) :
    Progress × DebugSession :=
  match event with
  | .module event =>
      let (eventOk, session) := session.HandleModuleEvent decode calls.module event
      (if eventOk then .waiting else .cleaning false, session)
  | .breakpoint =>
      if session.stopBreakRequested then
        (if session.IsCleanupQuiescent calls.quiescence then .cleaning true else .waiting, session)
      else (.waiting, { session with initialBreakpointSeen := true })
  | .exitProcess => (.finished, { session with traceSession := session.traceSession.Stop })
  | .other => (.waiting, session)

/-- The hooks that are forgotten once the event has been handled. -/
def forget (decode : Decoder) (calls : Calls) (event : DebugEvent) (session : DebugSession)
    (strays : List InstalledHook) : List InstalledHook :=
  match event with
  | .module event => HandleModuleEvent.strays decode calls.module event session strays
  | .breakpoint | .exitProcess | .other => strays

/-- `strays` are the hooks that the session has forgotten. -/
structure State where
  session : DebugSession
  strays : List InstalledHook
  target : HookCalls.State
  progress : Progress

/-- Before an event the target has run, and has left its memory and its threads
in some state. -/
inductive Label where
  | requestStop
  | event (memory : Memory) (target : HookCalls.State) (event : DebugEvent) (calls : Calls)
  | cleanup (calls : CleanupRemote.Calls)
  | breaksOff

/-- The target runs up to a state of its memory. -/
def resumed (session : DebugSession) (memory : Memory) : DebugSession :=
  { session with process := { session.process with memory := memory } }

theorem GetRemoteExport_resumed (session : DebugSession) (memory : Memory)
    (functionName : List UInt8) :
    (resumed session memory).process.GetRemoteExport (resumed session memory).hookImageBase
        functionName =
      session.process.GetRemoteExport session.hookImageBase functionName := rfl

/-- The memory has no part in where instrumentation lies. -/
theorem valid_resumed {session : DebugSession} {thread : Thread}
    (valid : Thread.Valid session thread) (memory : Memory) :
    Thread.Valid (resumed session memory) thread :=
  ⟨valid.located, valid.stacked⟩

theorem placed_requested {session : DebugSession} {strays : List InstalledHook} {thread : Thread}
    (placed : Thread.Placed session strays thread) :
    Thread.Placed { session with stopBreakRequested := true } strays thread :=
  ⟨placed.located, placed.stacked⟩

/-- The threads are stopped on their way through the hooks, counted by `ActiveHookCalls`,
which lies in the hook image. -/
structure Stopped (session : DebugSession) (strays : List InstalledHook)
    (target : HookCalls.State) : Prop where
  counted : target.activeHookCalls = BitVec.ofNat 32 (HookCalls.liveGuards target.threads)
  placed : ∀ thread ∈ target.threads, Thread.Placed session strays thread
  counter : ∀ counterExport, session.hookImageBase ≠ 0 →
    session.process.GetRemoteExport session.hookImageBase (narrow "ActiveHookCalls") =
      some counterExport →
    session.process.memory.read counterExport.address 4 =
      Bytes.littleEndian 4 target.activeHookCalls.toNat

/-- Where nothing is forgotten, threads stop wherever hooked calls have taken them. -/
theorem Stopped.of_invariant {session : DebugSession} {target : HookCalls.State}
    (invariant : HookCalls.Invariant session target)
    (counter : ∀ counterExport, session.hookImageBase ≠ 0 →
      session.process.GetRemoteExport session.hookImageBase (narrow "ActiveHookCalls") =
        some counterExport →
      session.process.memory.read counterExport.address 4 =
        Bytes.littleEndian 4 target.activeHookCalls.toNat) :
    Stopped session [] target :=
  ⟨invariant.counted, fun thread member => (invariant.valid thread member).placed, counter⟩

inductive Step (decode : Decoder) : State → Label → State → Prop where
  | requestStop {session : DebugSession} {strays : List InstalledHook}
      {target : HookCalls.State} :
      Step decode ⟨session, strays, target, .waiting⟩ .requestStop
        ⟨{ session with stopBreakRequested := true }, strays, target, .waiting⟩
  | event {session next : DebugSession} {strays : List InstalledHook}
      {target target' : HookCalls.State} {memory : Memory} {event : DebugEvent} {calls : Calls}
      {progress : Progress} :
      DebugEvent.Based event →
      Stopped (resumed session memory) strays target' →
      dispatch decode calls event (resumed session memory) = (progress, next) →
      Step decode ⟨session, strays, target, .waiting⟩ (.event memory target' event calls)
        ⟨next, forget decode calls event (resumed session memory) strays, target', progress⟩
  | cleanup {session : DebugSession} {strays : List InstalledHook} {target : HookCalls.State}
      {cleanStop : Bool} {calls : CleanupRemote.Calls} :
      Step decode ⟨session, strays, target, .cleaning cleanStop⟩ (.cleanup calls)
        ⟨(session.CleanupRemote calls).2, strays, target, .finished⟩
  /-- A call of the debugger's own fails. -/
  | breaksOff {session : DebugSession} {strays : List InstalledHook} {target : HookCalls.State} :
      Step decode ⟨session, strays, target, .waiting⟩ .breaksOff
        ⟨{ session with traceSession := session.traceSession.Stop }, strays, target, .finished⟩

def system (decode : Decoder) (options : CommandLineOptions) :
    Transition.System State Label where
  initial := fun state =>
    ∃ process processId stopEvent target, process.images 0 = none ∧
      state = ⟨construct options process processId stopEvent, [], target, .waiting⟩
  step := Step decode

/-- What a step releases of the instrumentation. -/
def releases (decode : Decoder) (state : State) : Label → List Release
  | .event memory _ (.module event) calls =>
      HandleModuleEvent.releases decode calls.module event (resumed state.session memory)
  | .event _ _ _ _ => []
  | .cleanup calls => CleanupRemote.releases calls state.session
  | .requestStop | .breaksOff => []

/-- The threads while a step is taken. -/
def threads (state : State) : Label → List Thread
  | .event _ target _ _ => target.threads
  | .requestStop | .cleanup _ | .breaksOff => state.target.threads

/-- Nobody is inside what the step releases. -/
def Safe (decode : Decoder) (state : State) (label : Label) : Prop :=
  ∀ release ∈ releases decode state label, ∀ thread ∈ threads state label,
    ¬release.InUse state.session state.strays thread

/-! ## Why the clean stop is safe -/

/-- What `IsCleanupQuiescent` cannot see for itself: the counter has not wrapped, the
snapshot lists every thread, and no thread stands in a patch that is forgotten. -/
structure Overseen (session : DebugSession) (strays : List InstalledHook)
    (target : HookCalls.State) (calls : IsCleanupQuiescent.Calls) : Prop where
  few : HookCalls.liveGuards target.threads < 2 ^ 32
  listed : ∀ entries ∈ calls.snapshot, ∀ thread ∈ target.threads, ∀ frame ∈ thread.head?,
    ⟨session.processId, .denied⟩ ∈ entries ∨ ⟨session.processId, .stopped frame.address⟩ ∈ entries
  unpatched : ∀ thread ∈ target.threads, ∀ frame ∈ thread.head?, ∀ stray ∈ strays,
    ¬stray.InPatch frame.address

/-- The threads of the target are all listed if neither `Thread32First` nor `Thread32Next`
fails. -/
theorem listed_of_attempts {session : DebugSession} {attempts : IsCleanupQuiescent.Attempts}
    {threads : List SnapshotThread} {frame : Frame} {thread : SnapshotThread}
    (first : attempts.thread32First = true)
    (next : ∀ count, attempts.thread32Next count = true) (member : thread ∈ threads)
    (owned : thread.ownerProcessId = session.processId)
    (stands : thread.instructionPointer = frame.address)
    (alive : attempts.openThread thread.threadId ≠ some ERROR_INVALID_PARAMETER) :
    ⟨session.processId, .denied⟩ ∈
        (IsCleanupQuiescent.returned attempts threads).map (IsCleanupQuiescent.entryOf attempts) ∨
      ⟨session.processId, .stopped frame.address⟩ ∈
        (IsCleanupQuiescent.returned attempts threads).map
          (IsCleanupQuiescent.entryOf attempts) := by
  have everyNext : ∀ (count : Nat) (rest : List SnapshotThread),
      IsCleanupQuiescent.returnedNext attempts count rest = rest := by
    intro count rest
    induction rest generalizing count with
    | nil => rfl
    | cons entry rest inductionHypothesis =>
        rw [IsCleanupQuiescent.returnedNext, if_pos (next count), inductionHypothesis]
  have every : IsCleanupQuiescent.returned attempts threads = threads := by
    cases threads with
    | nil => rfl
    | cons entry rest => rw [IsCleanupQuiescent.returned, if_pos first, everyNext]
  have isEntry : IsCleanupQuiescent.entryOf attempts thread ∈
      threads.map (IsCleanupQuiescent.entryOf attempts) :=
    List.mem_map_of_mem member
  rw [every]
  rw [IsCleanupQuiescent.entryOf, owned] at isEntry
  cases context : IsCleanupQuiescent.contextOf attempts thread with
  | gone => exact absurd (IsCleanupQuiescent.openThread_of_gone context) alive
  | denied =>
      rw [context] at isEntry
      exact Or.inl isEntry
  | stopped instructionPointer =>
      rw [context, ← IsCleanupQuiescent.instructionPointer_of_stopped context, stands] at isEntry
      exact Or.inr isEntry

theorem loop_elsewhere {session : DebugSession} {entries : List ThreadEntry}
    (quiescent : IsCleanupQuiescent.loop session entries = true) {address : Nat}
    (listed : ⟨session.processId, .denied⟩ ∈ entries ∨
      ⟨session.processId, .stopped address⟩ ∈ entries) :
    session.IsInstrumentationAddress address = false := by
  have fine := IsCleanupQuiescent.loop_eq_true_iff.mp quiescent
  rcases listed with denied | stopped
  · rcases fine _ denied rfl with gone | ⟨_, stopped, _⟩
    · cases gone
    · cases stopped
  · rcases fine _ stopped rfl with gone | ⟨instructionPointer, same, elsewhere⟩
    · cases gone
    · cases same
      exact elsewhere

/-- What the controller reads and asks for is what `Quiescent` says of the target. -/
theorem Stopped.quiescent {session : DebugSession} {strays : List InstalledHook}
    {target : HookCalls.State} {calls : IsCleanupQuiescent.Calls}
    (stopped : Stopped session strays target) (overseen : Overseen session strays target calls)
    (mapped : session.hookImageBase ≠ 0) (quiescent : session.IsCleanupQuiescent calls = true) :
    HookCalls.Quiescent session target := by
  rw [IsCleanupQuiescent, if_neg mapped] at quiescent
  cases lookup : session.process.GetRemoteExport session.hookImageBase
      (narrow "ActiveHookCalls") with
  | none => simp [lookup] at quiescent
  | some counterExport =>
      simp only [lookup] at quiescent
      split_ifs at quiescent with unread
      push Not at unread
      cases snapshot : calls.snapshot with
      | none => simp [snapshot] at quiescent
      | some entries =>
          simp only [snapshot] at quiescent
          refine ⟨?_, fun thread member frame isTop => loop_elsewhere quiescent
            (overseen.listed entries snapshot thread member frame isTop)⟩
          have read := stopped.counter counterExport mapped lookup
          rw [unread.2.2] at read
          have value := congrArg Bytes.ofLittleEndian read
          have small : target.activeHookCalls.toNat < 256 ^ 4 := target.activeHookCalls.isLt
          rw [Bytes.ofLittleEndian_littleEndian, Bytes.ofLittleEndian_littleEndian,
            Nat.mod_eq_of_lt small] at value
          exact BitVec.eq_of_toNat_eq value.symm

theorem not_inside_of_quiescent {session : DebugSession} {strays : List InstalledHook}
    {target : HookCalls.State} {calls : IsCleanupQuiescent.Calls}
    (stopped : Stopped session strays target) (overseen : Overseen session strays target calls)
    (mapped : session.hookImageBase ≠ 0) (quiescent : session.IsCleanupQuiescent calls = true) :
    ∀ thread ∈ target.threads, ¬Thread.Inside session strays thread := by
  obtain ⟨zero, elsewhere⟩ := stopped.quiescent overseen mapped quiescent
  have unguarded := HookCalls.guards_of_zero stopped.counted overseen.few zero
  intro thread member
  have placed := stopped.placed thread member
  refine Thread.not_inside_of_outside placed
    (HookCalls.thread_outside placed.stacked (unguarded thread member) fun frame isTop =>
      (placed.located frame (List.mem_of_mem_head? isTop)).outside
        (elsewhere thread member frame isTop)
        (overseen.unpatched thread member frame isTop)) fun frame isTop hook isKnown => ?_
  rcases List.mem_append.mp isKnown with installed | forgotten
  · exact (((session.IsInstrumentationAddress_eq_false_iff _).mp
      (elsewhere thread member frame isTop)).2 hook installed).1
  · exact overseen.unpatched thread member frame isTop hook forgotten

/-- Without a hook image there is nothing to be inside of. -/
theorem not_inside_of_unmapped {session : DebugSession} {thread : Thread}
    (placed : Thread.Placed session [] thread) (unmapped : session.hookImageBase = 0)
    (hookless : session.installedHooks = []) : ¬Thread.Inside session [] thread := by
  have nowhere : ∀ address, ¬session.InHookImage address := fun address image =>
    image.1 unmapped
  have unknown : session.known [] = [] := by rw [known, hookless]; rfl
  have plain : ∀ frame ∈ thread,
      frame.phase = .outside ∨ ∃ bypass, frame.phase = .bypass bypass := by
    intro frame member
    have located := placed.located frame member
    obtain ⟨phase, address⟩ := frame
    cases phase with
    | outside => exact Or.inl rfl
    | bypass bypass => exact Or.inr ⟨bypass, rfl⟩
    | prologue | guarded | epilogue => exact absurd located (nowhere address)
    | entry hook | trampoline hook =>
        obtain ⟨isKnown, _⟩ := located
        rw [unknown] at isKnown
        cases isKnown
  have outside : ∀ frame ∈ thread, frame.phase = .outside := by
    refine HookCalls.thread_outside placed.stacked (fun frame member => ?_)
      fun frame isTop _ unsheltered => ?_
    · rcases plain frame member with same | ⟨bypass, same⟩ <;> rw [same] <;> rfl
    · refine (plain frame (List.mem_of_mem_head? isTop)).resolve_right ?_
      rintro ⟨bypass, same⟩
      rw [same] at unsheltered
      exact unsheltered trivial
  refine Thread.not_inside_of_outside placed outside fun frame _ hook isKnown => ?_
  rw [unknown] at isKnown
  cases isKnown

/-! ## Steps that find nobody inside -/

/-- Nobody uses a hook that is about to be made. -/
def Unhindered (decode : Decoder) (state : State) (memory : Memory) (target : HookCalls.State)
    (event : ModuleEvent) (calls : ModuleEvent.Calls) : Prop :=
  ∀ entered ∈ HandleModuleEvent.installing decode calls event (resumed state.session memory),
    ∀ definition ∈ entered.options.hooks, ∀ hook ∈ entered.intended calls.install definition,
      ∀ thread ∈ target.threads, ¬Thread.Uses state.session state.strays hook thread

/-- No thread uses a hook whose module goes, or one that is about to be made; the memory
that is handed out for the hook image is empty; nobody is inside when the session has
failed; and where `IsCleanupQuiescent` says yes it has not overlooked anybody. -/
def Vacated (decode : Decoder) (state : State) : Label → Prop
  | .event _ target (.module (.unloadDll base)) _ =>
      ∀ hook ∈ state.session.installedHooks,
        (hook.targetModuleBase = base ∨ hook.sourceModuleBase = base) →
          ∀ thread ∈ target.threads, ¬Thread.Uses state.session state.strays hook thread
  | .event memory target (.module (.loadDll image)) calls =>
      Unhindered decode state memory target (.loadDll image) calls.module
  | .event memory target (.module (.createProcess image)) calls =>
      (state.session.hookImageBase = 0 → ∀ thread ∈ target.threads, ∀ frame ∈ thread,
        ¬(calls.module.debuggee.inject.allocation ≤ frame.address ∧ frame.address <
          calls.module.debuggee.inject.allocation + calls.module.debuggee.inject.image.size)) ∧
      Unhindered decode state memory target (.createProcess image) calls.module
  | .event memory target .breakpoint calls =>
      state.session.hookImageBase ≠ 0 → state.session.stopBreakRequested = true →
        (resumed state.session memory).IsCleanupQuiescent calls.quiescence = true →
          Overseen state.session state.strays target calls.quiescence
  | .event _ _ _ _ => True
  | .cleanup _ =>
      state.progress = .cleaning false →
        ∀ thread ∈ state.target.threads, ¬Thread.Inside state.session state.strays thread
  | .requestStop | .breaksOff => True

/-- What the loop relies on. -/
structure Invariant (state : State) : Prop where
  anchored : state.progress ≠ .finished → state.session.Anchored
  remembered : state.progress ≠ .finished → state.session.hookImageBase = 0 → state.strays = []
  vacant : state.progress = .cleaning true → state.session.hookImageBase ≠ 0 →
    ∀ thread ∈ state.target.threads, ¬Thread.Inside state.session state.strays thread

theorem Invariant.dispatch {decode : Decoder} {calls : Calls} {event : DebugEvent}
    {session : DebugSession} {strays : List InstalledHook} {target : HookCalls.State}
    (anchored : session.Anchored) (remembered : session.hookImageBase = 0 → strays = [])
    (based : event.Based) (stopped : Stopped session strays target)
    (overseen : event = .breakpoint → session.hookImageBase ≠ 0 →
      session.stopBreakRequested = true → session.IsCleanupQuiescent calls.quiescence = true →
        Overseen session strays target calls.quiescence) :
    Invariant ⟨(EventLoop.dispatch decode calls event session).2,
      forget decode calls event session strays, target,
      (EventLoop.dispatch decode calls event session).1⟩ := by
  cases event with
  | module event =>
      refine ⟨fun _ => anchored.handleModuleEvent based decode calls.module,
        fun _ unmapped => HandleModuleEvent.strays_of_unmapped anchored based unmapped remembered,
        fun clean => ?_⟩
      have failed : (if (session.HandleModuleEvent decode calls.module event).1 then
          Progress.waiting else .cleaning false) = .cleaning true := clean
      split_ifs at failed
      cases failed
  | breakpoint =>
      by_cases requested : session.stopBreakRequested
      · rw [EventLoop.dispatch, if_pos requested]
        refine ⟨fun _ => anchored, fun _ => remembered, fun clean mapped => ?_⟩
        have quiescent : session.IsCleanupQuiescent calls.quiescence = true := by
          by_contra busy
          rw [if_neg busy] at clean
          cases clean
        exact not_inside_of_quiescent stopped (overseen rfl mapped requested quiescent) mapped
          quiescent
      · rw [EventLoop.dispatch, if_neg requested]
        exact ⟨fun _ => ⟨anchored.null, anchored.hookless⟩, fun _ => remembered,
          fun clean => by cases clean⟩
  | exitProcess =>
      exact ⟨fun running => absurd rfl running, fun running => absurd rfl running,
        fun clean => by cases clean⟩
  | other => exact ⟨fun _ => anchored, fun _ => remembered, fun clean => by cases clean⟩

theorem Invariant.step {decode : Decoder} {state next : State} {label : Label}
    (invariant : Invariant state) (step : Step decode state label next)
    (vacated : Vacated decode state label) : Invariant next := by
  cases step with
  | requestStop =>
      have anchored := invariant.anchored (by simp)
      exact ⟨fun _ => ⟨anchored.null, anchored.hookless⟩, fun _ => invariant.remembered (by simp),
        fun clean => by cases clean⟩
  | @event session _ strays _ target' memory event calls _ based stopped dispatched =>
      have anchored := invariant.anchored (by simp)
      have resumes : (resumed session memory).Anchored := ⟨anchored.null, anchored.hookless⟩
      have overseen : event = .breakpoint → (resumed session memory).hookImageBase ≠ 0 →
          (resumed session memory).stopBreakRequested = true →
          (resumed session memory).IsCleanupQuiescent calls.quiescence = true →
            Overseen (resumed session memory) strays target' calls.quiescence := by
        rintro rfl mapped requested quiescent
        obtain ⟨few, listed, unpatched⟩ := vacated mapped requested quiescent
        exact ⟨few, listed, unpatched⟩
      have handled := @Invariant.dispatch decode calls event _ _ _ resumes
        (invariant.remembered (by simp)) based stopped overseen
      rw [dispatched] at handled
      exact handled
  | cleanup =>
      exact ⟨fun running => absurd rfl running, fun running => absurd rfl running,
        fun clean => by cases clean⟩
  | breaksOff =>
      exact ⟨fun running => absurd rfl running, fun running => absurd rfl running,
        fun clean => by cases clean⟩

theorem Invariant.of_run {decode : Decoder} {options : CommandLineOptions} {labels : List Label}
    {state : State} (run : ((system decode options).restrict (Vacated decode)).Run labels state) :
    Invariant state := by
  refine @Transition.System.Run.invariant _ _ _ (fun _ state => Invariant state) ?_ ?_ _ _ run
  · rintro _ ⟨process, processId, stopEvent, target, null, rfl⟩
    exact ⟨fun _ => ⟨null, fun _ => rfl⟩, fun _ _ => rfl, fun clean => by cases clean⟩
  · rintro _ state label next invariant ⟨taken, vacated⟩
    exact Invariant.step invariant taken vacated

/-- What a step does in the target besides: it takes memory and handles, frees a bypass
that cannot be made, or releases the transport. -/
def OtherCall (session : DebugSession) : Label → RemoteAction → Prop
  | .event _ _ (.module _) calls, action => calls.module.configure.Prepares action
  | .cleanup _, action => session.ReleasesTransport action
  | .event _ _ _ _, _ | .requestStop, _ | .breaksOff, _ => False

/-- The calls a step makes in the target are its releases, writes, and the others. -/
theorem releases_made {decode : Decoder} {state next : State} {label : Label}
    (step : Step decode state label next) :
    Release.Performed (OtherCall state.session label) (releases decode state label)
      state.session.process next.session.process := by
  cases step with
  | requestStop => exact .refl _
  | breaksOff => exact .refl _
  | @event session next _ _ target' memory event calls _ _ _ dispatched =>
      have isNext : (dispatch decode calls event (resumed session memory)).2 = next :=
        congrArg Prod.snd dispatched
      subst isNext
      cases event with
      | module event =>
          exact HandleModuleEvent_performed
            (fun _ prepares => prepares : ∀ action, calls.module.configure.Prepares action →
              calls.module.configure.Prepares action) decode event (resumed session memory)
      | breakpoint =>
          rw [dispatch]
          split_ifs <;> exact .refl _
      | exitProcess | other => exact .refl _
  | @cleanup session _ _ _ calls => exact CleanupRemote.made calls session

/-- What an event releases is not in use if the event finds the threads as `Vacated` says. -/
theorem safe_event {decode : Decoder} (within : DecodesWithin decode) {state : State}
    {memory : Memory} {target : HookCalls.State} {event : ModuleEvent} {calls : Calls}
    (hookless : state.session.hookImageBase = 0 → state.session.installedHooks = [])
    (remembered : state.session.hookImageBase = 0 → state.strays = [])
    (stopped : Stopped (resumed state.session memory) state.strays target)
    (vacated : Vacated decode state (.event memory target (.module event) calls)) :
    Safe decode state (.event memory target (.module event) calls) := by
  intro release member thread inThreads inUse
  have isRelease : release ∈ HandleModuleEvent.releases decode calls.module event
      (resumed state.session memory) := member
  have installs (unhindered : Unhindered decode state memory target event calls.module) :
      ¬∃ entered ∈ HandleModuleEvent.installing decode calls.module event
          (resumed state.session memory),
        release ∈ TryInstallPendingHooks.releases decode calls.module.install
          entered.options.hooks entered := by
    rintro ⟨entered, isEntered, isRelease⟩
    obtain ⟨definition, selected, hook, isIntended, uses⟩ :=
      TryInstallPendingHooks.uses_of_inUse within isRelease inUse
    exact unhindered entered isEntered definition selected hook isIntended thread inThreads uses
  cases event with
  | unloadDll base =>
      obtain ⟨hook, installed, isHook⟩ := List.mem_flatMap.mp isRelease
      obtain ⟨unloaded, ofHook⟩ := HandleUnloadDll.mem_releases isHook
      apply vacated hook installed unloaded thread inThreads
      rcases ofHook with rfl | rfl <;> exact inUse
  | loadDll image =>
      rcases HandleModuleEvent.mem_releases isRelease with ⟨_, same⟩ | ⟨⟨_, same⟩, _⟩ | installing
      · cases same
      · cases same
      · exact installs vacated installing
  | createProcess image =>
      rcases HandleModuleEvent.mem_releases isRelease with ⟨_, same⟩ | ⟨_, unmapped, given⟩ |
          installing
      · cases same
      · have placed := stopped.placed thread inThreads
        have outside : ¬Thread.Inside state.session state.strays thread := by
          rw [remembered unmapped] at placed ⊢
          exact not_inside_of_unmapped ⟨placed.located, placed.stacked⟩ unmapped
            (hookless unmapped)
        rcases given with ⟨base, rfl⟩ | rfl
        · exact outside inUse
        · rcases inUse with inside | ⟨frame, inThread, lower, upper⟩
          · exact outside inside
          · exact vacated.1 unmapped thread inThreads frame inThread ⟨lower, upper⟩
      · exact installs vacated.2 installing

/-- In a run whose events find the threads as `Vacated` says, nothing is ever
released that a thread is inside. -/
theorem releases_vacated {decode : Decoder} (within : DecodesWithin decode)
    {options : CommandLineOptions} {labels : List Label} {state next : State} {label : Label}
    (run : ((system decode options).restrict (Vacated decode)).Run labels state)
    (step : ((system decode options).restrict (Vacated decode)).step state label next) :
    Safe decode state label := by
  obtain ⟨taken, vacated⟩ := step
  have invariant := Invariant.of_run run
  cases taken with
  | requestStop => exact fun release member => by cases member
  | breaksOff => exact fun release member => by cases member
  | @event session _ strays _ target' memory event calls _ _ stopped =>
      cases event with
      | module event =>
          exact safe_event within (invariant.anchored (by simp)).hookless
            (invariant.remembered (by simp)) stopped vacated
      | breakpoint | exitProcess | other => exact fun release member => by cases member
  | @cleanup session strays target cleanStop calls =>
      intro release member thread inThreads inUse
      have inside : Thread.Inside session strays thread :=
        CleanupRemote.inside_of_inUse member inUse
      cases cleanStop with
      | false => exact vacated rfl thread inThreads inside
      | true =>
          have anchored := invariant.anchored (by simp)
          by_cases unmapped : session.hookImageBase = 0
          · have hookless : session.installedHooks = [] := anchored.hookless unmapped
            have nothing : CleanupRemote.releases calls session = [] := by
              simp [CleanupRemote.releases, hookless, unmapped]
            rw [releases, nothing] at member
            cases member
          · exact invariant.vacant rfl unmapped thread inThreads inside

/-! ## Events while no thread is in a hook -/

/-- No thread that matters, and no active call. -/
def idle : HookCalls.State := ⟨[], 0, true⟩

/-- `ActiveHookCalls` reads as zero, if the hook image has it. -/
def CountsNone (session : DebugSession) : Prop :=
  ((session.process.GetRemoteExport session.hookImageBase (narrow "ActiveHookCalls")).all
    fun counterExport => session.process.memory.read counterExport.address 4 ==
      Bytes.littleEndian 4 0) = true

instance (session : DebugSession) : Decidable (CountsNone session) :=
  inferInstanceAs (Decidable (_ = true))

/-- The event is handled, and `ActiveHookCalls` is zero. -/
def Undisturbed (state : Tracked) : SessionLabel → Prop
  | .targetRuns _ => False
  | .event event _ handled =>
      handled = true ∧ DebugEvent.Based (.module event) ∧ CountsNone state.session

instance (event : ModuleEvent) : Decidable (DebugEvent.Based (.module event)) :=
  match event with
  | .createProcess image => inferInstanceAs (Decidable (image.base ≠ 0))
  | .loadDll image => inferInstanceAs (Decidable (image.base ≠ 0))
  | .unloadDll _ => inferInstanceAs (Decidable True)

instance (state : Tracked) (label : SessionLabel) : Decidable (Undisturbed state label) :=
  match label with
  | .targetRuns _ => inferInstanceAs (Decidable False)
  | .event _ _ _ => inferInstanceAs (Decidable (_ ∧ _ ∧ _))

theorem read_of_countsNone {session : DebugSession} (zero : CountsNone session)
    {counterExport : RemoteExport}
    (lookup : session.process.GetRemoteExport session.hookImageBase (narrow "ActiveHookCalls") =
      some counterExport) :
    session.process.memory.read counterExport.address 4 = Bytes.littleEndian 4 0 := by
  rw [CountsNone, lookup] at zero
  exact eq_of_beq zero

theorem stopped_requested {session : DebugSession} {strays : List InstalledHook}
    {target : HookCalls.State} (stopped : Stopped session strays target) :
    Stopped { session with stopBreakRequested := true } strays target :=
  ⟨stopped.counted, fun thread member => placed_requested (stopped.placed thread member),
    stopped.counter⟩

theorem stopped_idle {session : DebugSession} {strays : List InstalledHook}
    (zero : CountsNone session) : Stopped session strays idle where
  counted := rfl
  placed := by simp [idle]
  counter := fun _ _ lookup => read_of_countsNone zero lookup

theorem vacated_idle (decode : Decoder) (state : State) (memory : Memory) (event : ModuleEvent)
    (calls : Calls) : Vacated decode state (.event memory idle (.module event) calls) := by
  have nobody : ∀ thread ∈ idle.threads, False := fun _ member => List.not_mem_nil member
  cases event with
  | unloadDll base => exact fun _ _ _ thread member => (nobody thread member).elim
  | loadDll image => exact fun _ _ _ _ _ _ thread member => (nobody thread member).elim
  | createProcess image =>
      exact ⟨fun _ thread member => (nobody thread member).elim,
        fun _ _ _ _ _ _ thread member => (nobody thread member).elim⟩

section Still

variable {decode : Decoder} {options : CommandLineOptions} {session : DebugSession}
  {strays : List InstalledHook} {target target' : HookCalls.State} {event : DebugEvent}
  {calls : Calls}

/-- An event that comes before the target has run any further. -/
theorem step_event (based : event.Based) (stopped : Stopped session strays target')
    (vacated : Vacated decode ⟨session, strays, target, .waiting⟩
      (.event session.process.memory target' event calls)) :
    ((system decode options).restrict (Vacated decode)).step
      ⟨session, strays, target, .waiting⟩ (.event session.process.memory target' event calls)
      ⟨(dispatch decode calls event session).2, forget decode calls event session strays, target',
        (dispatch decode calls event session).1⟩ :=
  ⟨.event based stopped rfl, vacated⟩

theorem vacated_unloadDll {base : Nat}
    (nobody : ∀ hook ∈ session.installedHooks,
      (hook.targetModuleBase = base ∨ hook.sourceModuleBase = base) →
        ∀ thread ∈ target'.threads, ¬Thread.Uses session strays hook thread) :
    Vacated decode ⟨session, strays, target, .waiting⟩
      (.event session.process.memory target' (.module (.unloadDll base)) calls) :=
  nobody

theorem vacated_loadDll {image : LoadedImage}
    (nobody : ∀ entered ∈ HandleModuleEvent.installing decode calls.module (.loadDll image) session,
      ∀ definition ∈ entered.options.hooks,
        ∀ hook ∈ entered.intended calls.module.install definition,
          ∀ thread ∈ target'.threads, ¬Thread.Uses session strays hook thread) :
    Vacated decode ⟨session, strays, target, .waiting⟩
      (.event session.process.memory target' (.module (.loadDll image)) calls) :=
  nobody

theorem step_breakpoint {next : DebugSession} {progress : Progress}
    (stopped : Stopped session strays target')
    (overseen : Overseen session strays target' calls.quiescence)
    (dispatched : dispatch decode calls .breakpoint session = (progress, next)) :
    ((system decode options).restrict (Vacated decode)).step
      ⟨session, strays, target, .waiting⟩
      (.event session.process.memory target' .breakpoint calls)
      ⟨next, strays, target', progress⟩ :=
  ⟨.event trivial stopped dispatched, fun _ _ _ => overseen⟩

end Still

/-- Events that are all handled bring the loop back to its wait. -/
theorem path_handleAll {decode : Decoder} {options : CommandLineOptions}
    {events : List (ModuleEvent × ModuleEvent.Calls)} {state : Tracked}
    (each : Tracked.Allowed decode Undisturbed events state) :
    ∃ labels, ((system decode options).restrict (Vacated decode)).Path
      ⟨state.session, state.strays, idle, .waiting⟩ labels
      ⟨(Tracked.handleAll decode events state).session,
        (Tracked.handleAll decode events state).strays, idle, .waiting⟩ := by
  induction events generalizing state with
  | nil => exact ⟨[], .refl _⟩
  | cons first rest inductionHypothesis =>
      obtain ⟨⟨handled, based, zero⟩, others⟩ := each
      obtain ⟨labels, path⟩ := inductionHypothesis others
      have taken := @step_event decode options state.session state.strays idle idle
        (.module first.1) ⟨first.2, ⟨true, none⟩⟩ based (stopped_idle zero)
        (vacated_idle decode _ _ first.1 _)
      have waits : (dispatch decode ⟨first.2, ⟨true, none⟩⟩ (.module first.1) state.session).1 =
          .waiting :=
        if_pos handled
      rw [waits] at taken
      exact ⟨_, .cons taken path⟩

namespace Sample

/-- A hook on `b.dll`, beside the one on `a.dll`. -/
def hooks : List HookDefinition :=
  [DebugSession.Sample.hook "f",
    { moduleName := narrow "b.dll"
      exportName := narrow "g"
      handlerExport := narrow "gHandler"
      trampolineExport := narrow "gTrampoline"
      canonicalName := narrow "b.dll!g" }]

def options : CommandLineOptions := { DebugSession.Sample.options [] with hooks := hooks }

def events : List (ModuleEvent × ModuleEvent.Calls) :=
  DebugSession.Sample.started ++ [DebugSession.Sample.loaded 0x30000 [("f", 0x31000)]]

/-- The session once `f` is hooked. -/
@[irreducible]
def hooked : Tracked :=
  Tracked.handleAll DebugSession.Sample.decode events
    ⟨construct options DebugSession.Sample.process 4 5, []⟩

theorem run_hooked :
    ∃ labels, ((system DebugSession.Sample.decode options).restrict
      (Vacated DebugSession.Sample.decode)).Run labels
        ⟨hooked.session, hooked.strays, idle, .waiting⟩ := by
  have each : Tracked.Allowed DebugSession.Sample.decode Undisturbed events
      ⟨construct options DebugSession.Sample.process 4 5, []⟩ := by
    decide +kernel
  obtain ⟨labels, path⟩ := @path_handleAll _ options _ _ each
  unfold hooked
  exact ⟨labels, _, ⟨_, 4, 5, idle, rfl, rfl⟩, path⟩

/-- The one thread is in code of the target. -/
def resting : HookCalls.State := ⟨[[⟨.outside, 0x10020⟩]], 0, true⟩

theorem stopped_resting {session : DebugSession} {strays : List InstalledHook}
    (elsewhere : ¬session.Held strays 0x10020) (zero : CountsNone session) :
    Stopped session strays resting where
  counted := rfl
  placed := by
    intro thread member
    rw [List.mem_singleton.mp member]
    exact ⟨by simpa [Frame.Placed] using elsewhere, by simp [Thread.Stacked, Phase.Sheltered]⟩
  counter := fun _ _ lookup => read_of_countsNone zero lookup

/-- The trampoline of `f` cannot be freed when `a.dll` goes. -/
def unloading : Calls :=
  ⟨{ DebugSession.Sample.calls with release := fun _ call => call = .clearSlot }, ⟨true, none⟩⟩

def aUnloaded : DebugEvent := .module (.unloadDll 0x30000)

/-- `f` is forgotten. -/
@[irreducible]
def left : Tracked :=
  ⟨(dispatch DebugSession.Sample.decode unloading aUnloaded hooked.session).2,
    forget DebugSession.Sample.decode unloading aUnloaded hooked.session hooked.strays⟩

/-- The patch of `g` cannot be flushed when `b.dll` comes, and `g` is taken back. -/
def withdrawing : Calls :=
  ⟨{ DebugSession.Sample.calls with
      install := fun _ =>
        ⟨fun call => match call with | .patch .flush => false | _ => true, 0xF0000⟩ },
    ⟨true, none⟩⟩

def bLoaded (addresses : List (String × Nat)) : DebugEvent :=
  .module (.loadDll (DebugSession.Sample.image 0x40000 "b.dll" addresses))

/-- Somebody has asked for the end. -/
def stopping : DebugSession := { left.session with stopBreakRequested := true }

def systemThreads : List SnapshotThread := [⟨1, 4, true, 0x10020⟩]

def quiescence : Calls :=
  ⟨DebugSession.Sample.calls,
    { readCounter := true
      snapshot := some
        ((IsCleanupQuiescent.returned DebugSession.Sample.everything systemThreads).map
          (IsCleanupQuiescent.entryOf DebugSession.Sample.everything)) }⟩

theorem hooked_quiet :
    ¬hooked.session.Held hooked.strays 0x10020 ∧ CountsNone hooked.session ∧
      hooked.session.installedHooks = [DebugSession.Sample.firstHook] ∧ hooked.strays = [] := by
  decide +kernel

theorem left_quiet :
    ¬left.session.Held left.strays 0x10020 ∧ CountsNone left.session ∧
      left.session.processId = 4 ∧ left.session.installedHooks = [] ∧
      left.strays = [DebugSession.Sample.firstHook.unpatched] := by
  decide +kernel

/-- The session when `g` has been taken back. -/
@[irreducible]
def failed : Tracked :=
  ⟨(dispatch DebugSession.Sample.decode withdrawing (bLoaded [("g", 0x41000)]) left.session).2,
    forget DebugSession.Sample.decode withdrawing (bLoaded [("g", 0x41000)]) left.session
      left.strays⟩

abbrev Allowed : Transition.System State Label :=
  (system DebugSession.Sample.decode options).restrict (Vacated DebugSession.Sample.decode)

theorem unloads :
    Allowed.step ⟨hooked.session, hooked.strays, idle, .waiting⟩
      (.event hooked.session.process.memory resting aUnloaded unloading)
      ⟨left.session, left.strays, resting, .waiting⟩ := by
  obtain ⟨elsewhere, zero, _⟩ := hooked_quiet
  have vacated : ∀ hook ∈ hooked.session.installedHooks,
      (hook.targetModuleBase = 0x30000 ∨ hook.sourceModuleBase = 0x30000) →
        ∀ thread ∈ resting.threads, ¬Thread.Uses hooked.session hooked.strays hook thread := by
    decide +kernel
  unfold left
  exact step_event trivial (stopped_resting elsewhere zero) (vacated_unloadDll vacated)

theorem withdraws :
    Allowed.step ⟨left.session, left.strays, resting, .waiting⟩
      (.event left.session.process.memory resting (bLoaded [("g", 0x41000)]) withdrawing)
      ⟨failed.session, failed.strays, resting, .cleaning false⟩ := by
  obtain ⟨elsewhere, zero, _⟩ := left_quiet
  have unhandled : (dispatch DebugSession.Sample.decode withdrawing (bLoaded [("g", 0x41000)])
      left.session).1 = .cleaning false := by
    decide +kernel
  have vacated : ∀ entered ∈ HandleModuleEvent.installing DebugSession.Sample.decode
        withdrawing.module (.loadDll (DebugSession.Sample.image 0x40000 "b.dll" [("g", 0x41000)]))
        left.session,
      ∀ definition ∈ entered.options.hooks,
        ∀ hook ∈ entered.intended withdrawing.module.install definition,
          ∀ thread ∈ resting.threads, ¬Thread.Uses left.session left.strays hook thread := by
    decide +kernel
  have taken := @step_event _ options _ _ resting resting (bLoaded [("g", 0x41000)]) withdrawing
    (Nat.succ_ne_zero _) (stopped_resting elsewhere zero) (vacated_loadDll vacated)
  rw [unhandled] at taken
  unfold failed
  exact taken

theorem requests :
    Allowed.step ⟨left.session, left.strays, resting, .waiting⟩ .requestStop
      ⟨stopping, left.strays, resting, .waiting⟩ :=
  ⟨.requestStop, trivial⟩

theorem stopped_stopping : Stopped stopping left.strays resting := by
  obtain ⟨elsewhere, zero, _⟩ := left_quiet
  unfold stopping
  exact stopped_requested (stopped_resting elsewhere zero)

theorem dispatched_stopping :
    dispatch DebugSession.Sample.decode quiescence .breakpoint stopping =
      (.cleaning true, stopping) := by
  have quiescent : stopping.IsCleanupQuiescent quiescence.quiescence = true := by
    decide +kernel
  rw [dispatch, if_pos quiescent]
  rfl

theorem overseen_stopping : Overseen stopping left.strays resting quiescence.quiescence := by
  obtain ⟨_, _, isProcess, _, isStrays⟩ := left_quiet
  have owned : stopping.processId = 4 := isProcess
  refine ⟨by decide, fun entries isSnapshot thread member frame isTop => ?_,
    fun thread member frame isTop stray isStray => ?_⟩
  · cases isSnapshot
    rw [List.mem_singleton.mp member] at isTop
    cases isTop
    exact listed_of_attempts rfl (fun _ => rfl) List.mem_cons_self owned.symm rfl
      (by simp [DebugSession.Sample.everything])
  · rw [isStrays, List.mem_singleton] at isStray
    subst isStray
    exact fun patched => absurd (lt_of_le_of_lt patched.1 patched.2) (lt_irrefl _)

theorem breaks :
    Allowed.step ⟨stopping, left.strays, resting, .waiting⟩
      (.event stopping.process.memory resting .breakpoint quiescence)
      ⟨stopping, left.strays, resting, .cleaning true⟩ :=
  step_breakpoint stopped_stopping overseen_stopping dispatched_stopping

end Sample

/-- A module goes and leaves its hook behind; another one comes, and its hook is taken
back; the target is cleaned up, because of that or since somebody has asked for the end.  The
only thread is elsewhere. -/
theorem releases_vacated_sample :
    Safe DebugSession.Sample.decode
        ⟨Sample.hooked.session, Sample.hooked.strays, idle, .waiting⟩
        (.event Sample.hooked.session.process.memory Sample.resting Sample.aUnloaded
          Sample.unloading) ∧
      Safe DebugSession.Sample.decode
        ⟨Sample.left.session, Sample.left.strays, Sample.resting, .waiting⟩
        (.event Sample.left.session.process.memory Sample.resting
          (Sample.bLoaded [("g", 0x41000)]) Sample.withdrawing) ∧
      Safe DebugSession.Sample.decode
        ⟨Sample.failed.session, Sample.failed.strays, Sample.resting, .cleaning false⟩
        (.cleanup DebugSession.Sample.cleanup) ∧
      Safe DebugSession.Sample.decode
        ⟨Sample.stopping, Sample.left.strays, Sample.resting, .cleaning true⟩
        (.cleanup DebugSession.Sample.cleanup) := by
  obtain ⟨labels, run⟩ := Sample.run_hooked
  have within := DebugSession.Sample.decodesWithin
  have afterUnload := run.snoc Sample.unloads
  have afterWithdrawal := afterUnload.snoc Sample.withdraws
  have asked := (afterUnload.snoc Sample.requests).snoc Sample.breaks
  have nobody : ∀ thread ∈ Sample.resting.threads,
      ¬Thread.Inside Sample.failed.session Sample.failed.strays thread := by
    decide +kernel
  exact ⟨releases_vacated within run Sample.unloads,
    releases_vacated within afterUnload Sample.withdraws,
    releases_vacated within afterWithdrawal ⟨.cleanup, fun _ => nobody⟩,
    releases_vacated within asked ⟨.cleanup, fun failed => by cases failed⟩⟩

/-- Each of these steps releases something: the slot of `f`; the slot and the trampoline of
`g`; the ring and the image. -/
example :
    (releases DebugSession.Sample.decode
        ⟨Sample.hooked.session, Sample.hooked.strays, idle, .waiting⟩
        (.event Sample.hooked.session.process.memory Sample.resting Sample.aUnloaded
          Sample.unloading)).length = 1 ∧
      (releases DebugSession.Sample.decode
        ⟨Sample.left.session, Sample.left.strays, Sample.resting, .waiting⟩
        (.event Sample.left.session.process.memory Sample.resting
          (Sample.bLoaded [("g", 0x41000)]) Sample.withdrawing)).length = 2 ∧
      (releases DebugSession.Sample.decode
        ⟨Sample.stopping, Sample.left.strays, Sample.resting, .cleaning true⟩
        (.cleanup DebugSession.Sample.cleanup)).length = 2 := by
  decide +kernel

namespace Sample

/-- A thread in the original function of `f`, called by the handler. -/
def calling : HookCalls.State := HookCalls.Sample.nested 1

/-- The target has counted that call. -/
def callingMemory : Memory :=
  hooked.session.process.memory.write 0x90500 (Bytes.littleEndian 4 1)

/-- Where the controller finds `ActiveHookCalls`, and where code of the target may be. -/
theorem members_hooked :
    hooked.session.process.GetRemoteExport hooked.session.hookImageBase
        (narrow "ActiveHookCalls") = some ⟨0x90500, []⟩ ∧
      ¬hooked.session.Freed 0x31020 ∧ hooked.session.InHookImage 0x90100 := by
  decide +kernel

theorem valid_calling :
    Thread.Valid hooked.session (⟨.outside, 0x31020⟩ :: HookCalls.Sample.callers 1) := by
  obtain ⟨_, elsewhere, image⟩ := members_hooked
  refine ⟨?_, ?_⟩
  · simp only [HookCalls.Sample.callers, List.forall_mem_cons]
    exact ⟨elsewhere, image, elsewhere, by simp⟩
  · simp [HookCalls.Sample.callers, Thread.Stacked, Phase.Calls, Phase.Sheltered]

theorem stopped_calling :
    Stopped (resumed hooked.session callingMemory) hooked.strays calling := by
  rw [hooked_quiet.2.2.2]
  refine .of_invariant ⟨rfl, fun thread member => ?_⟩ fun counterExport _ lookup => ?_
  · rw [List.mem_singleton.mp member]
    exact valid_resumed valid_calling callingMemory
  · rw [GetRemoteExport_resumed, members_hooked.1] at lookup
    cases lookup
    have value : calling.activeHookCalls.toNat = 1 := by decide
    rw [value]
    exact Memory.read_write hooked.session.process.memory 0x90500 (Bytes.littleEndian 4 1)

/-- `b.dll` does not have the export that is to be hooked. -/
def failing : Calls := ⟨DebugSession.Sample.calls, ⟨true, none⟩⟩

/-- The session when the event has failed. -/
def unhandled : DebugSession :=
  (dispatch DebugSession.Sample.decode failing (bLoaded [])
    (resumed hooked.session callingMemory)).2

end Sample

/-- While a thread is in a hooked call another module is loaded and cannot be
hooked.  The cleanup frees the trampoline the thread came through. -/
theorem releases_inUse :
    ¬∀ decode options labels state label next, DecodesWithin decode →
      (system decode options).Run labels state → (system decode options).step state label next →
        Safe decode state label := by
  intro claim
  obtain ⟨labels, run⟩ := Sample.run_hooked
  have fails : (dispatch DebugSession.Sample.decode Sample.failing (Sample.bLoaded [])
      (resumed Sample.hooked.session Sample.callingMemory)).1 = .cleaning false := by
    decide +kernel
  have loaded : (system DebugSession.Sample.decode Sample.options).step
      ⟨Sample.hooked.session, Sample.hooked.strays, idle, .waiting⟩
      (.event Sample.callingMemory Sample.calling (Sample.bLoaded []) Sample.failing)
      ⟨Sample.unhandled, _, Sample.calling, .cleaning false⟩ :=
    .event (Nat.succ_ne_zero _) Sample.stopped_calling (Prod.ext fails rfl)
  have member : Release.trampoline DebugSession.Sample.firstHook ∈
      CleanupRemote.releases DebugSession.Sample.cleanup Sample.unhandled := by
    decide +kernel
  refine claim _ _ _ _ _ _ DebugSession.Sample.decodesWithin (run.of_restrict.snoc loaded)
    (.cleanup : Step _ _ (.cleanup DebugSession.Sample.cleanup) _) _ member _
    List.mem_cons_self ?_
  exact Or.inl ⟨_, List.mem_cons_of_mem _ List.mem_cons_self, _, rfl, Or.inl rfl⟩

end EventLoop

end DebugSession

end ApiScope
