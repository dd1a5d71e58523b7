import ApiScope.Session.Detach
import ApiScope.TraceSession.Custody

/-!
# A setup that fails

A handler may give up at any of its calls.  As long as nothing goes on behind
a failure the members of the session say what it holds, and the cleanup gives
back just that.
-/

namespace ApiScope

/-- Whatever is given back is given back successfully, and what the calls return
is not null. -/
structure ModuleEvent.Calls.Releases (calls : ModuleEvent.Calls) : Prop where
  inject : calls.debuggee.inject.free = true
  start : calls.debuggee.start.Releases
  configure : calls.configure.Releases
  trampoline : ∀ definition, (calls.install definition).ok (.trampoline .free) = true
  hook : ∀ definition, (calls.install definition).ok .free = true
  unhook : ∀ hook call, calls.unhook hook call = true
  release : ∀ hook call, calls.release hook call = true

structure DebugSession.CleanupRemote.Calls.Releases (calls : DebugSession.CleanupRemote.Calls) :
    Prop where
  unhook : ∀ hook call, calls.unhook hook call = true
  unmapRing : calls.transport .unmapRing = true
  closeWakeEvent : calls.transport .closeWakeEvent = true
  freeSetEvent : calls.transport .freeSetEvent = true
  freeReadMemory : calls.transport .freeReadMemory = true
  freeImage : calls.freeImage = true

def SessionLabel.Handled : SessionLabel → Prop
  | .targetRuns _ => True
  | .event _ _ handled => handled = true

/-- The trampolines of these hooks, the last one first. -/
def trampolines (hooks : List InstalledHook) : List RemoteResource :=
  hooks.reverse.map fun hook => .region hook.trampolineAddress

theorem trampolines_snoc (hooks : List InstalledHook) (hook : InstalledHook) :
    trampolines (hooks ++ [hook]) = .region hook.trampolineAddress :: trampolines hooks := by
  simp [trampolines]

theorem trampolines_cons (hook : InstalledHook) (hooks : List InstalledHook) :
    (trampolines (hook :: hooks) : Multiset RemoteResource) =
      .region hook.trampolineAddress ::ₘ (trampolines hooks : Multiset RemoteResource) := by
  simp [trampolines, ← Multiset.singleton_add, add_comm, ← Multiset.coe_add]

namespace DebugSession

/-- The debugger hears of the process before it hears of any other module. -/
def Setup (session : DebugSession) : SessionLabel → Prop
  | .targetRuns _ => True
  | .event event calls _ =>
      calls.Releases ∧ (session.hookImageBase = 0 → ∃ image, event = .createProcess image)

/-- Sessions in which nothing has failed. -/
def setup (decode : Decoder) (options : CommandLineOptions) :
    Transition.System DebugSession SessionLabel :=
  (system decode options).restrict fun session label => session.Setup label ∧ label.Handled

/-- What the session holds in the target, in the order in which it is released. -/
def remoteResources (session : DebugSession) : List RemoteResource :=
  trampolines session.installedHooks ++ session.traceSession.remoteResources ++
    heldAt .region session.hookImageBase

/-- The members of the session say what is outstanding. -/
structure Accounted (session : DebugSession) : Prop where
  onTarget : session.process.Accounts session.remoteResources
  onController : session.traceSession.LocalAccounts
  valid : ∀ hook ∈ session.installedHooks, hook.Valid
  unmapped : session.hookImageBase = 0 → session.traceSession.remoteResources = []

/-- Nothing has failed so far, and the next step finds what it expects. -/
structure Ready (session : DebugSession) : Prop extends Accounted session where
  started : session.hookImageBase = 0 →
    session.traceSession.Idle ∧ session.transportConfigured = false
  unconfigured : session.transportConfigured = false →
    session.traceSession.setEventBypass.address = 0 ∧
      session.traceSession.readMemoryBypass.address = 0

theorem ready_construct (options : CommandLineOptions) {process : Target}
    (fresh : process.log = []) (processId stopEvent : Nat) :
    (construct options process processId stopEvent).Ready where
  onTarget := by
    have noEntry : process.ledger = [] := by
      rw [Target.ledger, fresh]
      rfl
    show Custody.Holds process.ledger 0
    rw [noEntry]
    exact .start
  onController := TraceSession.localAccounts_construct stopEvent
  valid := by simp [construct]
  unmapped := fun _ => rfl
  started := fun _ => ⟨⟨rfl, rfl, rfl, rfl, rfl⟩, rfl⟩
  unconfigured := fun _ => ⟨rfl, rfl⟩

/-! ## Starting -/

/-- The base of the hook image is null unless the image is mapped. -/
theorem InjectDll_accounts {calls : InjectDll.Calls} (freed : calls.free = true)
    {process : Target} {held : Multiset RemoteResource} (accounts : process.Accounts held) :
    (InjectDll calls process).2.Accounts
      ((heldAt RemoteResource.region (InjectDll calls process).1 : Multiset RemoteResource) +
        held) := by
  unfold InjectDll
  dsimp only
  split_ifs with refused noMemory unprepared unfinished
  · simpa using accounts
  · simpa using accounts
  · simpa using (accounts.allocate noMemory _).free freed
  · simpa using ((accounts.allocate noMemory _).write _ _ _).free freed
  · rw [heldAt_of_ne _ noMemory, Multiset.coe_singleton, Multiset.singleton_add]
    exact (accounts.allocate noMemory _).write _ _ _

/-- The resources of a session are those of its parts. -/
theorem coe_remoteResources (session : DebugSession) :
    (session.remoteResources : Multiset RemoteResource) =
      (trampolines session.installedHooks : Multiset RemoteResource) +
        ((session.traceSession.remoteRingResources : Multiset RemoteResource) +
          (session.traceSession.bypassResources : Multiset RemoteResource)) +
        (heldAt RemoteResource.region session.hookImageBase : Multiset RemoteResource) := by
  simp [remoteResources, TraceSession.remoteResources, ← Multiset.coe_add, add_assoc]

theorem mapped_InitializeDebuggee (calls : InitializeDebuggee.Calls) (session : DebugSession) :
    (session.InitializeDebuggee calls).1 = true →
      (session.InitializeDebuggee calls).2.hookImageBase ≠ 0 := by
  unfold InitializeDebuggee
  rcases InjectDll calls.inject session.process with ⟨hookImageBase, process⟩
  dsimp only
  split_ifs with _ noImage
  · simp
  · simp
  · simp
  · exact fun _ => noImage

theorem accounted_InitializeDebuggee {calls : InitializeDebuggee.Calls}
    (freed : calls.inject.free = true) (releases : calls.start.Releases) {session : DebugSession}
    (ready : session.Ready) (unmapped : session.hookImageBase = 0) :
    (session.InitializeDebuggee calls).2.Accounted ∧
      ((session.InitializeDebuggee calls).1 = true →
        (session.InitializeDebuggee calls).2.Ready) := by
  have injected := InjectDll_accounts freed ready.onTarget
  unfold InitializeDebuggee
  by_cases refused : calls.setKillOnExit = false
  · rw [refused, Bool.not_false, if_pos rfl]
    exact ⟨ready.toAccounted, by simp⟩
  rw [if_neg (by simpa using refused)]
  revert injected
  generalize InjectDll calls.inject session.process = outcome
  obtain ⟨hookImageBase, process⟩ := outcome
  intro injected
  dsimp only at injected ⊢
  have onTarget : process.Accounts ((trampolines session.installedHooks : Multiset _) +
      ((session.traceSession.remoteRingResources : Multiset RemoteResource) +
        (session.traceSession.bypassResources : Multiset RemoteResource)) +
      (heldAt RemoteResource.region hookImageBase : Multiset RemoteResource)) := by
    rw [coe_remoteResources, unmapped, heldAt_zero, Multiset.coe_nil, add_zero, add_comm] at injected
    exact injected
  by_cases noImage : hookImageBase = 0
  · rw [if_pos noImage]
    refine ⟨⟨?_, ready.onController, ready.valid, fun _ => ready.unmapped unmapped⟩, by simp⟩
    rw [coe_remoteResources]
    exact onTarget
  rw [if_neg noImage]
  by_cases noSize : calls.imageSize = 0
  · rw [if_pos noSize]
    refine ⟨⟨?_, ready.onController, ready.valid, fun null => absurd null noImage⟩, by simp⟩
    rw [coe_remoteResources]
    exact onTarget
  rw [if_neg noSize]
  have idle := (ready.started unmapped).1
  have outcome := TraceSession.Start_outcome releases idle ready.onController onTarget
    session.options.output hookImageBase
  revert outcome
  generalize session.traceSession.Start calls.start session.options.output hookImageBase process =
    outcome
  obtain ⟨started, traceSession, after⟩ := outcome
  intro outcome
  dsimp only at outcome ⊢
  have bypasses : traceSession.bypassResources = session.traceSession.bypassResources := by
    rw [TraceSession.bypassResources, outcome.setEventBypass, outcome.readMemoryBypass]
    rfl
  have accounted : { session with
      debugActive := true
      hookImageBase := hookImageBase
      process := after
      hookImageSize := calls.imageSize
      traceSession := traceSession }.Accounted := by
    refine ⟨?_, outcome.onController, ready.valid, fun null => absurd null noImage⟩
    have started := outcome.onTarget
    rw [idle.remoteRingResources, Multiset.coe_nil, zero_add] at started
    rw [coe_remoteResources]
    dsimp only
    rw [bypasses]
    convert started using 1
    abel
  refine ⟨accounted, fun _ => ⟨accounted, fun null => absurd null noImage, fun unconfigured => ?_⟩⟩
  have noBypass := ready.unconfigured unconfigured
  exact ⟨by rw [outcome.setEventBypass]; exact noBypass.1,
    by rw [outcome.readMemoryBypass]; exact noBypass.2⟩

/-! ## Registering modules -/

/-- One round adds a trampoline only with its hook. -/
theorem Accounted.round {decode : Decoder} {install : HookDefinition → HookFunction.Calls}
    {definition : HookDefinition} (hook : (install definition).ok .free = true)
    (trampoline : (install definition).ok (.trampoline .free) = true)
    {session next : DebugSession} {continues : Bool} (accounted : session.Accounted)
    (effect : TryInstallPendingHooks.Effect decode install definition session continues next) :
    next.Accounted := by
  cases effect with
  | skipped => exact accounted
  | pending => exact accounted
  | unresolved => exact accounted
  | sameAddress => exact accounted
  | failed _ _ _ hookEffect =>
      refine ⟨?_, accounted.onController, accounted.valid, accounted.unmapped⟩
      exact hookEffect.accounts_none hook trampoline accounted.onTarget
  | installed _ _ _ hookEffect =>
      obtain ⟨valid, onTarget⟩ := hookEffect.accounts_some accounted.onTarget
      refine ⟨?_, accounted.onController, ?_, accounted.unmapped⟩
      · rw [remoteResources, trampolines_snoc]
        exact onTarget
      · intro other member
        rcases List.mem_append.mp member with old | new
        · exact accounted.valid other old
        · rw [List.mem_singleton.mp new]
          exact valid

theorem accounted_configureTransport {decode : Decoder}
    {calls : TraceSession.ConfigureTransport.Calls} (releases : calls.Releases)
    {session : DebugSession} (ready : session.Ready) (mapped : session.hookImageBase ≠ 0)
    (image : LoadedImage) :
    (session.configureTransport decode calls image).2.Accounted ∧
      (session.configureTransport decode calls image).2.hookImageBase ≠ 0 ∧
      ((session.configureTransport decode calls image).1 = true →
        (session.configureTransport decode calls image).2.Ready) := by
  unfold configureTransport
  by_cases configures : image.name = narrow "ntdll.dll" ∧ session.transportConfigured = false
  · rw [if_pos configures]
    obtain ⟨noSetEvent, noReadMemory⟩ := ready.unconfigured configures.2
    have onTarget := ready.onTarget
    have noBypass : session.traceSession.bypassResources = [] := by
      rw [TraceSession.bypassResources, noSetEvent, noReadMemory]
      rfl
    rw [coe_remoteResources, noBypass, Multiset.coe_nil, add_zero] at onTarget
    have outcome := @TraceSession.ConfigureTransport_accounts decode session.process _ calls
      releases session.traceSession noSetEvent noReadMemory onTarget image.base
      session.hookImageBase
    obtain ⟨setEventBypass, readMemoryBypass, members⟩ :=
      TraceSession.ConfigureTransport_members decode calls session.traceSession image.base
        session.hookImageBase session.process
    revert outcome members
    generalize session.traceSession.ConfigureTransport decode calls image.base
      session.hookImageBase session.process = outcome
    obtain ⟨configured, traceSession, process⟩ := outcome
    rintro outcome members
    dsimp only at outcome members ⊢
    have accounted : { session with
        traceSession := traceSession
        process := process
        transportConfigured := configured }.Accounted := by
      refine ⟨?_, ?_, ready.valid, fun null => absurd null mapped⟩
      · rw [coe_remoteResources]
        dsimp only
        have ring : traceSession.remoteRingResources =
            session.traceSession.remoteRingResources := by
          rw [members]
          rfl
        rw [ring]
        convert outcome using 1
        abel
      · dsimp only
        rw [members]
        exact ready.onController
    refine ⟨accounted, mapped, fun isConfigured => ⟨accounted, fun null => absurd null mapped, ?_⟩⟩
    intro unconfigured
    exact absurd (isConfigured.symm.trans unconfigured) (by decide)
  · rw [if_neg configures]
    exact ⟨ready.toAccounted, mapped, fun _ => ready⟩

theorem accounted_RegisterModule {decode : Decoder} {calls : ModuleEvent.Calls}
    (releases : calls.Releases) {session : DebugSession} (ready : session.Ready)
    (mapped : session.hookImageBase ≠ 0) (image : LoadedImage) :
    (session.RegisterModule decode calls image).2.Accounted ∧
      ((session.RegisterModule decode calls image).1 = true →
        (session.RegisterModule decode calls image).2.Ready) := by
  unfold RegisterModule
  by_cases unnamed : image.name = []
  · rw [if_pos unnamed]
    exact ⟨ready.toAccounted, fun _ => ready⟩
  rw [if_neg unnamed]
  have recorded : (session.recordModule image).Ready :=
    ⟨⟨ready.onTarget, ready.onController, ready.valid, ready.unmapped⟩, ready.started,
      ready.unconfigured⟩
  have configuring := @accounted_configureTransport decode _ releases.configure _ recorded mapped
    image
  revert configuring
  generalize (session.recordModule image).configureTransport decode calls.configure image =
    outcome
  obtain ⟨configured, next⟩ := outcome
  rintro ⟨accounted, stillMapped, onSuccess⟩
  cases configured with
  | false => exact ⟨accounted, by simp⟩
  | true =>
      dsimp only
      by_cases unconfigured : next.transportConfigured = false
      · rw [unconfigured, Bool.not_false, if_pos rfl]
        exact ⟨accounted, onSuccess⟩
      rw [if_neg (by simpa using unconfigured), TryInstallPendingHooks]
      have installed : (TryInstallPendingHooks.loop decode calls.install next.options.hooks
          next).2.Accounted :=
        TryInstallPendingHooks.loop_induction
          (fun definition _ _ _ _ held effect => held.round (releases.hook definition)
            (releases.trampoline definition) effect) accounted
      have frame := TryInstallPendingHooks.loop_frame decode calls.install next.options.hooks next
      refine ⟨installed, fun _ => ⟨installed, fun null => ?_, fun notConfigured => ?_⟩⟩
      · rw [frame.hookImageBase] at null
        exact absurd null stillMapped
      · rw [frame.transportConfigured] at notConfigured
        exact absurd notConfigured unconfigured

/-! ## Unloading -/

theorem ReleaseUnloadedHook_accounts {ok : ReleaseUnloadedHook.Call → Bool}
    (released : ∀ call, ok call = true) {hook : InstalledHook} {process : Target}
    {held : Multiset RemoteResource}
    (accounts : process.Accounts (.region hook.trampolineAddress ::ₘ held)) :
    (ReleaseUnloadedHook ok hook process).2.Accounts held :=
  (accounts.write _ _ _).free (released .free)

theorem UnhookFunction_accounts {ok : UnhookFunction.Call → Bool}
    (released : ∀ call, ok call = true) {hook : InstalledHook} (valid : hook.Valid)
    {process : Target} {held : Multiset RemoteResource}
    (accounts : process.Accounts (.region hook.trampolineAddress ::ₘ held)) :
    (UnhookFunction ok hook process).2.Accounts held := by
  rw [UnhookFunction_succeeds released valid]
  exact ((accounts.write _ _ _).write _ _ _).free rfl

theorem HandleUnloadDll.loop_accounts {calls : ModuleEvent.Calls} (releases : calls.Releases)
    {hooks : List InstalledHook} (valid : ∀ hook ∈ hooks, hook.Valid) {process : Target}
    {held : Multiset RemoteResource}
    (accounts : process.Accounts ((trampolines hooks : Multiset RemoteResource) + held))
    (base : Nat) :
    (loop calls base hooks process).2.Accounts
      ((trampolines (loop calls base hooks process).1 : Multiset RemoteResource) + held) := by
  induction hooks generalizing process held with
  | nil => exact accounts
  | cons hook rest inductionHypothesis =>
      rw [List.forall_mem_cons] at valid
      rw [trampolines_cons, Multiset.cons_add] at accounts
      rw [loop]
      split_ifs with isTarget isSource
      · exact inductionHypothesis valid.2
          (ReleaseUnloadedHook_accounts (releases.release hook) accounts)
      · exact inductionHypothesis valid.2
          (UnhookFunction_accounts (releases.unhook hook) valid.1 accounts)
      · rw [← Multiset.add_cons] at accounts
        have others := inductionHypothesis valid.2 accounts
        dsimp only
        rw [trampolines_cons, Multiset.cons_add, ← Multiset.add_cons]
        exact others

theorem ready_HandleUnloadDll {calls : ModuleEvent.Calls} (releases : calls.Releases)
    {session : DebugSession} (ready : session.Ready) (base : Nat) :
    (session.HandleUnloadDll calls base).Ready := by
  have onTarget := ready.onTarget
  rw [coe_remoteResources, add_assoc] at onTarget
  have unloaded := HandleUnloadDll.loop_accounts releases ready.valid onTarget base
  refine ⟨⟨?_, ready.onController, fun hook member => ?_, ready.unmapped⟩, ready.started,
    ready.unconfigured⟩
  · rw [coe_remoteResources, add_assoc]
    exact unloaded
  · apply ready.valid
    have kept := HandleUnloadDll.loop_fst calls base session.installedHooks session.process
    have inside : hook ∈ (HandleUnloadDll.loop calls base session.installedHooks
      session.process).1 := member
    rw [kept] at inside
    exact List.mem_of_mem_filter inside

/-! ## Events and runs -/

theorem accounted_HandleModuleEvent {decode : Decoder} {calls : ModuleEvent.Calls}
    {event : ModuleEvent} {handled : Bool} {session : DebugSession} (ready : session.Ready)
    (allowed : session.Setup (.event event calls handled)) :
    (session.HandleModuleEvent decode calls event).2.Accounted ∧
      ((session.HandleModuleEvent decode calls event).1 = true →
        (session.HandleModuleEvent decode calls event).2.Ready) := by
  obtain ⟨releases, processFirst⟩ := allowed
  cases event with
  | createProcess image =>
      have withImage : (session.withImage image).Ready :=
        ⟨⟨ready.onTarget, ready.onController, ready.valid, ready.unmapped⟩, ready.started,
          ready.unconfigured⟩
      unfold HandleModuleEvent HandleCreateProcess
      by_cases unmapped : (session.withImage image).hookImageBase = 0
      · have initialized := accounted_InitializeDebuggee releases.inject releases.start withImage
          unmapped
        have mapped := mapped_InitializeDebuggee calls.debuggee (session.withImage image)
        dsimp only
        rw [if_pos unmapped]
        revert initialized mapped
        generalize (session.withImage image).InitializeDebuggee calls.debuggee = outcome
        obtain ⟨initialized, next⟩ := outcome
        rintro ⟨accounted, onSuccess⟩ mapped
        cases initialized with
        | false => exact ⟨accounted, by simp⟩
        | true => exact accounted_RegisterModule releases (onSuccess rfl) (mapped rfl) image
      · dsimp only
        rw [if_neg unmapped]
        exact accounted_RegisterModule releases withImage unmapped image
  | loadDll image =>
      have withImage : (session.withImage image).Ready :=
        ⟨⟨ready.onTarget, ready.onController, ready.valid, ready.unmapped⟩, ready.started,
          ready.unconfigured⟩
      have mapped : (session.withImage image).hookImageBase ≠ 0 := by
        intro null
        obtain ⟨other, isOther⟩ := processFirst null
        cases isOther
      exact accounted_RegisterModule releases withImage mapped image
  | unloadDll base =>
      have withoutImage : (session.withoutImage base).Ready :=
        ⟨⟨ready.onTarget, ready.onController, ready.valid, ready.unmapped⟩, ready.started,
          ready.unconfigured⟩
      have unloaded := ready_HandleUnloadDll releases withoutImage base
      exact ⟨unloaded.toAccounted, fun _ => unloaded⟩

/-- As long as nothing fails the session stays ready. -/
theorem ready_of_path {decode : Decoder} {options : CommandLineOptions} {first last : DebugSession}
    {labels : List SessionLabel} (path : (setup decode options).Path first labels last)
    (ready : first.Ready) : last.Ready := by
  induction path with
  | refl => exact ready
  | @snoc middle last _ label _ taken readyMiddle =>
      obtain ⟨step, allowed, handled⟩ := taken
      cases label with
      | targetRuns memory =>
          have runs : last = { middle with process := { middle.process with memory := memory } } :=
            step
          rw [runs]
          exact ⟨⟨readyMiddle.onTarget, readyMiddle.onController, readyMiddle.valid,
            readyMiddle.unmapped⟩, readyMiddle.started, readyMiddle.unconfigured⟩
      | event event calls result =>
          have outcome : middle.HandleModuleEvent decode calls event = (result, last) := step
          have settled := @accounted_HandleModuleEvent decode _ _ _ _ readyMiddle allowed
          rw [outcome] at settled
          exact settled.2 handled

/-! ## Cleaning up -/

theorem entries_removals (hooks : List InstalledHook) :
    (hooks.reverse.flatMap InstalledHook.removal).filterMap RemoteAction.entry =
      (trampolines hooks).map .release := by
  unfold trampolines
  generalize hooks.reverse = reversed
  induction reversed with
  | nil => rfl
  | cons hook rest inductionHypothesis =>
      rw [List.flatMap_cons, List.filterMap_append, inductionHypothesis]
      rfl

/-- The cleanup gives back what the members of the session name. -/
theorem Accounted.cleanupRemote {session : DebugSession} (accounted : session.Accounted)
    {calls : CleanupRemote.Calls} (releases : calls.Releases) :
    Custody.Holds (session.CleanupRemote calls).2.process.ledger 0 := by
  have entries : (session.CleanupRemote calls).2.process.ledger =
      session.process.ledger ++ session.remoteResources.map .release := by
    by_cases unmapped : session.hookImageBase = 0
    · have removals := (CleanupRemote.loop_succeeds
        (fun hook member => accounted.valid hook (List.mem_reverse.mp member))
        (fun hook _ => releases.unhook hook) session.process).2
      unfold CleanupRemote
      dsimp only
      rw [if_pos unmapped, remoteResources, accounted.unmapped unmapped, unmapped, heldAt_zero,
        List.append_nil, List.append_nil, ← entries_removals]
      exact (congrArg (List.filterMap RemoteAction.entry) removals).trans List.filterMap_append
    · obtain ⟨writes, onlyWrites, log⟩ := log_CleanupRemote unmapped accounted.valid
        (fun hook _ => releases.unhook hook) releases.unmapRing releases.closeWakeEvent
        releases.freeSetEvent releases.freeReadMemory releases.freeImage
      rw [Target.ledger, log, List.filterMap_append, released, remoteResources]
      simp only [List.filterMap_append, entries_removals, onlyWrites.no_entry,
        TraceSession.entries_heldReleases, heldAt_of_ne _ unmapped, List.map_append]
      simp [RemoteAction.entry, Target.ledger]
  have outstanding := accounted.onTarget
  rw [Target.Accounts, ← add_zero (session.remoteResources : Multiset RemoteResource)]
    at outstanding
  rw [entries]
  exact outstanding.release_all

/-- Once the cleanup has stopped the trace session it holds its stop event alone. -/
theorem traceSession_CleanupRemote (session : DebugSession) (calls : CleanupRemote.Calls) :
    ∃ stopped : TraceSession,
      (session.CleanupRemote calls).2.traceSession = stopped.Stop ∧
        (session.traceSession.LocalAccounts → stopped.LocalAccounts) := by
  unfold CleanupRemote
  dsimp only
  split_ifs
  · exact ⟨_, rfl, id⟩
  · exact ⟨_, rfl, id⟩

/-- However the last handler of a session ends, the cleanup behind it releases
everything the session has acquired exactly once, and stopping or destroying the
trace session releases nothing again. -/
theorem setup_settled {decode : Decoder} {options : CommandLineOptions} {process : Target}
    {processId stopEvent : Nat} {labels : List SessionLabel} {session next : DebugSession}
    {event : ModuleEvent} {calls : ModuleEvent.Calls} {handled : Bool}
    {cleanup : CleanupRemote.Calls} (fresh : process.log = [])
    (path : (setup decode options).Path (construct options process processId stopEvent) labels
      session)
    (taken : (system decode options).step session (.event event calls handled) next)
    (allowed : session.Setup (.event event calls handled)) (releases : cleanup.Releases) :
    Custody.Settled (next.CleanupRemote cleanup).2.process.ledger ∧
      Custody.Holds (next.CleanupRemote cleanup).2.traceSession.ledger
        (heldAt LocalResource.handle (next.CleanupRemote cleanup).2.traceSession.stopEvent :
          Multiset LocalResource) ∧
      (next.CleanupRemote cleanup).2.traceSession.Stop.log =
        (next.CleanupRemote cleanup).2.traceSession.log ∧
      Custody.Settled (next.CleanupRemote cleanup).2.traceSession.destroy.ledger := by
  have ready := ready_of_path path (ready_construct options fresh processId stopEvent)
  have outcome : session.HandleModuleEvent decode calls event = (handled, next) := taken
  have accounted := (@accounted_HandleModuleEvent decode _ _ _ _ ready allowed).1
  rw [outcome] at accounted
  obtain ⟨stopped, isStopped, kept⟩ := traceSession_CleanupRemote next cleanup
  have onController := kept accounted.onController
  have sameEvent : stopped.Stop.stopEvent = stopped.stopEvent := by
    rw [TraceSession.Stop, TraceSession.ReleaseLocalRing_eq]
  refine ⟨(accounted.cleanupRemote releases).settled, ?_, ?_, ?_⟩
  · rw [isStopped, sameEvent]
    exact onController.stop
  · rw [isStopped, TraceSession.stop_Stop]
  · rw [isStopped]
    exact onController.destroy.settled

namespace Sample

/-- The second bypass cannot be published. -/
def unpublished : ModuleEvent.Calls :=
  { calls with configure := { calls.configure with writeReadMemory := false } }

def ntdll : LoadedImage :=
  image 0x20000 "ntdll.dll" [("NtSetEvent", 0x21000), ("NtReadVirtualMemory", 0x22000)]

theorem releases : calls.Releases where
  inject := rfl
  start := ⟨rfl, fun _ => by decide, fun _ => by decide⟩
  configure := ⟨rfl, rfl⟩
  trampoline := fun _ => rfl
  hook := fun _ => rfl
  unhook := fun _ _ => rfl
  release := fun _ _ => rfl

theorem unpublished_releases : unpublished.Releases :=
  { releases with configure := ⟨rfl, rfl⟩ }

theorem cleanup_releases : cleanup.Releases :=
  ⟨fun _ _ => rfl, rfl, rfl, rfl, rfl, rfl⟩

/-- The session when it hears of `ntdll.dll`. -/
def launched : DebugSession := session ["f"] (started.take 1)

end Sample

/-- The transport cannot be configured; what was acquired until then is released, in the target
and in the controller. -/
theorem setup_settled_sample : ∃ failed : DebugSession,
    Sample.launched.HandleModuleEvent Sample.decode Sample.unpublished (.loadDll Sample.ntdll) =
      (false, failed) ∧
    Custody.Settled (failed.CleanupRemote Sample.cleanup).2.process.ledger ∧
    Custody.Holds (failed.CleanupRemote Sample.cleanup).2.traceSession.ledger
      (heldAt LocalResource.handle (failed.CleanupRemote Sample.cleanup).2.traceSession.stopEvent :
        Multiset LocalResource) ∧
    (failed.CleanupRemote Sample.cleanup).2.traceSession.Stop.log =
      (failed.CleanupRemote Sample.cleanup).2.traceSession.log ∧
    Custody.Settled (failed.CleanupRemote Sample.cleanup).2.traceSession.destroy.ledger := by
  have facts : (Sample.launched.HandleModuleEvent Sample.decode Sample.unpublished
        (.loadDll Sample.ntdll)).1 = false ∧
      ((construct (Sample.options ["f"]) Sample.process 4 5).HandleModuleEvent Sample.decode
        Sample.calls (.createProcess (Sample.image 0x10000 "app.exe" []))).1 = true ∧
      Sample.launched.hookImageBase ≠ 0 := by
    decide +kernel
  have each : handleAll.Allowed Sample.decode
      (fun session label => session.Setup label ∧ label.Handled) (Sample.started.take 1)
      (construct (Sample.options ["f"]) Sample.process 4 5) :=
    ⟨⟨⟨Sample.releases, fun _ => ⟨_, rfl⟩⟩, facts.2.1⟩, trivial⟩
  have path : (setup Sample.decode (Sample.options ["f"])).Path
      (construct (Sample.options ["f"]) Sample.process 4 5) _ Sample.launched :=
    handleAll_path_restrict Sample.decode (Sample.options ["f"]) _ _ _ each
  have taken : (system Sample.decode (Sample.options ["f"])).step Sample.launched
      (.event (.loadDll Sample.ntdll) Sample.unpublished (Sample.launched.HandleModuleEvent
        Sample.decode Sample.unpublished (.loadDll Sample.ntdll)).1)
      (Sample.launched.HandleModuleEvent Sample.decode Sample.unpublished
        (.loadDll Sample.ntdll)).2 := rfl
  exact ⟨_, Prod.ext facts.1 rfl, setup_settled rfl path taken
    ⟨Sample.unpublished_releases, fun null => absurd null facts.2.2⟩ Sample.cleanup_releases⟩

end DebugSession

end ApiScope
