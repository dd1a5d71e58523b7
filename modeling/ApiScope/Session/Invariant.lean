import Mathlib.Data.List.Nodup
import ApiScope.Session.Runs

/-!
# What holds in every state of a session

The books of a session: which modules it knows, which hooks it has installed,
and between which modules.  Every handler keeps them in order, whatever the
events are and however the remote calls end.
-/

namespace ApiScope

namespace DebugSession

/-- The order of the books. -/
structure Invariant (session : DebugSession) : Prop where
  distinctNames : (session.installedHooks.map InstalledHook.canonicalName).Nodup
  selected : ∀ hook ∈ session.installedHooks,
    ∃ definition ∈ session.options.hooks, definition.canonicalName = hook.canonicalName
  distinctFunctions : (session.installedHooks.map InstalledHook.originalFunction).Nodup
  sourceLoaded : ∀ hook ∈ session.installedHooks,
    ∃ module ∈ session.modules, module.base = hook.sourceModuleBase
  targetLoaded : ∀ hook ∈ session.installedHooks,
    ∃ module ∈ session.modules, module.base = hook.targetModuleBase
  unconfigured : session.transportConfigured = false → session.installedHooks = []
  distinctGenerations : (session.modules.map ModuleRecord.generation).Nodup
  issued : ∀ module ∈ session.modules, module.generation ≤ session.moduleGeneration

theorem invariant_construct (options : CommandLineOptions) (process : Target)
    (processId stopEvent : Nat) : (construct options process processId stopEvent).Invariant where
  distinctNames := .nil
  selected := by simp [construct]
  distinctFunctions := .nil
  sourceLoaded := by simp [construct]
  targetLoaded := by simp [construct]
  unconfigured := fun _ => rfl
  distinctGenerations := .nil
  issued := by simp [construct]

theorem Invariant.of_sameBooks {session next : DebugSession} (invariant : session.Invariant)
    (same : SameBooks session next) : next.Invariant := by
  obtain ⟨options, modules, installedHooks, transportConfigured, moduleGeneration⟩ := same
  constructor
  · rw [installedHooks]
    exact invariant.distinctNames
  · rw [installedHooks, options]
    exact invariant.selected
  · rw [installedHooks]
    exact invariant.distinctFunctions
  · rw [installedHooks, modules]
    exact invariant.sourceLoaded
  · rw [installedHooks, modules]
    exact invariant.targetLoaded
  · rw [installedHooks, transportConfigured]
    exact invariant.unconfigured
  · rw [modules]
    exact invariant.distinctGenerations
  · rw [modules, moduleGeneration]
    exact invariant.issued

/-! ## Installing -/

/-- What an installed hook is known by. -/
theorem HookFunction_effect_installed {decode : Decoder} {calls : HookFunction.Calls}
    {originalFunction hookImageBase : Nat} {definition : HookDefinition}
    {target after : Target} {hook : InstalledHook}
    (effect : HookFunction.Effect decode calls originalFunction hookImageBase definition target
      (some hook) after) :
    hook.canonicalName = definition.canonicalName ∧ hook.originalFunction = originalFunction := by
  cases effect with
  | installed => exact ⟨rfl, rfl⟩

theorem Invariant.round {decode : Decoder} {install : HookDefinition → HookFunction.Calls}
    {definition : HookDefinition} {session next : DebugSession} {continues : Bool}
    (invariant : session.Invariant) (configured : session.transportConfigured = true)
    (selected : definition ∈ session.options.hooks)
    (effect : TryInstallPendingHooks.Effect decode install definition session continues next) :
    next.Invariant := by
  cases effect with
  | skipped => exact invariant
  | pending => exact invariant
  | unresolved => exact invariant
  | sameAddress => exact invariant
  | failed => exact invariant.of_sameBooks ⟨rfl, rfl, rfl, rfl, rfl⟩
  | @installed source address base process hook fresh resolution untaken hookEffect =>
      obtain ⟨name, function⟩ := HookFunction_effect_installed hookEffect
      obtain ⟨⟨sourceModule, sourceMember, isSource⟩, target⟩ :=
        ResolveHookAddress_resolved resolution
      cases isSource
      constructor
      · rw [List.map_append, List.nodup_append]
        refine ⟨invariant.distinctNames, by simp, ?_⟩
        simpa [name] using fresh
      · intro other member
        rcases List.mem_append.mp member with old | new
        · exact invariant.selected other old
        · rw [List.mem_singleton] at new
          exact ⟨definition, selected, by rw [new, name]⟩
      · rw [List.map_append, List.nodup_append]
        refine ⟨invariant.distinctFunctions, by simp, ?_⟩
        simpa [function] using untaken
      · intro other member
        rcases List.mem_append.mp member with old | new
        · exact invariant.sourceLoaded other old
        · rw [List.mem_singleton] at new
          exact ⟨sourceModule, sourceMember, by rw [new]⟩
      · intro other member
        rcases List.mem_append.mp member with old | new
        · exact invariant.targetLoaded other old
        · rw [List.mem_singleton] at new
          rw [new]
          exact target
      · intro unconfigured
        exact absurd configured (by simpa using unconfigured)
      · exact invariant.distinctGenerations
      · exact invariant.issued

theorem Invariant.tryInstallPendingHooks {session : DebugSession} (invariant : session.Invariant)
    (configured : session.transportConfigured = true) (decode : Decoder)
    (install : HookDefinition → HookFunction.Calls) :
    (session.TryInstallPendingHooks decode install).2.Invariant := by
  refine (@TryInstallPendingHooks.loop_induction decode install
    (fun next => next.Invariant ∧ next.transportConfigured = true ∧
      next.options = session.options) _ _ ?_ ⟨invariant, configured, rfl⟩).1
  rintro definition member current next continues ⟨held, isConfigured, options⟩ effect
  refine ⟨held.round isConfigured (by rwa [options]) effect, ?_⟩
  cases effect <;> exact ⟨isConfigured, options⟩

/-! ## Events -/

theorem Invariant.recordModule {session : DebugSession} (invariant : session.Invariant)
    (image : LoadedImage) : (session.recordModule image).Invariant where
  distinctNames := invariant.distinctNames
  selected := invariant.selected
  distinctFunctions := invariant.distinctFunctions
  sourceLoaded := fun hook member => by
    obtain ⟨module, loaded, base⟩ := invariant.sourceLoaded hook member
    rw [← base]
    exact exists_base_insertModule loaded
  targetLoaded := fun hook member => by
    obtain ⟨module, loaded, base⟩ := invariant.targetLoaded hook member
    rw [← base]
    exact exists_base_insertModule loaded
  unconfigured := invariant.unconfigured
  distinctGenerations := nodup_generation_insertModule invariant.distinctGenerations
    fun other member => Nat.lt_succ_of_le (invariant.issued other member)
  issued := fun module member => by
    rcases mem_insertModule member with rfl | old
    · exact Nat.le_refl _
    · exact (invariant.issued module old).trans (Nat.le_succ _)

theorem Invariant.configureTransport {session : DebugSession} (invariant : session.Invariant)
    (decode : Decoder) (calls : TraceSession.ConfigureTransport.Calls) (image : LoadedImage) :
    (session.configureTransport decode calls image).2.Invariant := by
  unfold DebugSession.configureTransport
  split_ifs with first
  · exact
      { distinctNames := invariant.distinctNames
        selected := invariant.selected
        distinctFunctions := invariant.distinctFunctions
        sourceLoaded := invariant.sourceLoaded
        targetLoaded := invariant.targetLoaded
        unconfigured := fun _ => invariant.unconfigured first.2
        distinctGenerations := invariant.distinctGenerations
        issued := invariant.issued }
  · exact invariant

theorem Invariant.registerModule {session : DebugSession} (invariant : session.Invariant)
    (decode : Decoder) (calls : ModuleEvent.Calls) (image : LoadedImage) :
    (session.RegisterModule decode calls image).2.Invariant := by
  unfold DebugSession.RegisterModule
  have configuring := (invariant.recordModule image).configureTransport decode calls.configure image
  split_ifs with unnamed
  · exact invariant
  · revert configuring
    generalize (session.recordModule image).configureTransport decode calls.configure image =
      outcome
    obtain ⟨configured, next⟩ := outcome
    intro held
    cases configured with
    | false => exact held
    | true =>
        dsimp only
        split_ifs with unconfigured
        · exact held
        · exact held.tryInstallPendingHooks (by simpa using unconfigured) decode calls.install

theorem Invariant.handleCreateProcess {session : DebugSession} (invariant : session.Invariant)
    (decode : Decoder) (calls : ModuleEvent.Calls) (image : LoadedImage) :
    (session.HandleCreateProcess decode calls image).2.Invariant := by
  unfold DebugSession.HandleCreateProcess
  have initialized := invariant.of_sameBooks
    (sameBooks_InitializeDebuggee calls.debuggee session)
  by_cases first : session.hookImageBase = 0
  · simp only [if_pos first]
    split_ifs
    · exact initialized
    · exact initialized.registerModule decode calls image
  · simp only [if_neg first]
    exact invariant.registerModule decode calls image

theorem Invariant.handleUnloadDll {session : DebugSession} (invariant : session.Invariant)
    (calls : ModuleEvent.Calls) (base : Nat) :
    (session.HandleUnloadDll calls base).Invariant := by
  have kept : (session.HandleUnloadDll calls base).installedHooks =
      session.installedHooks.filter fun hook =>
        hook.targetModuleBase ≠ base ∧ hook.sourceModuleBase ≠ base :=
    HandleUnloadDll.loop_fst calls base session.installedHooks session.process
  have subset : (session.HandleUnloadDll calls base).installedHooks.Sublist
      session.installedHooks := by
    rw [kept]
    exact List.filter_sublist
  have remaining : ∀ {module : ModuleRecord}, module ∈ session.modules → module.base ≠ base →
      module ∈ (session.HandleUnloadDll calls base).modules :=
    fun member other => mem_eraseModule.mpr ⟨member, other⟩
  constructor
  · exact invariant.distinctNames.sublist (subset.map _)
  · exact fun hook member => invariant.selected hook (subset.subset member)
  · exact invariant.distinctFunctions.sublist (subset.map _)
  · intro hook member
    obtain ⟨module, loaded, isSource⟩ := invariant.sourceLoaded hook (subset.subset member)
    rw [kept, List.mem_filter] at member
    have elsewhere := of_decide_eq_true member.2
    exact ⟨module, remaining loaded (isSource ▸ elsewhere.2), isSource⟩
  · intro hook member
    obtain ⟨module, loaded, isTarget⟩ := invariant.targetLoaded hook (subset.subset member)
    rw [kept, List.mem_filter] at member
    have elsewhere := of_decide_eq_true member.2
    exact ⟨module, remaining loaded (isTarget ▸ elsewhere.1), isTarget⟩
  · intro unconfigured
    rw [kept, invariant.unconfigured unconfigured]
    rfl
  · exact invariant.distinctGenerations.sublist (List.Sublist.map _ List.filter_sublist)
  · exact fun module member => invariant.issued module (mem_eraseModule.mp member).1

/-- One event keeps the books in order. -/
theorem Invariant.handleModuleEvent {session : DebugSession} (invariant : session.Invariant)
    (decode : Decoder) (calls : ModuleEvent.Calls) (event : ModuleEvent) :
    (session.HandleModuleEvent decode calls event).2.Invariant := by
  cases event with
  | createProcess image =>
      have mapped : (session.withImage image).Invariant :=
        invariant.of_sameBooks ⟨rfl, rfl, rfl, rfl, rfl⟩
      exact mapped.handleCreateProcess decode calls image
  | loadDll image =>
      have mapped : (session.withImage image).Invariant :=
        invariant.of_sameBooks ⟨rfl, rfl, rfl, rfl, rfl⟩
      exact mapped.registerModule decode calls image
  | unloadDll base =>
      have unmapped : (session.withoutImage base).Invariant :=
        invariant.of_sameBooks ⟨rfl, rfl, rfl, rfl, rfl⟩
      exact unmapped.handleUnloadDll calls base

theorem Invariant.cleanupRemote {session : DebugSession} (invariant : session.Invariant)
    (calls : CleanupRemote.Calls) : (session.CleanupRemote calls).2.Invariant := by
  have forgotten : ∀ (process : Target) (traceSession : TraceSession) (hookImageBase : Nat),
      { session with
        process := process
        traceSession := traceSession
        hookImageBase := hookImageBase
        installedHooks := [] }.Invariant := fun _ _ _ =>
    { distinctNames := .nil
      selected := by simp
      distinctFunctions := .nil
      sourceLoaded := by simp
      targetLoaded := by simp
      unconfigured := fun _ => rfl
      distinctGenerations := invariant.distinctGenerations
      issued := invariant.issued }
  unfold DebugSession.CleanupRemote
  dsimp only
  split_ifs <;> exact forgotten _ _ _

/-! ## The transport is configured once -/

theorem transportConfigured_tryInstallPendingHooks {session : DebugSession} (decode : Decoder)
    (install : HookDefinition → HookFunction.Calls) (configured : session.transportConfigured) :
    (session.TryInstallPendingHooks decode install).2.transportConfigured := by
  refine @TryInstallPendingHooks.loop_induction decode install
    (fun next => next.transportConfigured = true) _ _ ?_ configured
  intro definition member current next continues isConfigured effect
  cases effect <;> exact isConfigured

theorem transportConfigured_registerModule {session : DebugSession} (decode : Decoder)
    (calls : ModuleEvent.Calls) (image : LoadedImage) (configured : session.transportConfigured) :
    (session.RegisterModule decode calls image).2.transportConfigured := by
  have unchanged : (session.recordModule image).configureTransport decode calls.configure image =
      (true, session.recordModule image) := by
    unfold configureTransport
    rw [if_neg]
    rintro ⟨_, unconfigured⟩
    exact absurd configured (by simpa [recordModule] using unconfigured)
  unfold RegisterModule
  rw [unchanged]
  dsimp only
  split_ifs
  · exact configured
  · exact configured
  · exact transportConfigured_tryInstallPendingHooks decode calls.install configured

theorem transportConfigured_handleModuleEvent {session : DebugSession} (decode : Decoder)
    (calls : ModuleEvent.Calls) (event : ModuleEvent) (configured : session.transportConfigured) :
    (session.HandleModuleEvent decode calls event).2.transportConfigured := by
  cases event with
  | loadDll image => exact transportConfigured_registerModule decode calls image configured
  | unloadDll base => exact configured
  | createProcess image =>
      unfold HandleModuleEvent HandleCreateProcess
      dsimp only
      split_ifs
      · rw [(sameBooks_InitializeDebuggee _ _).transportConfigured]
        exact configured
      · apply transportConfigured_registerModule
        rw [(sameBooks_InitializeDebuggee _ _).transportConfigured]
        exact configured
      · exact configured
      · exact transportConfigured_registerModule decode calls image configured

/-! ## Runs -/

section Runs

variable {decode : Decoder} {options : CommandLineOptions} {labels : List SessionLabel}

theorem invariant_of_run {session : DebugSession}
    (run : (system decode options).Run labels session) : session.Invariant := by
  refine @Transition.System.Run.invariant _ _ _ (fun _ state => state.Invariant) ?_ ?_ _ _ run
  · rintro state ⟨process, processId, stopEvent, rfl⟩
    exact invariant_construct options process processId stopEvent
  · intro history state label next invariant taken
    cases label with
    | targetRuns memory =>
        cases taken
        exact invariant.of_sameBooks ⟨rfl, rfl, rfl, rfl, rfl⟩
    | event event calls handled =>
        have next_eq : (state.HandleModuleEvent decode calls event).2 = next :=
          congrArg Prod.snd taken
        rw [← next_eq]
        exact invariant.handleModuleEvent decode calls event

theorem transportConfigured_of_path {earlier session : DebugSession}
    (path : (system decode options).Path earlier labels session)
    (configured : earlier.transportConfigured) : session.transportConfigured := by
  refine @Transition.System.Path.invariant _ _ _
    (fun _ state => state.transportConfigured = true) [] _ _ _ path configured ?_
  intro history state label next isConfigured taken
  cases label with
  | targetRuns memory =>
      cases taken
      exact isConfigured
  | event event calls handled =>
      have next_eq : (state.HandleModuleEvent decode calls event).2 = next :=
        congrArg Prod.snd taken
      rw [← next_eq]
      exact transportConfigured_handleModuleEvent decode calls event isConfigured

/-- The books are in order in every state of every run and after the cleanup,
the newest module of a name is unique, and as long as the transport is not
configured the session has had no hook at all. -/
theorem books_in_order {session : DebugSession}
    (run : (system decode options).Run labels session) :
    session.Invariant ∧ (∀ calls, (session.CleanupRemote calls).2.Invariant) ∧
      (∀ name found other, FindModule session.modules name = some found →
        other ∈ session.modules → other.name = name → other ≠ found →
          other.generation < found.generation) ∧
      (session.transportConfigured = false → ∀ before after earlier,
        (system decode options).Run before earlier →
          (system decode options).Path earlier after session → earlier.installedHooks = []) := by
  have invariant := invariant_of_run run
  refine ⟨invariant, invariant.cleanupRemote, ?_, ?_⟩
  · intro name found other search member named different
    refine Nat.lt_of_le_of_ne (FindModule_newest search member named) fun same => different ?_
    exact List.inj_on_of_nodup_map invariant.distinctGenerations member
      (FindModule_some search).1 same
  · intro unconfigured before after earlier run path
    apply (invariant_of_run run).unconfigured
    rw [Bool.eq_false_iff]
    intro configured
    exact absurd (transportConfigured_of_path path configured) (by simp [unconfigured])

end Runs

/-! ## A session on a small target -/

namespace Sample

/-- Lengths of the instructions a patch and its padding consist of. -/
def decode : Decoder
  | 0x90 :: _ => some ⟨1, false, false⟩
  | 0xC3 :: _ => some ⟨1, false, false⟩
  | 0x68 :: rest => if 4 ≤ rest.length then some ⟨5, false, false⟩ else none
  | 0xC7 :: rest => if 7 ≤ rest.length then some ⟨8, false, false⟩ else none
  | _ => none

def exports (addresses : List (String × Nat)) : ExportTable := fun name =>
  (addresses.find? fun entry => narrow entry.1 == name).map fun entry => ⟨entry.2, []⟩

/-- A target whose memory is full of `nop` and that has mapped nothing. -/
def process : Target :=
  { memory := fun _ => 0x90
    images := fun _ => none
    allocations := fun _ => 0
    log := [] }

def hookImage : HookImage :=
  { size := 0x1000
    content := []
    exports := exports
      [("fHandler", 0x90100), ("fTrampoline", 0x90200), ("gHandler", 0x90300),
        ("gTrampoline", 0x90400), ("ActiveHookCalls", 0x90500), ("TransportRing", 0x90600),
        ("TransportWakeEvent", 0x90610), ("TransportNtSetEvent", 0x90620),
        ("TransportNtReadVirtualMemory", 0x90630)] }

/-- A hook on an export of `a.dll`. -/
def hook (exportName : String) : HookDefinition :=
  { moduleName := narrow "a.dll"
    exportName := narrow exportName
    handlerExport := narrow exportName ++ narrow "Handler"
    trampolineExport := narrow exportName ++ narrow "Trampoline"
    canonicalName := narrow "a.dll!" ++ narrow exportName }

def options (exportNames : List String) : CommandLineOptions :=
  { mode := .run
    hooks := exportNames.map hook
    targetArguments := [wideText "app.exe"]
    targetProcessId := 0
    output := ⟨.text, [], false⟩
    error := [] }

/-- Every call succeeds. -/
def calls : ModuleEvent.Calls :=
  { debuggee :=
      { setKillOnExit := true
        inject := ⟨hookImage, true, 0x90000, true, true, true, true, true⟩
        imageSize := 0x1000
        start := ⟨true, fun _ => true, 1, 0xA0000, 0xB0000, 2, 3⟩ }
    configure := ⟨⟨fun _ => true, 0xC0000⟩, ⟨fun _ => true, 0xD0000⟩, true, true⟩
    install := fun definition =>
      ⟨fun _ => true, if definition = hook "f" then 0xE0000 else 0xF0000⟩
    unhook := fun _ _ => true
    release := fun _ _ => true }

def image (base : Nat) (name : String) (addresses : List (String × Nat)) : LoadedImage :=
  ⟨base, some (wideText name), [], exports addresses⟩

/-- The target starts and maps `ntdll.dll`. -/
def started : List (ModuleEvent × ModuleEvent.Calls) :=
  [(.createProcess (image 0x10000 "app.exe" []), calls),
    (.loadDll (image 0x20000 "ntdll.dll"
      [("NtSetEvent", 0x21000), ("NtReadVirtualMemory", 0x22000)]), calls)]

/-- Then it maps `a.dll` with its exports at these addresses. -/
def loaded (base : Nat) (addresses : List (String × Nat)) : ModuleEvent × ModuleEvent.Calls :=
  (.loadDll (image base "a.dll" addresses), calls)

/-- `a.dll` comes with two exports, goes and comes back elsewhere. -/
def reloaded : List (ModuleEvent × ModuleEvent.Calls) :=
  started ++ [loaded 0x30000 [("f", 0x31000), ("g", 0x32000)], (.unloadDll 0x30000, calls),
    loaded 0x50000 [("f", 0x51000), ("g", 0x52000)]]

/-- A session with the selected hooks, after these events. -/
def session (exportNames : List String) (events : List (ModuleEvent × ModuleEvent.Calls)) :
    DebugSession :=
  handleAll decode events (construct (options exportNames) process 4 5)

end Sample

/-- Two hooks, whose module is loaded, unloaded and loaded again at another base. -/
theorem books_in_order_sample :
    (Sample.session ["f", "g"] Sample.reloaded).installedHooks.map (fun installed =>
      (installed.canonicalName, installed.targetModuleBase)) =
      [(narrow "a.dll!f", 0x50000), (narrow "a.dll!g", 0x50000)] ∧
    (Sample.session ["f", "g"] (Sample.reloaded.take 4)).installedHooks = [] ∧
    (Sample.session ["f", "g"] (Sample.reloaded.take 4)).Invariant ∧
    (Sample.session ["f", "g"] Sample.reloaded).Invariant :=
  ⟨by decide +kernel, by decide +kernel,
    (books_in_order (handleAll_run Sample.decode (Sample.options ["f", "g"])
      (Sample.reloaded.take 4) Sample.process 4 5)).1,
    (books_in_order (handleAll_run Sample.decode (Sample.options ["f", "g"])
      Sample.reloaded Sample.process 4 5)).1⟩

end DebugSession

end ApiScope
