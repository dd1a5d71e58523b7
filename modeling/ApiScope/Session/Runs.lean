import ApiScope.Hook.Effects
import ApiScope.Library.Transition
import ApiScope.Session.DebugSession

/-!
# Runs of a session

A session is started on some target and then handles debug events.  Between
two events the target runs and may leave its memory in any state.  What a
handler can change is said here once, for the loop over the selected hooks one
round at a time.
-/

namespace ApiScope

inductive SessionLabel where
  | targetRuns (memory : Memory)
  | event (event : ModuleEvent) (calls : ModuleEvent.Calls) (handled : Bool)

namespace DebugSession

/-- The sessions of one choice of options. -/
def system (decode : Decoder) (options : CommandLineOptions) :
    Transition.System DebugSession SessionLabel where
  initial := fun session =>
    ∃ process processId stopEvent, session = construct options process processId stopEvent
  step := fun session label next =>
    match label with
    | .targetRuns memory =>
        next = { session with process := { session.process with memory := memory } }
    | .event event calls handled =>
        HandleModuleEvent decode calls event session = (handled, next)

/-- One event after the other, with nothing between them. -/
def handleAll (decode : Decoder) :
    List (ModuleEvent × ModuleEvent.Calls) → DebugSession → DebugSession
  | [], session => session
  | (event, calls) :: rest, session =>
      handleAll decode rest (session.HandleModuleEvent decode calls event).2

/-- The labels of these events. -/
def handleAll.labels (decode : Decoder) :
    List (ModuleEvent × ModuleEvent.Calls) → DebugSession → List SessionLabel
  | [], _ => []
  | (event, calls) :: rest, session =>
      .event event calls (session.HandleModuleEvent decode calls event).1 ::
        labels decode rest (session.HandleModuleEvent decode calls event).2

theorem handleAll_path (decode : Decoder) (options : CommandLineOptions)
    (events : List (ModuleEvent × ModuleEvent.Calls)) (session : DebugSession) :
    (system decode options).Path session (handleAll.labels decode events session)
      (handleAll decode events session) := by
  induction events generalizing session with
  | nil => exact .refl session
  | cons first rest inductionHypothesis =>
      have taken : (system decode options).step session
          (.event first.1 first.2 (session.HandleModuleEvent decode first.2 first.1).1)
          (session.HandleModuleEvent decode first.2 first.1).2 := rfl
      exact .cons taken (inductionHypothesis _)

theorem handleAll_run (decode : Decoder) (options : CommandLineOptions)
    (events : List (ModuleEvent × ModuleEvent.Calls)) (process : Target)
    (processId stopEvent : Nat) :
    (system decode options).Run
      (handleAll.labels decode events (construct options process processId stopEvent))
      (handleAll decode events (construct options process processId stopEvent)) :=
  ⟨_, ⟨process, processId, stopEvent, rfl⟩, handleAll_path decode options events _⟩

/-- Each of these events is allowed when its turn comes. -/
def handleAll.Allowed (decode : Decoder) (allowed : DebugSession → SessionLabel → Prop) :
    List (ModuleEvent × ModuleEvent.Calls) → DebugSession → Prop
  | [], _ => True
  | (event, calls) :: rest, session =>
      allowed session (.event event calls (session.HandleModuleEvent decode calls event).1) ∧
        Allowed decode allowed rest (session.HandleModuleEvent decode calls event).2

instance handleAll.decidableAllowed (decode : Decoder)
    (allowed : DebugSession → SessionLabel → Prop)
    [∀ session label, Decidable (allowed session label)] :
    (events : List (ModuleEvent × ModuleEvent.Calls)) → (session : DebugSession) →
      Decidable (handleAll.Allowed decode allowed events session)
  | [], _ => isTrue trivial
  | (event, calls) :: rest, session =>
      have := decidableAllowed decode allowed rest
        (session.HandleModuleEvent decode calls event).2
      inferInstanceAs (Decidable (_ ∧ _))

theorem handleAll_path_restrict (decode : Decoder) (options : CommandLineOptions)
    (allowed : DebugSession → SessionLabel → Prop)
    (events : List (ModuleEvent × ModuleEvent.Calls)) (session : DebugSession)
    (each : handleAll.Allowed decode allowed events session) :
    ((system decode options).restrict allowed).Path session
      (handleAll.labels decode events session) (handleAll decode events session) := by
  induction events generalizing session with
  | nil => exact .refl session
  | cons first rest inductionHypothesis =>
      have taken : ((system decode options).restrict allowed).step session
          (.event first.1 first.2 (session.HandleModuleEvent decode first.2 first.1).1)
          (session.HandleModuleEvent decode first.2 first.1).2 := ⟨rfl, each.1⟩
      exact .cons taken (inductionHypothesis _ each.2)

theorem handleAll_run_restrict (decode : Decoder) (options : CommandLineOptions)
    (allowed : DebugSession → SessionLabel → Prop)
    (events : List (ModuleEvent × ModuleEvent.Calls)) (process : Target)
    (processId stopEvent : Nat)
    (each : handleAll.Allowed decode allowed events
      (construct options process processId stopEvent)) :
    ((system decode options).restrict allowed).Run
      (handleAll.labels decode events (construct options process processId stopEvent))
      (handleAll decode events (construct options process processId stopEvent)) :=
  ⟨_, ⟨process, processId, stopEvent, rfl⟩,
    handleAll_path_restrict decode options allowed events _ each⟩

/-! ## Rounds -/

namespace TryInstallPendingHooks

/-- What one round can do. -/
inductive Effect (decode : Decoder) (install : HookDefinition → HookFunction.Calls)
    (definition : HookDefinition) (session : DebugSession) : Bool → DebugSession → Prop where
  | skipped {hook : InstalledHook} :
      hook ∈ session.installedHooks →
      hook.canonicalName = definition.canonicalName →
      Effect decode install definition session true session
  | pending {source : Option Nat} :
      ResolveHookAddress session.process session.modules definition = (source, .pending) →
      Effect decode install definition session true session
  | unresolved {source : Option Nat} :
      ResolveHookAddress session.process session.modules definition = (source, .error) →
      Effect decode install definition session false session
  | sameAddress {source : Option Nat} {address base : Nat} {hook : InstalledHook} :
      ResolveHookAddress session.process session.modules definition =
        (source, .resolved address base) →
      hook ∈ session.installedHooks →
      hook.originalFunction = address →
      Effect decode install definition session false session
  | failed {source : Option Nat} {address base : Nat} {process : Target} :
      (∀ hook ∈ session.installedHooks, hook.canonicalName ≠ definition.canonicalName) →
      ResolveHookAddress session.process session.modules definition =
        (source, .resolved address base) →
      (∀ hook ∈ session.installedHooks, hook.originalFunction ≠ address) →
      HookFunction.Effect decode (install definition) address session.hookImageBase definition
        session.process none process →
      Effect decode install definition session false { session with process := process }
  | installed {source address base : Nat} {process : Target} {hook : InstalledHook} :
      (∀ other ∈ session.installedHooks, other.canonicalName ≠ definition.canonicalName) →
      ResolveHookAddress session.process session.modules definition =
        (some source, .resolved address base) →
      (∀ other ∈ session.installedHooks, other.originalFunction ≠ address) →
      HookFunction.Effect decode (install definition) address session.hookImageBase definition
        session.process (some hook) process →
      Effect decode install definition session true
        { session with
          process := process
          installedHooks := session.installedHooks ++
            [{ hook with sourceModuleBase := source, targetModuleBase := base }] }

theorem round_effect (decode : Decoder) (install : HookDefinition → HookFunction.Calls)
    (definition : HookDefinition) (session : DebugSession) :
    Effect decode install definition session (round decode install definition session).1
      (round decode install definition session).2 := by
  unfold round
  by_cases named : session.installedHooks.any (·.canonicalName == definition.canonicalName)
  · rw [if_pos named]
    obtain ⟨hook, member, same⟩ := List.any_eq_true.mp named
    exact .skipped member (by simpa using same)
  rw [if_neg named]
  have fresh : ∀ hook ∈ session.installedHooks,
      hook.canonicalName ≠ definition.canonicalName := by
    simpa using named
  cases resolution : ResolveHookAddress session.process session.modules definition with
  | mk source result =>
  cases result with
  | pending => exact .pending resolution
  | error => exact .unresolved resolution
  | resolved address base =>
      dsimp only
      by_cases taken : session.installedHooks.any (·.originalFunction == address)
      · rw [if_pos taken]
        obtain ⟨hook, member, same⟩ := List.any_eq_true.mp taken
        exact .sameAddress resolution member (by simpa using same)
      rw [if_neg taken]
      have untaken : ∀ hook ∈ session.installedHooks, hook.originalFunction ≠ address := by
        simpa using taken
      obtain ⟨⟨module, _, isSource⟩, _⟩ := ResolveHookAddress_resolved resolution
      subst isSource
      have effect := HookFunction_effect decode (install definition) address
        session.hookImageBase definition session.process
      revert effect
      generalize HookFunction decode (install definition) address session.hookImageBase
        definition session.process = outcome
      obtain ⟨hook, process⟩ := outcome
      intro effect
      cases hook with
      | none => exact .failed fresh resolution untaken effect
      | some hook => exact .installed fresh resolution untaken effect

/-- What every round preserves, the loop preserves. -/
theorem loop_induction {decode : Decoder} {install : HookDefinition → HookFunction.Calls}
    {holds : DebugSession → Prop} {definitions : List HookDefinition} {session : DebugSession}
    (preserved : ∀ definition ∈ definitions, ∀ {session next : DebugSession} {continues : Bool},
      holds session → Effect decode install definition session continues next → holds next)
    (held : holds session) : holds (loop decode install definitions session).2 := by
  induction definitions generalizing session with
  | nil => exact held
  | cons definition rest inductionHypothesis =>
      have effect := round_effect decode install definition session
      rw [loop]
      revert effect
      generalize round decode install definition session = outcome
      obtain ⟨continues, next⟩ := outcome
      intro effect
      have heldNext := preserved definition (by simp) held effect
      cases continues with
      | false => exact heldNext
      | true =>
          exact inductionHypothesis
            (fun other member => preserved other (List.mem_cons_of_mem _ member)) heldNext

/-- The rounds the loop makes, with the sessions they start from. -/
def rounds (decode : Decoder) (install : HookDefinition → HookFunction.Calls) :
    List HookDefinition → DebugSession → List (HookDefinition × DebugSession)
  | [], _ => []
  | definition :: rest, session =>
      (definition, session) ::
        match round decode install definition session with
        | (false, _) => []
        | (true, session) => rounds decode install rest session

/-- Rounds only install: the modules, the exports and the hooks there were stay. -/
structure Frame (session next : DebugSession) : Prop where
  options : next.options = session.options
  hookImageBase : next.hookImageBase = session.hookImageBase
  modules : next.modules = session.modules
  images : next.process.images = session.process.images
  transportConfigured : next.transportConfigured = session.transportConfigured
  installedHooks : ∃ installed, next.installedHooks = session.installedHooks ++ installed

theorem Frame.refl (session : DebugSession) : Frame session session :=
  ⟨rfl, rfl, rfl, rfl, rfl, [], by simp⟩

theorem Frame.trans {first middle last : DebugSession} (left : Frame first middle)
    (right : Frame middle last) : Frame first last := by
  obtain ⟨before, isBefore⟩ := left.installedHooks
  obtain ⟨after, isAfter⟩ := right.installedHooks
  exact
    { options := right.options.trans left.options
      hookImageBase := right.hookImageBase.trans left.hookImageBase
      modules := right.modules.trans left.modules
      images := right.images.trans left.images
      transportConfigured := right.transportConfigured.trans left.transportConfigured
      installedHooks := ⟨before ++ after, by rw [isAfter, isBefore, List.append_assoc]⟩ }

theorem Effect.frame {decode : Decoder} {install : HookDefinition → HookFunction.Calls}
    {definition : HookDefinition} {session next : DebugSession} {continues : Bool}
    (effect : Effect decode install definition session continues next) : Frame session next := by
  cases effect with
  | skipped => exact .refl session
  | pending => exact .refl session
  | unresolved => exact .refl session
  | sameAddress => exact .refl session
  | failed _ _ _ hookEffect => exact ⟨rfl, rfl, rfl, hookEffect.images, rfl, [], by simp⟩
  | installed _ _ _ hookEffect => exact ⟨rfl, rfl, rfl, hookEffect.images, rfl, _, rfl⟩

theorem loop_frame (decode : Decoder) (install : HookDefinition → HookFunction.Calls)
    (definitions : List HookDefinition) (session : DebugSession) :
    Frame session (loop decode install definitions session).2 :=
  @loop_induction decode install (Frame session) definitions session
    (fun _ _ _ _ _ framed effect => framed.trans effect.frame) (.refl session)

theorem rounds_frame (decode : Decoder) (install : HookDefinition → HookFunction.Calls)
    (definitions : List HookDefinition) (session : DebugSession) :
    ∀ visited ∈ rounds decode install definitions session,
      visited.1 ∈ definitions ∧ Frame session visited.2 := by
  induction definitions generalizing session with
  | nil => simp [rounds]
  | cons definition rest inductionHypothesis =>
      have effect := round_effect decode install definition session
      rw [rounds, List.forall_mem_cons]
      refine ⟨⟨List.mem_cons_self, .refl session⟩, ?_⟩
      revert effect
      generalize round decode install definition session = outcome
      obtain ⟨continues, next⟩ := outcome
      intro effect visited member
      cases continues with
      | false => cases member
      | true =>
          obtain ⟨selected, frame⟩ := inductionHypothesis next visited member
          exact ⟨List.mem_cons_of_mem _ selected, effect.frame.trans frame⟩

/-- Where a round keeps a property exactly under a condition, and the property
is never regained by installing more, the loop has it exactly if all its rounds
meet the condition. -/
theorem loop_iff {decode : Decoder} {install : HookDefinition → HookFunction.Calls}
    {holds : DebugSession → Prop} {keeps : HookDefinition → DebugSession → Prop}
    (exact : ∀ {definition : HookDefinition} {session next : DebugSession} {continues : Bool},
      holds session → Effect decode install definition session continues next →
        (holds next ↔ keeps definition session))
    (lasting : ∀ {session next : DebugSession}, Frame session next → holds next → holds session)
    {definitions : List HookDefinition} {session : DebugSession} (held : holds session) :
    holds (loop decode install definitions session).2 ↔
      ∀ visited ∈ rounds decode install definitions session, keeps visited.1 visited.2 := by
  induction definitions generalizing session with
  | nil => simpa [loop, rounds] using held
  | cons definition rest inductionHypothesis =>
      have effect := round_effect decode install definition session
      rw [loop, rounds, List.forall_mem_cons]
      revert effect
      generalize round decode install definition session = outcome
      obtain ⟨continues, next⟩ := outcome
      intro effect
      have first : holds next ↔ keeps definition session := exact held effect
      cases continues with
      | false => simpa using first
      | true =>
          constructor
          · intro final
            have heldNext := lasting (loop_frame decode install rest next) final
            exact ⟨first.mp heldNext, (inductionHypothesis heldNext).mp final⟩
          · rintro ⟨kept, others⟩
            exact (inductionHypothesis (first.mpr kept)).mpr others

end TryInstallPendingHooks

/-! ## Frames -/

/-- Nothing the session books about modules and hooks has changed. -/
structure SameBooks (session next : DebugSession) : Prop where
  options : next.options = session.options
  modules : next.modules = session.modules
  installedHooks : next.installedHooks = session.installedHooks
  transportConfigured : next.transportConfigured = session.transportConfigured
  moduleGeneration : next.moduleGeneration = session.moduleGeneration

theorem sameBooks_InitializeDebuggee (calls : InitializeDebuggee.Calls)
    (session : DebugSession) : SameBooks session (session.InitializeDebuggee calls).2 := by
  unfold InitializeDebuggee
  rcases InjectDll calls.inject session.process with ⟨hookImageBase, process⟩
  dsimp only
  split_ifs <;> exact ⟨rfl, rfl, rfl, rfl, rfl⟩

/-- The loop of `HandleUnloadDll` keeps the hooks between other modules. -/
theorem HandleUnloadDll.loop_fst (calls : ModuleEvent.Calls) (base : Nat)
    (hooks : List InstalledHook) (process : Target) :
    (HandleUnloadDll.loop calls base hooks process).1 =
      hooks.filter fun hook => hook.targetModuleBase ≠ base ∧ hook.sourceModuleBase ≠ base := by
  induction hooks generalizing process with
  | nil => rfl
  | cons hook rest inductionHypothesis =>
      rw [HandleUnloadDll.loop]
      split_ifs with target source
      · rw [inductionHypothesis, List.filter_cons_of_neg (by simp [target])]
      · rw [inductionHypothesis, List.filter_cons_of_neg (by simp [source])]
      · rw [List.filter_cons_of_pos (by simp [target, source])]
        exact congrArg (hook :: ·) (inductionHypothesis process)

/-! ## Installing while an event is handled -/

/-- The session the loop over the hooks starts from when a module is registered. -/
def RegisterModule.installing (decode : Decoder) (calls : ModuleEvent.Calls)
    (image : LoadedImage) (session : DebugSession) : Option DebugSession :=
  if image.name = [] then none
  else
    match (session.recordModule image).configureTransport decode calls.configure image with
    | (false, _) => none
    | (true, session) => if !session.transportConfigured then none else some session

def HandleCreateProcess.installing (decode : Decoder) (calls : ModuleEvent.Calls)
    (image : LoadedImage) (session : DebugSession) : Option DebugSession :=
  let (initialized, session) :=
    if session.hookImageBase = 0 then session.InitializeDebuggee calls.debuggee
    else (true, session)
  if !initialized then none else RegisterModule.installing decode calls image session

/-- The session the loop over the hooks starts from, if an event comes to it. -/
def HandleModuleEvent.installing (decode : Decoder) (calls : ModuleEvent.Calls)
    (event : ModuleEvent) (session : DebugSession) : Option DebugSession :=
  match event with
  | .createProcess image =>
      HandleCreateProcess.installing decode calls image (session.withImage image)
  | .loadDll image => RegisterModule.installing decode calls image (session.withImage image)
  | .unloadDll _ => none

/-- Before the loop nothing happens to the hooks, and nothing at all to the target once
the hook image is mapped and the transport is configured. -/
structure Enters (session entered : DebugSession) : Prop where
  options : entered.options = session.options
  installedHooks : entered.installedHooks = session.installedHooks
  mapped : session.hookImageBase ≠ 0 → entered.hookImageBase = session.hookImageBase
  settled : session.hookImageBase ≠ 0 → session.transportConfigured = true →
    entered.process = session.process ∧ entered.hookImageBase = session.hookImageBase ∧
      entered.hookImageSize = session.hookImageSize

/-- An event comes to the loop, or ends before it. -/
inductive Loads (decode : Decoder) (install : HookDefinition → HookFunction.Calls)
    (session : DebugSession) : Option DebugSession → Bool × DebugSession → Prop where
  | ends {handled : Bool} {entered : DebugSession} :
      Enters session entered → Loads decode install session none (handled, entered)
  | installs {entered : DebugSession} :
      Enters session entered → entered.transportConfigured = true →
      Loads decode install session (some entered) (entered.TryInstallPendingHooks decode install)

theorem RegisterModule.loads (decode : Decoder) (calls : ModuleEvent.Calls) (image : LoadedImage)
    (session : DebugSession) :
    Loads decode calls.install session (installing decode calls image session)
      (session.RegisterModule decode calls image) := by
  have enters : Enters session
      ((session.recordModule image).configureTransport decode calls.configure image).2 := by
    unfold configureTransport
    split_ifs with first
    · exact ⟨rfl, rfl, fun _ => rfl,
        fun _ configured => absurd (configured.symm.trans first.2) (by decide)⟩
    · exact ⟨rfl, rfl, fun _ => rfl, fun _ _ => ⟨rfl, rfl, rfl⟩⟩
  unfold RegisterModule.installing DebugSession.RegisterModule
  revert enters
  generalize (session.recordModule image).configureTransport decode calls.configure image =
    outcome
  obtain ⟨configured, entered⟩ := outcome
  intro enters
  split_ifs with unnamed
  · exact .ends ⟨rfl, rfl, fun _ => rfl, fun _ _ => ⟨rfl, rfl, rfl⟩⟩
  · cases configured with
    | false => exact .ends enters
    | true =>
        dsimp only
        split_ifs with unconfigured
        · exact .ends enters
        · exact .installs enters (by simpa using unconfigured)

theorem HandleCreateProcess.loads (decode : Decoder) (calls : ModuleEvent.Calls)
    (image : LoadedImage) (session : DebugSession) :
    Loads decode calls.install session (installing decode calls image session)
      (session.HandleCreateProcess decode calls image) := by
  unfold HandleCreateProcess.installing DebugSession.HandleCreateProcess
  by_cases first : session.hookImageBase = 0
  · have same := sameBooks_InitializeDebuggee calls.debuggee session
    have enters : ∀ entered, Enters (session.InitializeDebuggee calls.debuggee).2 entered →
        Enters session entered := fun entered enters =>
      ⟨enters.options.trans same.options, enters.installedHooks.trans same.installedHooks,
        fun mapped => absurd first mapped, fun mapped => absurd first mapped⟩
    simp only [if_pos first]
    split_ifs
    · exact .ends (enters _ ⟨rfl, rfl, fun _ => rfl, fun _ _ => ⟨rfl, rfl, rfl⟩⟩)
    · have loads := RegisterModule.loads decode calls image
        (session.InitializeDebuggee calls.debuggee).2
      revert loads
      generalize RegisterModule.installing decode calls image
        (session.InitializeDebuggee calls.debuggee).2 = entered
      generalize (session.InitializeDebuggee calls.debuggee).2.RegisterModule decode calls image =
        outcome
      intro loads
      cases loads with
      | ends before => exact .ends (enters _ before)
      | installs before configured => exact .installs (enters _ before) configured
  · simp only [if_neg first]
    exact RegisterModule.loads decode calls image session

/-- A module that goes is never followed by installing; one that comes may be. -/
theorem HandleModuleEvent.loads (decode : Decoder) (calls : ModuleEvent.Calls)
    (event : ModuleEvent) (session : DebugSession) :
    (∃ base, event = .unloadDll base) ∨
      ∃ image, Loads decode calls.install (session.withImage image)
        (installing decode calls event session) (session.HandleModuleEvent decode calls event) := by
  cases event with
  | createProcess image => exact Or.inr ⟨image, HandleCreateProcess.loads decode calls image _⟩
  | loadDll image => exact Or.inr ⟨image, RegisterModule.loads decode calls image _⟩
  | unloadDll base => exact Or.inl ⟨base, rfl⟩

/-- The hook image stays where it has been mapped. -/
theorem hookImageBase_HandleModuleEvent (decode : Decoder) (calls : ModuleEvent.Calls)
    (event : ModuleEvent) {session : DebugSession} (mapped : session.hookImageBase ≠ 0) :
    (session.HandleModuleEvent decode calls event).2.hookImageBase = session.hookImageBase := by
  rcases HandleModuleEvent.loads decode calls event session with ⟨base, rfl⟩ | ⟨image, loads⟩
  · rfl
  · generalize HandleModuleEvent.installing decode calls event session = entered at loads
    generalize session.HandleModuleEvent decode calls event = outcome at loads ⊢
    cases loads with
    | ends enters => exact enters.mapped mapped
    | installs enters =>
        exact (TryInstallPendingHooks.loop_frame _ _ _ _).hookImageBase.trans
          (enters.mapped mapped)

theorem installedHooks_HandleUnloadDll (calls : ModuleEvent.Calls) (base : Nat)
    (session : DebugSession) :
    (session.HandleUnloadDll calls base).installedHooks =
      session.installedHooks.filter fun hook =>
        hook.targetModuleBase ≠ base ∧ hook.sourceModuleBase ≠ base :=
  HandleUnloadDll.loop_fst calls base session.installedHooks _

/-! ## Images -/

theorem images_InjectDll_of_ne {calls : InjectDll.Calls} {base : Nat}
    (elsewhere : base ≠ calls.allocation) (process : Target) :
    (InjectDll calls process).2.images base = process.images base := by
  unfold InjectDll
  dsimp only
  split_ifs <;> simp [Target.mapImage, elsewhere]

theorem images_InitializeDebuggee_of_ne {calls : InitializeDebuggee.Calls} {base : Nat}
    (elsewhere : base ≠ calls.inject.allocation) (session : DebugSession) :
    (session.InitializeDebuggee calls).2.process.images base = session.process.images base := by
  have injected := images_InjectDll_of_ne elsewhere session.process
  unfold InitializeDebuggee
  revert injected
  generalize InjectDll calls.inject session.process = outcome
  obtain ⟨hookImageBase, process⟩ := outcome
  intro injected
  dsimp only
  split_ifs
  · rfl
  · exact injected
  · exact injected
  · rw [TraceSession.images_Start]
    exact injected

theorem images_configureTransport (decode : Decoder)
    (calls : TraceSession.ConfigureTransport.Calls) (image : LoadedImage)
    (session : DebugSession) :
    (session.configureTransport decode calls image).2.process.images = session.process.images := by
  unfold configureTransport
  split_ifs
  · exact TraceSession.images_ConfigureTransport _ _ decode calls _ _
  · rfl

/-- Behind the record and the transport nothing happens but installing. -/
theorem registerModule_induction {decode : Decoder} {calls : ModuleEvent.Calls}
    {image : LoadedImage} {session : DebugSession} {holds : DebugSession → Prop}
    (named : image.name ≠ [])
    (configured : holds
      ((session.recordModule image).configureTransport decode calls.configure image).2)
    (installs : ∀ next, holds next → holds (next.TryInstallPendingHooks decode calls.install).2) :
    holds (session.RegisterModule decode calls image).2 := by
  rw [RegisterModule, if_neg named]
  revert configured
  generalize (session.recordModule image).configureTransport decode calls.configure image =
    outcome
  obtain ⟨succeeded, next⟩ := outcome
  intro configured
  cases succeeded with
  | false => exact configured
  | true =>
      dsimp only
      split_ifs
      · exact configured
      · exact installs next configured

theorem images_RegisterModule (decode : Decoder) (calls : ModuleEvent.Calls)
    (image : LoadedImage) (session : DebugSession) :
    (session.RegisterModule decode calls image).2.process.images = session.process.images := by
  by_cases unnamed : image.name = []
  · rw [RegisterModule, if_pos unnamed]
  · apply @registerModule_induction decode calls image session
      (fun next => next.process.images = session.process.images) unnamed
    · exact images_configureTransport decode calls.configure image (session.recordModule image)
    · intro next same
      rw [TryInstallPendingHooks, (TryInstallPendingHooks.loop_frame _ _ _ _).images]
      exact same

theorem images_HandleUnloadDll (calls : ModuleEvent.Calls) (base : Nat)
    (session : DebugSession) :
    (session.HandleUnloadDll calls base).process.images = session.process.images := by
  have loop_images : ∀ (hooks : List InstalledHook) (process : Target),
      (HandleUnloadDll.loop calls base hooks process).2.images = process.images := by
    intro hooks
    induction hooks with
    | nil => exact fun process => rfl
    | cons hook rest inductionHypothesis =>
        intro process
        rw [HandleUnloadDll.loop]
        split_ifs
        · rw [inductionHypothesis, images_ReleaseUnloadedHook]
        · rw [inductionHypothesis, images_UnhookFunction]
        · exact inductionHypothesis process
  exact loop_images session.installedHooks session.process

/-- What is installed behind the record leaves the map alone. -/
theorem modules_RegisterModule (decode : Decoder) (calls : ModuleEvent.Calls)
    (image : LoadedImage) (session : DebugSession) :
    (session.RegisterModule decode calls image).2.modules =
      if image.name = [] then session.modules else (session.recordModule image).modules := by
  split_ifs with unnamed
  · rw [RegisterModule, if_pos unnamed]
  · apply @registerModule_induction decode calls image session
      (fun next => next.modules = (session.recordModule image).modules) unnamed
    · unfold configureTransport
      split_ifs <;> rfl
    · intro next same
      rw [TryInstallPendingHooks, (TryInstallPendingHooks.loop_frame _ _ _ _).modules]
      exact same

/-- Registering records at most the module that was reported. -/
theorem mem_modules_RegisterModule {decode : Decoder} {calls : ModuleEvent.Calls}
    {image : LoadedImage} {session : DebugSession} {module : ModuleRecord}
    (member : module ∈ (session.RegisterModule decode calls image).2.modules) :
    module.base = image.base ∨ module ∈ session.modules := by
  rw [modules_RegisterModule] at member
  split_ifs at member
  · exact Or.inr member
  · rcases mem_insertModule member with rfl | old
    · exact Or.inl rfl
    · exact Or.inr old

end DebugSession

end ApiScope
