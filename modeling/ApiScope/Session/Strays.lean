import ApiScope.Session.Invariant

/-!
# Hooks the session has forgotten

A hook can outlast its entry in the books.  `HookFunction` fails behind the write
of its patch and takes back the rest, or a module is unloaded and its hooks are
dropped whatever their removal came to.  Beside the session stand the hooks that
are left in the target in this way; one whose patch is gone has no bytes to be
written back any more.
-/

namespace ApiScope

/-! ## What one call leaves -/

namespace HookFunction

/-- The calls, had those behind the write of the patch succeeded. -/
def Calls.finished (calls : Calls) : Calls :=
  { calls with
    ok := fun call =>
      match call with
      | .patch .reprotect | .patch .flush => true
      | call => calls.ok call }

/-- The hook whose patch stays although `HookFunction` fails. -/
def stray (decode : Decoder) (calls : Calls) (originalFunction hookImageBase : Nat)
    (definition : HookDefinition) (target : Target) : Option InstalledHook :=
  if calls.ok (.patch .reprotect) && calls.ok (.patch .flush) then none
  else (HookFunction decode calls.finished originalFunction hookImageBase definition target).1

/-- The target behind a patch that stays. -/
def strayed (calls : Calls) (hook : InstalledHook) (newAddress : Nat) (target : Target) : Target :=
  ((target.withHook hook.originalFunction hook.originalBytes.length hook.trampolineAddress
    hook.trampolineSlot newAddress).WriteProcessMemory (calls.ok .clearSlot) hook.trampolineSlot
      (pointerBytes 0)).VirtualFreeEx (calls.ok .free) hook.trampolineAddress

section Stray

variable {decode : Decoder} {calls : Calls} {originalFunction hookImageBase : Nat}
  {definition : HookDefinition} {target : Target} {hook : InstalledHook}

theorem overwrites_finished :
    Overwrites decode calls.finished originalFunction hookImageBase definition target ↔
      Overwrites decode calls originalFunction hookImageBase definition target := by
  constructor
  · intro overwrites
    exact { overwrites with trampoline := { overwrites.trampoline with } }
  · intro overwrites
    exact { overwrites with trampoline := { overwrites.trampoline with } }

/-- A hook that is left has been patched in, and nothing else has been left of it. -/
theorem strayed_of_stray
    (left : stray decode calls originalFunction hookImageBase definition target = some hook) :
    ∃ newAddress,
      Installed decode calls.finished originalFunction hookImageBase definition target hook
        newAddress (target.withHook originalFunction hook.originalBytes.length calls.allocation
          hook.trampolineSlot newAddress) ∧
      HookFunction decode calls originalFunction hookImageBase definition target =
        (none, strayed calls hook newAddress target) := by
  unfold stray at left
  split_ifs at left with finished
  obtain ⟨newAddress, installed⟩ := HookFunction_installed left
  refine ⟨newAddress, { installed with after := rfl }, ?_⟩
  have course := HookFunction_course decode calls originalFunction hookImageBase definition target
  have overwrites := overwrites_finished.mp installed.overwrites
  obtain ⟨handlerExport, isHandler, handler⟩ := installed.handler
  obtain ⟨trampolineExport, isSlot, slot⟩ := installed.slotExport
  generalize HookFunction decode calls originalFunction hookImageBase definition target =
    outcome at course ⊢
  obtain ⟨made, after⟩ := outcome
  cases course with
  | refused unpublished => exact absurd overwrites.publishes unpublished
  | abandoned unpublished => exact absurd overwrites.publishes unpublished
  | discarded unpublished => exact absurd overwrites.publishes unpublished
  | withdrawn _ _ _ _ closed =>
      simp [overwrites.protect, overwrites.write] at closed
  | patched _ foundHandler foundSlot _ size =>
      cases handler.symm.trans foundHandler
      cases slot.symm.trans foundSlot
      rw [strayed, installed.function, installed.trampoline, ← isSlot, ← isHandler,
        installed.size, ← size]
      rfl
  | installed _ _ _ _ _ _ _ _ done => exact absurd done finished

/-- Where nothing is left the function has not been overwritten, or is hooked. -/
theorem not_overwrites_of_stray_none
    (nothing : stray decode calls originalFunction hookImageBase definition target = none)
    (failed : (HookFunction decode calls originalFunction hookImageBase definition target).1 =
      none) :
    ¬Overwrites decode calls originalFunction hookImageBase definition target := by
  intro overwrites
  unfold stray at nothing
  have course := HookFunction_course decode calls originalFunction hookImageBase definition target
  have finishing := HookFunction_effect decode calls.finished originalFunction hookImageBase
    definition target
  split_ifs at nothing with finished
  · rw [failed] at course
    generalize (HookFunction decode calls originalFunction hookImageBase definition target).2 =
      after at course
    cases course with
    | refused unpublished => exact unpublished overwrites.publishes
    | abandoned unpublished => exact unpublished overwrites.publishes
    | discarded unpublished => exact unpublished overwrites.publishes
    | withdrawn _ _ _ _ closed => simp [overwrites.protect, overwrites.write] at closed
    | patched _ _ _ _ _ _ _ unfinished => simp [unfinished] at finished
  · have finishes := overwrites_finished.mpr overwrites
    rw [nothing] at finishing
    generalize (HookFunction decode calls.finished originalFunction hookImageBase definition
      target).2 = after at finishing
    cases finishing with
    | refused stopped => exact stopped finishes
    | abandoned stopped => exact stopped finishes
    | discarded stopped => exact stopped finishes
    | withdrawn stopped => exact stopped finishes
    | leftPatched _ _ _ unfinished => simp [Calls.finished] at unfinished

end Stray

end HookFunction

/-- A hook whose bytes have been written back, or are gone with their image. -/
def InstalledHook.unpatched (hook : InstalledHook) : InstalledHook :=
  { hook with originalBytes := [] }

instance (hook : InstalledHook) : Decidable hook.Valid :=
  inferInstanceAs (Decidable (_ ∧ _ ∧ _ ∧ _))

/-- The saved bytes of the hook are written back. -/
def InstalledHook.WrittenBack (hook : InstalledHook) (ok : UnhookFunction.Call → Bool) : Prop :=
  hook.Valid ∧ ok .protect = true ∧ ok .restore = true

instance (hook : InstalledHook) (ok : UnhookFunction.Call → Bool) :
    Decidable (hook.WrittenBack ok) :=
  inferInstanceAs (Decidable (_ ∧ _ ∧ _))

/-- What is left of a hook that `UnhookFunction` was to remove. -/
def UnhookFunction.stray (ok : UnhookFunction.Call → Bool) (hook : InstalledHook) :
    Option InstalledHook :=
  if hook.WrittenBack ok then
    if ok .reprotect && ok .flush && ok .clearSlot && ok .free then none else some hook.unpatched
  else some hook

/-- What is left of a hook whose module is gone. -/
def ReleaseUnloadedHook.stray (ok : ReleaseUnloadedHook.Call → Bool) (hook : InstalledHook) :
    Option InstalledHook :=
  if ok .free then none else some hook.unpatched

/-- The hooks whose patch stands in the target, in the books or not. -/
def standing (hooks strays : List InstalledHook) : List InstalledHook :=
  hooks ++ strays.filter (·.originalBytes ≠ [])

theorem mem_standing {hooks strays : List InstalledHook} {hook : InstalledHook} :
    hook ∈ standing hooks strays ↔
      hook ∈ hooks ∨ hook ∈ strays ∧ hook.originalBytes ≠ [] := by
  simp [standing]

namespace DebugSession

/-! ## What an event leaves -/

namespace TryInstallPendingHooks

/-- The hook this round leaves behind. -/
def stray (decode : Decoder) (install : HookDefinition → HookFunction.Calls)
    (definition : HookDefinition) (session : DebugSession) : Option InstalledHook :=
  if session.installedHooks.any (·.canonicalName == definition.canonicalName) then none
  else
    match ResolveHookAddress session.process session.modules definition with
    | (_, .pending) | (_, .error) => none
    | (sourceModuleBase, .resolved address targetModuleBase) =>
        if session.installedHooks.any (·.originalFunction == address) then none
        else
          (HookFunction.stray decode (install definition) address session.hookImageBase definition
            session.process).map fun hook =>
              { hook with
                sourceModuleBase := sourceModuleBase.getD 0
                targetModuleBase := targetModuleBase }

/-- The hooks the loop leaves behind: at most the one at which it ends. -/
def strays (decode : Decoder) (install : HookDefinition → HookFunction.Calls)
    (definitions : List HookDefinition) (session : DebugSession) : List InstalledHook :=
  (rounds decode install definitions session).filterMap fun visited =>
    stray decode install visited.1 visited.2

end TryInstallPendingHooks

/-- What is left of a hook when a module is unloaded. -/
def HandleUnloadDll.stray (calls : ModuleEvent.Calls) (base : Nat) (hook : InstalledHook) :
    Option InstalledHook :=
  if hook.targetModuleBase = base then ReleaseUnloadedHook.stray (calls.release hook) hook
  else if hook.sourceModuleBase = base then UnhookFunction.stray (calls.unhook hook) hook
  else none

/-- The patches in an image go with it. -/
def leaveImage (base : Nat) (hook : InstalledHook) : InstalledHook :=
  if hook.targetModuleBase = base then hook.unpatched else hook

/-- The forgotten hooks after an event. -/
def HandleModuleEvent.strays (decode : Decoder) (calls : ModuleEvent.Calls) (event : ModuleEvent)
    (session : DebugSession) (strays : List InstalledHook) : List InstalledHook :=
  match event with
  | .unloadDll base =>
      strays.map (leaveImage base) ++
        session.installedHooks.filterMap (HandleUnloadDll.stray calls base)
  | .createProcess _ | .loadDll _ =>
      strays ++
        match HandleModuleEvent.installing decode calls event session with
        | none => []
        | some entered =>
            TryInstallPendingHooks.strays decode calls.install entered.options.hooks entered

/-! ## Runs -/

/-- A session and the hooks it has forgotten. -/
structure Tracked where
  session : DebugSession
  strays : List InstalledHook

def Tracked.patches (state : Tracked) : List InstalledHook :=
  standing state.session.installedHooks state.strays

def Tracked.forget (decode : Decoder) (state : Tracked) : SessionLabel → List InstalledHook
  | .targetRuns _ => state.strays
  | .event event calls _ => HandleModuleEvent.strays decode calls event state.session state.strays

/-- The sessions, with the hooks they forget. -/
def tracked (decode : Decoder) (options : CommandLineOptions) :
    Transition.System Tracked SessionLabel where
  initial := fun state => (system decode options).initial state.session ∧ state.strays = []
  step := fun state label next =>
    (system decode options).step state.session label next.session ∧
      next.strays = state.forget decode label

section Tracked

variable {decode : Decoder} {options : CommandLineOptions} {labels : List SessionLabel}

/-- To keep track of the hooks does not keep a session from anything. -/
theorem tracked_of_run {session : DebugSession} (run : (system decode options).Run labels session) :
    ∃ strays, (tracked decode options).Run labels ⟨session, strays⟩ := by
  obtain ⟨first, isInitial, path⟩ := run
  induction path with
  | refl => exact ⟨[], .start ⟨isInitial, rfl⟩⟩
  | snoc _ taken inductionHypothesis =>
      obtain ⟨strays, run⟩ := inductionHypothesis
      exact ⟨_, run.snoc ⟨taken, rfl⟩⟩

theorem run_of_tracked {state : Tracked} (run : (tracked decode options).Run labels state) :
    (system decode options).Run labels state.session := by
  obtain ⟨first, isInitial, path⟩ := run
  induction path with
  | refl => exact .start isInitial.1
  | snoc _ taken inductionHypothesis => exact inductionHypothesis.snoc taken.1

end Tracked

/-- One event after the other, with nothing between them. -/
def Tracked.handleAll (decode : Decoder) :
    List (ModuleEvent × ModuleEvent.Calls) → Tracked → Tracked
  | [], state => state
  | (event, calls) :: rest, state =>
      handleAll decode rest
        ⟨(state.session.HandleModuleEvent decode calls event).2,
          HandleModuleEvent.strays decode calls event state.session state.strays⟩

/-- Each of these events is allowed when its turn comes. -/
def Tracked.Allowed (decode : Decoder) (allowed : Tracked → SessionLabel → Prop) :
    List (ModuleEvent × ModuleEvent.Calls) → Tracked → Prop
  | [], _ => True
  | (event, calls) :: rest, state =>
      allowed state
          (.event event calls (state.session.HandleModuleEvent decode calls event).1) ∧
        Allowed decode allowed rest
          ⟨(state.session.HandleModuleEvent decode calls event).2,
            HandleModuleEvent.strays decode calls event state.session state.strays⟩

instance Tracked.decidableAllowed (decode : Decoder) (allowed : Tracked → SessionLabel → Prop)
    [∀ state label, Decidable (allowed state label)] :
    (events : List (ModuleEvent × ModuleEvent.Calls)) → (state : Tracked) →
      Decidable (Tracked.Allowed decode allowed events state)
  | [], _ => isTrue trivial
  | (event, calls) :: rest, state =>
      have := decidableAllowed decode allowed rest
        ⟨(state.session.HandleModuleEvent decode calls event).2,
          HandleModuleEvent.strays decode calls event state.session state.strays⟩
      inferInstanceAs (Decidable (_ ∧ _))

theorem Tracked.handleAll_path (decode : Decoder) (options : CommandLineOptions)
    (allowed : Tracked → SessionLabel → Prop)
    (events : List (ModuleEvent × ModuleEvent.Calls)) (state : Tracked)
    (each : Tracked.Allowed decode allowed events state) :
    ((tracked decode options).restrict allowed).Path state
      (DebugSession.handleAll.labels decode events state.session)
      (Tracked.handleAll decode events state) := by
  induction events generalizing state with
  | nil => exact .refl state
  | cons first rest inductionHypothesis =>
      have taken : ((tracked decode options).restrict allowed).step state
          (.event first.1 first.2 (state.session.HandleModuleEvent decode first.2 first.1).1)
          ⟨(state.session.HandleModuleEvent decode first.2 first.1).2,
            HandleModuleEvent.strays decode first.2 first.1 state.session state.strays⟩ :=
        ⟨⟨rfl, rfl⟩, each.1⟩
      exact .cons taken (inductionHypothesis _ each.2)

theorem Tracked.handleAll_run (decode : Decoder) (options : CommandLineOptions)
    (allowed : Tracked → SessionLabel → Prop)
    (events : List (ModuleEvent × ModuleEvent.Calls)) (process : Target)
    (processId stopEvent : Nat)
    (each : Tracked.Allowed decode allowed events
      ⟨construct options process processId stopEvent, []⟩) :
    ((tracked decode options).restrict allowed).Run
      (DebugSession.handleAll.labels decode events (construct options process processId stopEvent))
      (Tracked.handleAll decode events ⟨construct options process processId stopEvent, []⟩) :=
  ⟨_, ⟨⟨process, processId, stopEvent, rfl⟩, rfl⟩,
    Tracked.handleAll_path decode options allowed events _ each⟩

end DebugSession

end ApiScope
