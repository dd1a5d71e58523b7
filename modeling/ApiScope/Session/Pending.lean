import ApiScope.Session.Forwarders
import ApiScope.Session.Invariant

/-!
# Hooks that are not missed

A selected hook that is not installed should be waiting for a module.  Loading
a module retries every hook, so a load keeps this.  Unloading one retries
nothing: a hook is missed if its export is followed to the unloaded module and
another module of that name is loaded, or if it was installed on the unloaded
module by a way that it would no longer take.
-/

namespace ApiScope

namespace DebugSession

/-- Every selected hook is installed or waits for a module. -/
def NoHookMissed (session : DebugSession) : Prop :=
  session.transportConfigured = true → ∀ definition ∈ session.options.hooks,
    (∃ hook ∈ session.installedHooks, hook.canonicalName = definition.canonicalName) ∨
      (ResolveHookAddress session.process session.modules definition).2 = .pending

instance (session : DebugSession) : Decidable session.NoHookMissed :=
  inferInstanceAs (Decidable (_ → ∀ definition ∈ session.options.hooks, _ ∨ _))

/-- The event is handled, and no image is mapped over another one. -/
def Orderly (session : DebugSession) : SessionLabel → Prop
  | .targetRuns _ => True
  | .event event calls handled =>
      handled = true ∧
        match event with
        | .createProcess image =>
            session.process.images image.base = none ∧
              (session.hookImageBase = 0 →
                session.process.images calls.debuggee.inject.allocation = none ∧
                  calls.debuggee.inject.allocation ≠ image.base)
        | .loadDll image => session.process.images image.base = none
        | .unloadDll _ => True

instance (session : DebugSession) : (label : SessionLabel) → Decidable (session.Orderly label)
  | .targetRuns _ => isTrue trivial
  | .event (.createProcess _) _ _ => inferInstanceAs (Decidable (_ ∧ _ ∧ (_ → _ ∧ _)))
  | .event (.loadDll _) _ _ => inferInstanceAs (Decidable (_ ∧ _))
  | .event (.unloadDll _) _ _ => inferInstanceAs (Decidable (_ ∧ True))

/-- The runs in which every event is handled. -/
def orderly (decode : Decoder) (options : CommandLineOptions) :
    Transition.System DebugSession SessionLabel :=
  (system decode options).restrict Orderly

/-- The module at `base` is the one that is found under the name. -/
def FoundAt (modules : List ModuleRecord) (base : Nat) (name : List UInt8) : Prop :=
  ∃ module, FindModule modules name = some module ∧ module.base = base

/-- Another loaded module has the name of the one at `base`. -/
def HasNamesake (modules : List ModuleRecord) (base : Nat) : Prop :=
  ∃ module ∈ modules, module.base = base ∧
    ∃ other ∈ modules, other.base ≠ base ∧ other.name = module.name

/-- Whoever follows the export of the hook through the loaded modules comes to the
module at `base`. -/
def LeadsTo (session : DebugSession) (base : Nat) (definition : HookDefinition) : Prop :=
  FoundAt session.modules base definition.moduleName ∨
    Pursuit.Passes (answer session.process session.modules) ExportReference.identity 8 []
      ⟨definition.moduleName, definition.exportName⟩
      fun reference => FoundAt session.modules base (lookupName reference.moduleName)

/-- The module at `base` has a namesake through which the hook does not wait. -/
def HasSuccessor (session : DebugSession) (base : Nat) (definition : HookDefinition) : Prop :=
  HasNamesake session.modules base ∧
    (ResolveHookAddress session.process (session.modules.filter (·.base ≠ base))
      definition).2 ≠ .pending

/-- A hook that is not installed apart from the unloaded module leads to it and has
no successor there, or leads elsewhere and waits. -/
def KeepsUp (session : DebugSession) : SessionLabel → Prop
  | .event (.unloadDll base) _ _ =>
      session.transportConfigured = true → ∀ definition ∈ session.options.hooks,
        (∃ hook ∈ session.installedHooks, hook.canonicalName = definition.canonicalName ∧
            hook.targetModuleBase ≠ base ∧ hook.sourceModuleBase ≠ base) ∨
          (session.LeadsTo base definition ∧ ¬session.HasSuccessor base definition) ∨
          (¬session.LeadsTo base definition ∧
            (ResolveHookAddress session.process session.modules definition).2 = .pending)
  | _ => True

/-- The session only knows modules whose image is mapped. -/
def Mapped (session : DebugSession) : Prop :=
  ∀ module ∈ session.modules, session.process.images module.base ≠ none

/-! ## Installing -/

namespace TryInstallPendingHooks

/-- A round that goes on leaves its hook installed or waiting. -/
theorem Effect.settles {decode : Decoder} {install : HookDefinition → HookFunction.Calls}
    {definition : HookDefinition} {session next : DebugSession}
    (effect : Effect decode install definition session true next) :
    (∃ hook ∈ next.installedHooks, hook.canonicalName = definition.canonicalName) ∨
      (ResolveHookAddress next.process next.modules definition).2 = .pending := by
  cases effect with
  | @skipped hook member named => exact Or.inl ⟨hook, member, named⟩
  | pending resolution => exact Or.inr (by rw [resolution])
  | installed _ _ _ hookEffect =>
      obtain ⟨named, _⟩ := HookFunction_effect_installed hookEffect
      exact Or.inl ⟨_, List.mem_append_right _ (List.mem_singleton_self _), named⟩

/-- What one round has settled stays settled. -/
theorem Frame.settled {session next : DebugSession} (frame : Frame session next)
    {definition : HookDefinition}
    (settled : (∃ hook ∈ session.installedHooks, hook.canonicalName = definition.canonicalName) ∨
      (ResolveHookAddress session.process session.modules definition).2 = .pending) :
    (∃ hook ∈ next.installedHooks, hook.canonicalName = definition.canonicalName) ∨
      (ResolveHookAddress next.process next.modules definition).2 = .pending := by
  refine settled.imp ?_ fun pending => ?_
  · rintro ⟨hook, member, named⟩
    obtain ⟨installed, isInstalled⟩ := frame.installedHooks
    exact ⟨hook, by rw [isInstalled]; exact List.mem_append_left _ member, named⟩
  · have sameExports : ResolveHookAddress next.process session.modules definition =
        ResolveHookAddress session.process session.modules definition :=
      ResolveHookAddress_congr (fun module _ => by rw [frame.images]) definition
    rw [frame.modules, sameExports]
    exact pending

theorem loop_settles {decode : Decoder} {install : HookDefinition → HookFunction.Calls}
    {definitions : List HookDefinition} {session next : DebugSession}
    (finished : loop decode install definitions session = (true, next)) :
    ∀ definition ∈ definitions,
      (∃ hook ∈ next.installedHooks, hook.canonicalName = definition.canonicalName) ∨
        (ResolveHookAddress next.process next.modules definition).2 = .pending := by
  induction definitions generalizing session with
  | nil => simp
  | cons first rest inductionHypothesis =>
      have effect := round_effect decode install first session
      rw [loop] at finished
      revert effect finished
      generalize round decode install first session = outcome
      obtain ⟨continues, middle⟩ := outcome
      intro finished effect
      cases continues with
      | false => simp at finished
      | true =>
          have frame := loop_frame decode install rest middle
          rw [show (loop decode install rest middle).2 = next from congrArg Prod.snd finished]
            at frame
          intro definition member
          rcases List.mem_cons.mp member with rfl | behind
          · exact frame.settled effect.settles
          · exact inductionHypothesis finished definition behind

end TryInstallPendingHooks

theorem NoHookMissed.of_tryInstallPendingHooks {decode : Decoder}
    {install : HookDefinition → HookFunction.Calls} {session next : DebugSession}
    (finished : session.TryInstallPendingHooks decode install = (true, next)) :
    next.NoHookMissed := by
  intro _ definition member
  have frame := TryInstallPendingHooks.loop_frame decode install session.options.hooks session
  have final : (TryInstallPendingHooks.loop decode install session.options.hooks session).2 =
      next := congrArg Prod.snd finished
  rw [final] at frame
  rw [frame.options] at member
  exact TryInstallPendingHooks.loop_settles finished definition member

/-! ## Loading -/

/-- A session that is about to register an image: nothing it knows has changed. -/
structure Prepared (session : DebugSession) (image : LoadedImage) (prepared : DebugSession) :
    Prop where
  books : SameBooks session prepared
  images : ∀ module ∈ session.modules,
    prepared.process.images module.base = session.process.images module.base
  mapped : prepared.process.images image.base ≠ none

theorem prepared_mapImage {session : DebugSession} {image : LoadedImage}
    (known : session.Mapped) (free : session.process.images image.base = none) :
    session.Prepared image (session.withImage image) where
  books := ⟨rfl, rfl, rfl, rfl, rfl⟩
  images := fun module member =>
    Function.update_of_ne (fun same => known module member (by rw [same, free])) _ _
  mapped := by simp [withImage, Target.mapImage]

/-- Handling the load of an image comes down to registering it. -/
theorem registers_of_orderly {decode : Decoder} {calls : ModuleEvent.Calls}
    {event : ModuleEvent} {image : LoadedImage} {session next : DebugSession}
    (loads : event = .createProcess image ∨ event = .loadDll image) (known : session.Mapped)
    (orderly : session.Orderly (.event event calls true))
    (handled : session.HandleModuleEvent decode calls event = (true, next)) :
    ∃ prepared, session.Prepared image prepared ∧
      prepared.RegisterModule decode calls image = (true, next) := by
  rcases loads with rfl | rfl
  · obtain ⟨_, free, injectsElsewhere⟩ := orderly
    have mapping := prepared_mapImage known free
    simp only [HandleModuleEvent, HandleCreateProcess] at handled
    by_cases first : session.hookImageBase = 0
    · obtain ⟨injectFree, injectOther⟩ := injectsElsewhere first
      have same := sameBooks_InitializeDebuggee calls.debuggee (session.withImage image)
      have first' : (session.withImage image).hookImageBase = 0 := first
      rw [if_pos first'] at handled
      split_ifs at handled with failed
      · simp at handled
      refine ⟨_, ⟨⟨same.options, same.modules, same.installedHooks, same.transportConfigured,
        same.moduleGeneration⟩, fun module member => ?_, ?_⟩, handled⟩
      · have elsewhere : module.base ≠ calls.debuggee.inject.allocation :=
          fun isInject => known module member (by rw [isInject, injectFree])
        rw [images_InitializeDebuggee_of_ne elsewhere]
        exact mapping.images module member
      · rw [images_InitializeDebuggee_of_ne injectOther.symm]
        exact mapping.mapped
    · have notFirst : ¬(session.withImage image).hookImageBase = 0 := first
      rw [if_neg notFirst] at handled
      exact ⟨_, mapping, handled⟩
  · exact ⟨_, prepared_mapImage known orderly.2, handled⟩

theorem Mapped.registerModule {decode : Decoder} {calls : ModuleEvent.Calls}
    {image : LoadedImage} {session prepared next : DebugSession} (known : session.Mapped)
    (prepares : session.Prepared image prepared)
    (registered : prepared.RegisterModule decode calls image = (true, next)) : next.Mapped := by
  intro module member
  have images := images_RegisterModule decode calls image prepared
  rw [registered] at images
  rw [images]
  have recorded : module ∈ (prepared.RegisterModule decode calls image).2.modules := by
    rw [registered]
    exact member
  rcases mem_modules_RegisterModule recorded with isImage | old
  · rw [isImage]
    exact prepares.mapped
  · rw [prepares.books.modules] at old
    rw [prepares.images module old]
    exact known module old

theorem NoHookMissed.registerModule {decode : Decoder} {calls : ModuleEvent.Calls}
    {image : LoadedImage} {session prepared next : DebugSession} (missed : session.NoHookMissed)
    (prepares : session.Prepared image prepared)
    (registered : prepared.RegisterModule decode calls image = (true, next)) :
    next.NoHookMissed := by
  unfold RegisterModule at registered
  revert registered
  generalize (prepared.recordModule image).configureTransport decode calls.configure image =
    outcome
  obtain ⟨configured, middle⟩ := outcome
  intro registered
  split_ifs at registered
  · -- The image is not identified, so the books still speak of the same exports.
    have isPrepared : prepared = next := congrArg Prod.snd registered
    subst isPrepared
    intro isConfigured definition member
    rw [prepares.books.transportConfigured] at isConfigured
    rw [prepares.books.options] at member
    rw [prepares.books.installedHooks, prepares.books.modules,
      ResolveHookAddress_congr prepares.images]
    exact missed isConfigured definition member
  · cases configured with
    | false => cases registered
    | true =>
        dsimp only at registered
        split_ifs at registered with unconfigured
        · have isMiddle : middle = next := congrArg Prod.snd registered
          subst isMiddle
          intro isConfigured
          simp [isConfigured] at unconfigured
        · exact .of_tryInstallPendingHooks registered

/-! ## Unloading -/

section Unloading

variable {session : DebugSession} {modules : List ModuleRecord} {base : Nat}
  {definition : HookDefinition}

theorem isNewest_eraseModule {name : List UInt8} {module : ModuleRecord}
    (newest : IsNewest modules name module) (elsewhere : module.base ≠ base) :
    IsNewest (eraseModule base modules) name module := by
  obtain ⟨before, behind, rfl, named, older, notNewer⟩ := newest
  refine ⟨eraseModule base before, eraseModule base behind, ?_, named, ?_, ?_⟩
  · rw [eraseModule, List.filter_append, List.filter_cons_of_pos (by simpa using elsewhere)]
    rfl
  · exact fun other member => older other (mem_eraseModule.mp member).1
  · exact fun other member => notNewer other (mem_eraseModule.mp member).1

/-- A module that is not found under a name is not missed under it. -/
theorem FindModule_eraseModule {name : List UInt8} (elsewhere : ¬FoundAt modules base name) :
    FindModule (eraseModule base modules) name = FindModule modules name := by
  cases search : FindModule modules name with
  | none =>
      refine FindModule_eq_none_iff.mpr fun module member => ?_
      exact FindModule_eq_none_iff.mp search module (mem_eraseModule.mp member).1
  | some module =>
      refine FindModule_eq_some_iff.mpr (isNewest_eraseModule (FindModule_eq_some_iff.mp search) ?_)
      exact fun same => elsewhere ⟨module, search, same⟩

/-- Without a namesake nothing is found in its place. -/
theorem FindModule_eraseModule_of_lone {name : List UInt8} (found : FoundAt modules base name)
    (lone : ¬HasNamesake modules base) : FindModule (eraseModule base modules) name = none := by
  obtain ⟨module, search, isBase⟩ := found
  obtain ⟨member, named⟩ := FindModule_some search
  refine FindModule_eq_none_iff.mpr fun other inside isNamed => ?_
  obtain ⟨loaded, elsewhere⟩ := mem_eraseModule.mp inside
  exact lone ⟨module, member, isBase, other, loaded, elsewhere, isNamed.trans named.symm⟩

theorem answer_eraseModule {process : Target} {reference : ExportReference}
    (elsewhere : ¬FoundAt modules base (lookupName reference.moduleName)) :
    answer process (eraseModule base modules) reference = answer process modules reference := by
  rw [answer, answer, FindModule_eraseModule elsewhere]

theorem answer_eraseModule_of_lone {process : Target} {reference : ExportReference}
    (found : FoundAt modules base (lookupName reference.moduleName))
    (lone : ¬HasNamesake modules base) :
    answer process (eraseModule base modules) reference = .absent := by
  rw [answer, FindModule_eraseModule_of_lone found lone]

/-- A hook that does not lead to a module resolves as before without it. -/
theorem ResolveHookAddress_eraseModule (elsewhere : ¬session.LeadsTo base definition) :
    ResolveHookAddress session.process (eraseModule base session.modules) definition =
      ResolveHookAddress session.process session.modules definition := by
  obtain ⟨notSource, avoids⟩ := not_or.mp elsewhere
  have chain := Pursuit.pursue_congr
    (fun reference elsewhere => @answer_eraseModule _ _ session.process reference elsewhere) avoids
  rw [ResolveHookAddress, ResolveHookAddress, FindModule_eraseModule notSource,
    ResolveExportAddress_eq_pursue, ResolveExportAddress_eq_pursue, chain]

/-- A hook that leads to a module without namesakes waits for it once it is gone. -/
theorem pending_of_lone (leads : session.LeadsTo base definition)
    (lone : ¬HasNamesake session.modules base) :
    (ResolveHookAddress session.process (eraseModule base session.modules) definition).2 =
      .pending := by
  unfold ResolveHookAddress
  cases search : FindModule (eraseModule base session.modules) definition.moduleName with
  | none => rfl
  | some source =>
      rcases leads with isSource | passes
      · rw [FindModule_eraseModule_of_lone isSource lone] at search
        cases search
      · have ends := Pursuit.pursue_withdrawn
          (fun reference elsewhere =>
            @answer_eraseModule _ _ session.process reference elsewhere)
          (fun reference found =>
            @answer_eraseModule_of_lone _ _ session.process reference found lone) passes
        dsimp only
        rw [ResolveExportAddress_eq_pursue, ends]

theorem pending_eraseModule_iff :
    (ResolveHookAddress session.process (eraseModule base session.modules) definition).2 =
        .pending ↔
      session.LeadsTo base definition ∧ ¬session.HasSuccessor base definition ∨
        ¬session.LeadsTo base definition ∧
          (ResolveHookAddress session.process session.modules definition).2 = .pending := by
  by_cases leads : session.LeadsTo base definition
  · simp only [leads, true_and, not_true_eq_false, false_and, or_false]
    constructor
    · exact fun waits successor => successor.2 waits
    · intro none
      by_contra resolves
      exact resolves (pending_of_lone leads fun namesake => none ⟨namesake, resolves⟩)
  · simp [leads, ResolveHookAddress_eraseModule leads]

/-- Unloading misses no hook exactly if the session keeps up with it. -/
theorem noHookMissed_unload_iff {calls : ModuleEvent.Calls} :
    ((session.withoutImage base).HandleUnloadDll calls base).NoHookMissed ↔
        session.KeepsUp (.event (.unloadDll base) calls true) := by
  have kept : ((session.withoutImage base).HandleUnloadDll calls base).installedHooks =
      session.installedHooks.filter fun hook =>
        hook.targetModuleBase ≠ base ∧ hook.sourceModuleBase ≠ base :=
    HandleUnloadDll.loop_fst calls base session.installedHooks _
  have sameExports : ∀ definition,
      ResolveHookAddress ((session.withoutImage base).HandleUnloadDll calls base).process
          (eraseModule base session.modules) definition =
        ResolveHookAddress session.process (eraseModule base session.modules) definition :=
    ResolveHookAddress_congr fun module member => by
      rw [images_HandleUnloadDll]
      exact Function.update_of_ne (mem_eraseModule.mp member).2 _ _
  have survives : ∀ definition : HookDefinition,
      (∃ hook ∈ ((session.withoutImage base).HandleUnloadDll calls base).installedHooks,
          hook.canonicalName = definition.canonicalName) ↔
        ∃ hook ∈ session.installedHooks, hook.canonicalName = definition.canonicalName ∧
          hook.targetModuleBase ≠ base ∧ hook.sourceModuleBase ≠ base := by
    intro definition
    rw [kept]
    simp only [List.mem_filter, decide_eq_true_eq]
    exact exists_congr fun hook => by tauto
  unfold NoHookMissed KeepsUp
  refine imp_congr Iff.rfl (forall_congr' fun definition => imp_congr Iff.rfl ?_)
  refine or_congr (survives definition) ?_
  rw [← pending_eraseModule_iff, ← sameExports definition]
  rfl

end Unloading

/-! ## Runs -/

theorem mapped_of_orderly {decode : Decoder} {options : CommandLineOptions}
    {labels : List SessionLabel} {session : DebugSession}
    (run : (orderly decode options).Run labels session) : session.Mapped := by
  refine @Transition.System.Run.invariant _ _ _ (fun _ state => state.Mapped) ?_ ?_ _ _ run
  · rintro state ⟨process, processId, stopEvent, rfl⟩ module member
    cases member
  · rintro history state label next known ⟨taken, allowed⟩
    cases label with
    | targetRuns memory =>
        cases taken
        exact known
    | event event calls handled =>
        obtain rfl : handled = true := allowed.1
        cases event with
        | createProcess image | loadDll image =>
            obtain ⟨prepared, prepares, registered⟩ :=
              @registers_of_orderly _ _ _ image _ _ (by simp) known allowed taken
            exact known.registerModule prepares registered
        | unloadDll base =>
            cases taken
            intro module member
            obtain ⟨old, elsewhere⟩ := mem_eraseModule.mp member
            rw [images_HandleUnloadDll]
            have unmapped : (state.withoutImage base).process.images module.base =
                state.process.images module.base := Function.update_of_ne elsewhere _ _
            rw [unmapped]
            exact known module old

/-- A run of handled events misses no hook in any of its states exactly if the
session keeps up with every unload in it. -/
theorem noHookMissed_iff (decode : Decoder) (options : CommandLineOptions)
    (labels : List SessionLabel) (last : DebugSession) :
    (∀ before session after, labels = before ++ after →
        (orderly decode options).Passes before session after last → session.NoHookMissed) ↔
      ∀ before session label after, labels = before ++ label :: after →
        (orderly decode options).Passes before session (label :: after) last →
          session.KeepsUp label := by
  apply Transition.System.Run.always_iff
  · rintro session ⟨process, processId, stopEvent, rfl⟩ configured
    cases configured
  · rintro before session next label run ⟨taken, allowed⟩ missed
    have known := mapped_of_orderly run
    cases label with
    | targetRuns memory =>
        cases taken
        exact iff_of_true missed trivial
    | event event calls handled =>
        obtain rfl : handled = true := allowed.1
        cases event with
        | createProcess image | loadDll image =>
            obtain ⟨prepared, prepares, registered⟩ :=
              @registers_of_orderly _ _ _ image _ _ (by simp) known allowed taken
            exact iff_of_true (missed.registerModule prepares registered) trivial
        | unloadDll base =>
            cases taken
            exact noHookMissed_unload_iff

namespace Sample

/-- Two copies of `a.dll` are loaded, and the one that was hooked goes. -/
def copyUnloaded : List (ModuleEvent × ModuleEvent.Calls) :=
  started ++ [loaded 0x30000 [("f", 0x31000)], loaded 0x40000 [("f", 0x41000)],
    (.unloadDll 0x30000, calls)]

end Sample

/-- Every event is handled, and the hook that could be installed is not. -/
theorem hook_missed_after_unload :
    ¬∀ decode options labels session, (orderly decode options).Run labels session →
      session.NoHookMissed := by
  intro always
  have missed : handleAll.Allowed Sample.decode Orderly Sample.copyUnloaded
        (construct (Sample.options ["f"]) Sample.process 4 5) ∧
      ¬(Sample.session ["f"] Sample.copyUnloaded).NoHookMissed := by
    decide +kernel
  exact missed.2 (always _ _ _ _ (handleAll_run_restrict Sample.decode (Sample.options ["f"])
    Orderly Sample.copyUnloaded Sample.process 4 5 missed.1))

end DebugSession

end ApiScope
