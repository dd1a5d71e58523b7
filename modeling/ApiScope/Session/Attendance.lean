import ApiScope.Session.History

/-!
# The history of a session

What a session does to the target from one event to the next makes up a history of its
hooks, as long as the system puts modules, trampolines and slots where it always does.
-/

namespace ApiScope

namespace DebugSession

/-- The calls of a round go where those of an installation go. -/
def Attends (decode : Decoder) (install : HookDefinition → HookFunction.Calls)
    (code image : Nat → Prop) (strays : List InstalledHook)
    (visited : HookDefinition × DebugSession) : Prop :=
  ∀ source address base,
    ResolveHookAddress visited.2.process visited.2.modules visited.1 =
        (source, .resolved address base) →
      HookFunction.Fits decode (install visited.1) address visited.2.hookImageBase visited.1 code
        image visited.2.installedHooks strays visited.2.process

section Rounds

variable {decode : Decoder} {install : HookDefinition → HookFunction.Calls}
  {code image : Nat → Prop} {initial : Target} {pristine : Memory} {strays : List InstalledHook}
  {definition : HookDefinition} {session : DebugSession} {hookImageBase : Nat}

/-- Nothing is left behind a hook that is installed. -/
theorem stray_of_succeeds {calls : HookFunction.Calls} {originalFunction : Nat} {target : Target}
    {hook : InstalledHook}
    (succeeds : (HookFunction decode calls originalFunction hookImageBase definition target).1 =
      some hook) :
    HookFunction.stray decode calls originalFunction hookImageBase definition target = none := by
  have effect := HookFunction_effect decode calls originalFunction hookImageBase definition target
  rw [succeeds] at effect
  unfold HookFunction.stray
  generalize (HookFunction decode calls originalFunction hookImageBase definition target).2 =
    after at effect
  cases effect with
  | installed _ _ _ _ _ _ finished => rw [if_pos finished]

/-- A round adds to the history, and only where the loop ends a hook is left. -/
theorem history_round (isBase : session.hookImageBase = hookImageBase)
    (history : History decode hookImageBase code image initial pristine session.installedHooks
      strays session.process)
    (attends : Attends decode install code image strays (definition, session)) :
    History decode hookImageBase code image initial pristine
        (TryInstallPendingHooks.round decode install definition session).2.installedHooks
        (strays ++ (TryInstallPendingHooks.stray decode install definition session).toList)
        (TryInstallPendingHooks.round decode install definition session).2.process ∧
      ((TryInstallPendingHooks.round decode install definition session).1 = true →
        TryInstallPendingHooks.stray decode install definition session = none) := by
  subst isBase
  unfold TryInstallPendingHooks.round TryInstallPendingHooks.stray
  have unchanged : History decode session.hookImageBase code image initial pristine
      session.installedHooks (strays ++ (none : Option InstalledHook).toList) session.process := by
    rw [Option.toList_none, List.append_nil]
    exact history
  by_cases named : session.installedHooks.any (·.canonicalName == definition.canonicalName)
  · rw [if_pos named, if_pos named]
    exact ⟨unchanged, fun _ => rfl⟩
  rw [if_neg named, if_neg named]
  cases resolution : ResolveHookAddress session.process session.modules definition with
  | mk source result =>
  cases result with
  | pending => exact ⟨unchanged, fun _ => rfl⟩
  | error => exact ⟨unchanged, fun _ => rfl⟩
  | resolved address base =>
      dsimp only
      by_cases taken : session.installedHooks.any (·.originalFunction == address)
      · rw [if_pos taken, if_pos taken]
        exact ⟨unchanged, fun _ => rfl⟩
      rw [if_neg taken, if_neg taken]
      have fits := attends source address base resolution
      obtain ⟨⟨module, _, isSource⟩, _⟩ := ResolveHookAddress_resolved resolution
      subst isSource
      cases made : (HookFunction decode (install definition) address session.hookImageBase
          definition session.process).1 with
      | none =>
          have result : HookFunction decode (install definition) address session.hookImageBase
              definition session.process = (none, (HookFunction decode (install definition) address
                session.hookImageBase definition session.process).2) := Prod.ext made rfl
          rw [result]
          exact ⟨.fails history fits made, fun continues => absurd continues (by simp)⟩
      | some hook =>
          have result : HookFunction decode (install definition) address session.hookImageBase
              definition session.process = (some hook, (HookFunction decode (install definition)
                address session.hookImageBase definition session.process).2) := Prod.ext made rfl
          rw [stray_of_succeeds made, result]
          refine ⟨?_, fun _ => rfl⟩
          rw [Option.map_none, Option.toList_none, List.append_nil]
          exact .installs history fits made

/-- The loop over the hooks adds to the history. -/
theorem history_loop {definitions : List HookDefinition}
    (isBase : session.hookImageBase = hookImageBase)
    (history : History decode hookImageBase code image initial pristine session.installedHooks
      strays session.process)
    (attends : ∀ visited ∈ TryInstallPendingHooks.rounds decode install definitions session,
      Attends decode install code image strays visited) :
    History decode hookImageBase code image initial pristine
      (TryInstallPendingHooks.loop decode install definitions session).2.installedHooks
      (strays ++ TryInstallPendingHooks.strays decode install definitions session)
      (TryInstallPendingHooks.loop decode install definitions session).2.process := by
  induction definitions generalizing session with
  | nil =>
      rw [TryInstallPendingHooks.strays, TryInstallPendingHooks.rounds, List.filterMap_nil,
        List.append_nil]
      exact history
  | cons definition rest inductionHypothesis =>
      rw [TryInstallPendingHooks.rounds, List.forall_mem_cons] at attends
      have round := history_round isBase history attends.1
      have frame := (TryInstallPendingHooks.round_effect decode install definition session).frame
      have others := attends.2
      rw [TryInstallPendingHooks.loop, TryInstallPendingHooks.strays,
        TryInstallPendingHooks.rounds, List.filterMap_cons]
      generalize TryInstallPendingHooks.stray decode install definition session = left at round ⊢
      generalize TryInstallPendingHooks.round decode install definition session = outcome
        at round frame others ⊢
      obtain ⟨continues, next⟩ := outcome
      cases continues with
      | false =>
          cases left <;> exact round.1
      | true =>
          have nothing := round.2 rfl
          subst nothing
          have grown := round.1
          rw [Option.toList_none, List.append_nil] at grown
          exact inductionHypothesis (frame.hookImageBase.trans isBase) grown others

end Rounds

/-! ## Runs -/

/-- The system maps and unloads modules away from the hook image and where no patch
stands, the target writes neither code nor slots in use, and trampolines, patches and
slots go where they always do. -/
def Attended (decode : Decoder) (code image : Nat → Prop) (state : Tracked) :
    SessionLabel → Prop
  | .targetRuns memory =>
      ∃ base size,
        (∀ hook ∈ state.patches,
          Memory.Apart base size hook.originalFunction hook.originalBytes.length) ∧
        (∀ address, code address → ¬(base ≤ address ∧ address < base + size) →
          memory address = state.session.process.memory address) ∧
        ∀ hook ∈ state.session.installedHooks, memory.read hook.trampolineSlot 8 =
          state.session.process.memory.read hook.trampolineSlot 8
  | .event (.unloadDll base) _ _ =>
      base ≠ state.session.hookImageBase ∧
        ∃ size, ∀ hook ∈ state.patches, hook.Extends base size
  | .event (.createProcess loaded) calls _ =>
      loaded.base ≠ state.session.hookImageBase ∧
        ∀ entered ∈ HandleModuleEvent.installing decode calls (.createProcess loaded)
            state.session,
          ∀ visited ∈ TryInstallPendingHooks.rounds decode calls.install entered.options.hooks
            entered, Attends decode calls.install code image state.strays visited
  | .event (.loadDll loaded) calls _ =>
      loaded.base ≠ state.session.hookImageBase ∧
        ∀ entered ∈ HandleModuleEvent.installing decode calls (.loadDll loaded) state.session,
          ∀ visited ∈ TryInstallPendingHooks.rounds decode calls.install entered.options.hooks
            entered, Attends decode calls.install code image state.strays visited

/-- The hooks of a session that is set up have a history. -/
structure Recorded (decode : Decoder) (hookImageBase : Nat) (code image : Nat → Prop)
    (initial : Target) (state : Tracked) : Prop where
  mapped : state.session.hookImageBase = hookImageBase ∧ hookImageBase ≠ 0
  configured : state.session.transportConfigured = true
  history : ∃ pristine, History decode hookImageBase code image initial pristine
    state.session.installedHooks state.strays state.session.process

section Runs

variable {decode : Decoder} {options : CommandLineOptions} {labels : List SessionLabel}
  {hookImageBase : Nat} {code image : Nat → Prop} {initial : Target} {state next : Tracked}

/-- The history begins when the transport is configured and no function is hooked yet. -/
theorem recorded_of_unhooked (mapped : state.session.hookImageBase ≠ 0)
    (configured : state.session.transportConfigured = true)
    (unhooked : state.session.installedHooks = []) (nothing : state.strays = []) :
    Recorded decode state.session.hookImageBase code image state.session.process state where
  mapped := ⟨rfl, mapped⟩
  configured := configured
  history := by
    rw [unhooked, nothing]
    exact ⟨_, .start⟩

/-- A module is mapped, and the loop over the hooks may follow. -/
theorem Recorded.loads {session : DebugSession} {strays : List InstalledHook}
    {calls : ModuleEvent.Calls} {event : ModuleEvent} {loaded : LoadedImage}
    (recorded : Recorded decode hookImageBase code image initial ⟨session, strays⟩)
    (elsewhere : loaded.base ≠ hookImageBase)
    (loads : Loads decode calls.install (session.withImage loaded)
      (HandleModuleEvent.installing decode calls event session)
      (session.HandleModuleEvent decode calls event))
    (attends : ∀ entered ∈ HandleModuleEvent.installing decode calls event session,
      ∀ visited ∈ TryInstallPendingHooks.rounds decode calls.install entered.options.hooks
        entered, Attends decode calls.install code image strays visited) :
    Recorded decode hookImageBase code image initial
      ⟨(session.HandleModuleEvent decode calls event).2, strays ++
        match HandleModuleEvent.installing decode calls event session with
        | none => []
        | some entered =>
            TryInstallPendingHooks.strays decode calls.install entered.options.hooks entered⟩ := by
  obtain ⟨⟨isBase, mapped⟩, configured, pristine, history⟩ := recorded
  have configured' := transportConfigured_handleModuleEvent decode calls event configured
  have sameImage : (session.process.mapImage loaded.base loaded.exports).images hookImageBase =
      session.process.images hookImageBase := Function.update_of_ne elsewhere.symm _ _
  have mappedHistory : History decode hookImageBase code image initial
      (pristine.overlay session.process.memory 0 0) session.installedHooks strays
      (session.process.mapImage loaded.base loaded.exports) := by
    refine history.runs (fun hook _ => Or.inl (Nat.zero_le _)) (fun address _ _ => rfl)
      (fun hook _ => rfl) sameImage
  have settle : ∀ {entered : DebugSession}, Enters (session.withImage loaded) entered →
      entered.hookImageBase = hookImageBase ∧ History decode hookImageBase code image initial
        (pristine.overlay session.process.memory 0 0) entered.installedHooks strays
          entered.process := by
    intro entered enters
    have same : session.hookImageBase ≠ 0 := by rwa [isBase]
    obtain ⟨process, base, _⟩ := enters.settled same configured
    rw [process, enters.installedHooks]
    exact ⟨base.trans isBase, mappedHistory⟩
  generalize HandleModuleEvent.installing decode calls event session = entered at loads attends ⊢
  generalize session.HandleModuleEvent decode calls event = outcome at loads configured' ⊢
  cases loads with
  | ends enters =>
      obtain ⟨base, history⟩ := settle enters
      rw [List.append_nil]
      exact ⟨⟨base, mapped⟩, configured', _, history⟩
  | @installs entered enters _ =>
      obtain ⟨base, history⟩ := settle enters
      refine ⟨⟨?_, mapped⟩, configured', _, history_loop base history (attends entered rfl)⟩
      exact (TryInstallPendingHooks.loop_frame _ _ _ _).hookImageBase.trans base

/-- One step of a session adds to the history of its hooks. -/
theorem Recorded.step {label : SessionLabel}
    (recorded : Recorded decode hookImageBase code image initial state)
    (taken : ((tracked decode options).restrict (Attended decode code image)).step state label
      next) : Recorded decode hookImageBase code image initial next := by
  obtain ⟨session, strays⟩ := state
  obtain ⟨session', strays'⟩ := next
  obtain ⟨⟨handles, forgotten⟩, attended⟩ := taken
  obtain ⟨⟨isBase, mapped⟩, configured, pristine, history⟩ := recorded
  have isStrays : strays' = _ := forgotten
  cases label with
  | targetRuns memory =>
      obtain ⟨base, size, elsewhere, sameCode, sameSlots⟩ := attended
      have isNext : session' = _ := handles
      subst isNext isStrays
      exact ⟨⟨isBase, mapped⟩, configured, _,
        history.runs elsewhere sameCode sameSlots rfl⟩
  | event event calls handled =>
      have isNext : (session.HandleModuleEvent decode calls event).2 = session' :=
        congrArg Prod.snd handles
      subst isNext isStrays
      cases event with
      | createProcess loaded =>
          exact Recorded.loads ⟨⟨isBase, mapped⟩, configured, pristine, history⟩
            (isBase ▸ attended.1) (HandleCreateProcess.loads decode calls loaded _) attended.2
      | loadDll loaded =>
          exact Recorded.loads ⟨⟨isBase, mapped⟩, configured, pristine, history⟩
            (isBase ▸ attended.1) (RegisterModule.loads decode calls loaded _) attended.2
      | unloadDll base =>
          obtain ⟨elsewhere, size, extent⟩ := attended
          exact ⟨⟨isBase, mapped⟩, configured, _,
            history.unloads (isBase ▸ elsewhere) extent⟩

/-- The hooks of a session keep their history along every path on which the system does as
it always does. -/
theorem recorded_of_path
    (recorded : Recorded decode hookImageBase code image initial state)
    (path : ((tracked decode options).restrict (Attended decode code image)).Path state labels
      next) : Recorded decode hookImageBase code image initial next :=
  @Transition.System.Path.invariant _ _ _
    (fun _ state => Recorded decode hookImageBase code image initial state) [] _ _ _ path recorded
    fun _ _ _ _ recorded taken => recorded.step taken

end Runs

end DebugSession

end ApiScope
