import ApiScope.Hook.Transaction
import ApiScope.Session.Detach

/-!
# What the loop over the hooks is about to patch

The loop patches one function after the other, and what it writes for one hook may
change the first instructions of the function of another.  As long as it does not,
all that the loop does can be told from the session it starts from.
-/

namespace ApiScope

/-! ## What one installation writes -/

section Installed

variable {decode : Decoder} {calls : HookFunction.Calls}
  {originalFunction hookImageBase newAddress : Nat} {definition : HookDefinition}
  {target after : Target} {hook : InstalledHook}

/-- Bytes apart from the trampoline are what they were. -/
theorem HookFunction.Installed.read_withTrampoline (within : DecodesWithin decode)
    (installed : HookFunction.Installed decode calls originalFunction hookImageBase definition
      target hook newAddress after) {address count : Nat}
    (apart : Memory.Apart calls.allocation TRAMPOLINE_SIZE address count) :
    (target.withTrampoline originalFunction hook.originalBytes.length
      calls.allocation).memory.read address count = target.memory.read address count :=
  Target.read_withTrampoline
    (by rw [installed.size]; exact CalculatePatchSize_le within true originalFunction target)
    apart.symm

/-- Bytes apart from the trampoline, the slot and the patch are what they were. -/
theorem HookFunction.Installed.read_apart (within : DecodesWithin decode)
    (installed : HookFunction.Installed decode calls originalFunction hookImageBase definition
      target hook newAddress after) {address count : Nat}
    (trampoline : Memory.Apart calls.allocation TRAMPOLINE_SIZE address count)
    (slot : Memory.Apart hook.trampolineSlot 8 address count)
    (patch : Memory.Apart originalFunction hook.originalBytes.length address count) :
    after.memory.read address count = target.memory.read address count := by
  have patchApart : Memory.Apart address count originalFunction
      (patchCode newAddress hook.originalBytes.length).length := by
    rw [length_patchCode]
    exact patch.symm
  have slotApart : Memory.Apart address count hook.trampolineSlot
      (pointerBytes calls.allocation).length := by
    rw [length_pointerBytes]
    exact slot.symm
  rw [installed.after, Target.withHook_memory, Memory.read_write_apart _ patchApart,
    Memory.read_write_apart _ slotApart, installed.read_withTrampoline within trampoline]

/-- The saved bytes have been moved into the trampoline. -/
theorem HookFunction.Installed.moves (within : DecodesWithin decode)
    (installed : HookFunction.Installed decode calls originalFunction hookImageBase definition
      target hook newAddress after)
    (elsewhere : Memory.Apart calls.allocation TRAMPOLINE_SIZE originalFunction
      hook.originalBytes.length) :
    hook.originalBytes = target.memory.read originalFunction hook.originalBytes.length ∧
      ∃ added, after.log = target.log ++ added ∧
        RemoteAction.write hook.trampolineAddress (trampolineCode hook.originalBytes
          (originalFunction + hook.originalBytes.length)) ∈ added := by
  have saved := installed.saved.trans (installed.read_withTrampoline within elsewhere)
  refine ⟨saved, ?_⟩
  rw [installed.after, installed.trampoline]
  generalize hook.originalBytes.length = size at saved ⊢
  rw [saved]
  have nonzero : calls.allocation ≠ 0 := installed.overwrites.trampoline.allocated
  simp only [Target.withHook, Target.withPatch, Target.withSlot, Target.withTrampoline,
    Target.VirtualAllocEx, Target.WriteProcessMemory, if_pos nonzero, if_true,
    List.append_assoc]
  exact ⟨_, rfl, by simp⟩

end Installed

namespace DebugSession

/-! ## Prospects -/

/-- Where the export of a hook is found that is not installed. -/
def prospect (session : DebugSession) (definition : HookDefinition) : Option Nat :=
  if session.installedHooks.any (·.canonicalName == definition.canonicalName) then none
  else
    match ResolveHookAddress session.process session.modules definition with
    | (_, .resolved address _) => some address
    | (_, .pending) | (_, .error) => none

theorem prospect_eq_some_iff {session : DebugSession} {definition : HookDefinition}
    {address : Nat} :
    session.prospect definition = some address ↔
      (∀ hook ∈ session.installedHooks, hook.canonicalName ≠ definition.canonicalName) ∧
        ∃ source base, ResolveHookAddress session.process session.modules definition =
          (source, .resolved address base) := by
  unfold prospect
  by_cases named : session.installedHooks.any (·.canonicalName == definition.canonicalName)
  · rw [if_pos named]
    refine iff_of_false (by simp) fun ⟨fresh, _⟩ => ?_
    obtain ⟨hook, member, same⟩ := List.any_eq_true.mp named
    exact fresh hook member (eq_of_beq same)
  · rw [if_neg named]
    have fresh : ∀ hook ∈ session.installedHooks,
        hook.canonicalName ≠ definition.canonicalName := by
      simpa using named
    cases ResolveHookAddress session.process session.modules definition with
    | mk source result =>
        cases result with
        | resolved found base =>
            simp only [Option.some.injEq, Prod.mk.injEq, ResolveResult.resolved.injEq]
            exact ⟨fun same => ⟨fun _ member => fresh _ member, source, base, rfl, same, rfl⟩,
              fun ⟨_, _, _, _, same, _⟩ => same⟩
        | pending => simp
        | error => simp

/-- A prospect is none of the later rounds' making. -/
theorem prospect_of_frame {session next : DebugSession} {definition : HookDefinition}
    {address : Nat} (frame : TryInstallPendingHooks.Frame session next)
    (found : next.prospect definition = some address) :
    session.prospect definition = some address := by
  obtain ⟨fresh, source, base, resolved⟩ := prospect_eq_some_iff.mp found
  obtain ⟨installed, isInstalled⟩ := frame.installedHooks
  refine prospect_eq_some_iff.mpr ⟨fun hook member => fresh hook ?_, source, base, ?_⟩
  · rw [isInstalled]
    exact List.mem_append_left _ member
  · rw [frame.modules] at resolved
    rw [← resolved]
    exact ResolveHookAddress_congr (fun module _ => by rw [frame.images]) definition

/-- What the loop writes for one hook leaves the first instructions of the others alone:
no patch reaches into them, trampolines are allocated elsewhere, and slots lie elsewhere. -/
structure Undisturbed (decode : Decoder) (install : HookDefinition → HookFunction.Calls)
    (session : DebugSession) : Prop where
  names : (session.options.hooks.map HookDefinition.canonicalName).Nodup
  patches : session.options.hooks.Pairwise fun first second =>
    ∀ address ∈ session.prospect first, ∀ other ∈ session.prospect second,
      CalculatePatchSize decode true address session.process ≠ 0 →
        Memory.Apart address (CalculatePatchSize decode true address session.process) other
          (PatchReach decode other session.process)
  trampolines : ∀ first ∈ session.options.hooks, ∀ second ∈ session.options.hooks,
    ∀ address ∈ session.prospect second,
      Memory.Apart (install first).allocation TRAMPOLINE_SIZE address
        (PatchReach decode address session.process)
  slots : ∀ first ∈ session.options.hooks, ∀ second ∈ session.options.hooks,
    ∀ address ∈ session.prospect second,
      ∀ slot ∈ session.process.GetRemoteExport session.hookImageBase first.trampolineExport,
        Memory.Apart slot.address 8 address (PatchReach decode address session.process)

instance (decode : Decoder) (install : HookDefinition → HookFunction.Calls)
    (session : DebugSession) : Decidable (session.Undisturbed decode install) :=
  decidable_of_iff
    (_ ∧ (session.options.hooks.Pairwise fun first second =>
      ∀ address ∈ session.prospect first, ∀ other ∈ session.prospect second,
        CalculatePatchSize decode true address session.process ≠ 0 →
          Memory.Apart address (CalculatePatchSize decode true address session.process) other
            (PatchReach decode other session.process)) ∧ _ ∧ _)
    ⟨fun ⟨names, patches, trampolines, slots⟩ => ⟨names, patches, trampolines, slots⟩,
      fun ⟨names, patches, trampolines, slots⟩ => ⟨names, patches, trampolines, slots⟩⟩

/-! ## One round after the other -/

/-- The span is apart from all that the loop may have written for these hooks. -/
structure Spared (decode : Decoder) (install : HookDefinition → HookFunction.Calls)
    (session : DebugSession) (done : List HookDefinition) (address count : Nat) : Prop where
  patches : ∀ definition ∈ done, ∀ function ∈ session.prospect definition,
    CalculatePatchSize decode true function session.process ≠ 0 →
      Memory.Apart function (CalculatePatchSize decode true function session.process) address
        count
  trampolines : ∀ definition ∈ done,
    Memory.Apart (install definition).allocation TRAMPOLINE_SIZE address count
  slots : ∀ definition ∈ done,
    ∀ slot ∈ session.process.GetRemoteExport session.hookImageBase definition.trampolineExport,
      Memory.Apart slot.address 8 address count

/-- A hook as the loop installs it on the code it has found. -/
structure Made (decode : Decoder) (session : DebugSession) (log : List RemoteAction)
    (definition : HookDefinition) (hook : InstalledHook) : Prop where
  name : hook.canonicalName = definition.canonicalName
  prospect : session.prospect definition = some hook.originalFunction
  sized : hook.originalBytes.length =
    CalculatePatchSize decode true hook.originalFunction session.process
  long : PATCH_SIZE ≤ hook.originalBytes.length
  saved : hook.originalBytes =
    session.process.memory.read hook.originalFunction hook.originalBytes.length
  moved : .write hook.trampolineAddress (trampolineCode hook.originalBytes
    (hook.originalFunction + hook.originalBytes.length)) ∈ log

/-- The session after the rounds for these hooks. -/
structure Advanced (decode : Decoder) (install : HookDefinition → HookFunction.Calls)
    (session : DebugSession) (done : List HookDefinition) (current : DebugSession) : Prop where
  frame : TryInstallPendingHooks.Frame session current
  made : ∃ installed added, current.installedHooks = session.installedHooks ++ installed ∧
    current.process.log = session.process.log ++ added ∧
    ∀ hook ∈ installed, ∃ definition ∈ done, session.Made decode added definition hook
  memory : ∀ address count, session.Spared decode install done address count →
    current.process.memory.read address count = session.process.memory.read address count

section Rounds

variable {decode : Decoder} {install : HookDefinition → HookFunction.Calls}
  {session current next : DebugSession} {done rest : List HookDefinition}
  {definition : HookDefinition}

theorem Made.mono {log more : List RemoteAction} {hook : InstalledHook}
    (made : session.Made decode log definition hook) (subset : log ⊆ more) :
    session.Made decode more definition hook :=
  { made with moved := subset made.moved }

theorem Advanced.refl (decode : Decoder) (install : HookDefinition → HookFunction.Calls)
    (session : DebugSession) : session.Advanced decode install [] session where
  frame := .refl session
  made := ⟨[], [], (List.append_nil _).symm, (List.append_nil _).symm, by simp⟩
  memory := fun _ _ _ => rfl

theorem Spared.mono {address count : Nat} {more : List HookDefinition}
    (spared : session.Spared decode install more address count) (subset : done ⊆ more) :
    session.Spared decode install done address count where
  patches := fun definition member => spared.patches definition (subset member)
  trampolines := fun definition member => spared.trampolines definition (subset member)
  slots := fun definition member => spared.slots definition (subset member)

/-- The functions that are still to be patched have been spared. -/
theorem Undisturbed.spared (undisturbed : session.Undisturbed decode install)
    (split : session.options.hooks = done ++ definition :: rest) {address : Nat}
    (found : session.prospect definition = some address) :
    session.Spared decode install done address (PatchReach decode address session.process) := by
  have patches := undisturbed.patches
  have selected : ∀ other ∈ done, other ∈ session.options.hooks := fun other member => by
    rw [split]
    exact List.mem_append_left _ member
  have isSelected : definition ∈ session.options.hooks := by
    rw [split]
    exact List.mem_append_right _ List.mem_cons_self
  rw [split, List.pairwise_append] at patches
  exact
    { patches := fun other member function isProspect =>
        patches.2.2 other member definition List.mem_cons_self function isProspect address found
      trampolines := fun other member =>
        undisturbed.trampolines other (selected other member) definition isSelected address found
      slots := fun other member =>
        undisturbed.slots other (selected other member) definition isSelected address found }

/-- A patch will be as long as it would have been at first. -/
theorem Advanced.patchSize (alone : DecodesAlone decode)
    (advanced : session.Advanced decode install done current) {address : Nat}
    (spared : session.Spared decode install done address
      (PatchReach decode address session.process)) :
    CalculatePatchSize decode true address current.process =
      CalculatePatchSize decode true address session.process :=
  CalculatePatchSize_congr alone (advanced.memory _ _ spared)

theorem Advanced.GetRemoteExport (advanced : session.Advanced decode install done current)
    (exportName : List UInt8) :
    current.process.GetRemoteExport current.hookImageBase exportName =
      session.process.GetRemoteExport session.hookImageBase exportName := by
  rw [Target.GetRemoteExport, Target.GetRemoteExport, advanced.frame.images,
    advanced.frame.hookImageBase]

section Next

variable {address newAddress : Nat} {process : Target} {hook : InstalledHook}

/-- The patch of the next hook is as long as it would have been at first. -/
theorem Advanced.sized (alone : DecodesAlone decode)
    (undisturbed : session.Undisturbed decode install)
    (advanced : session.Advanced decode install done current)
    (split : session.options.hooks = done ++ definition :: rest)
    (found : session.prospect definition = some address)
    (installed : HookFunction.Installed decode (install definition) address current.hookImageBase
      definition current.process hook newAddress process) :
    hook.originalBytes.length = CalculatePatchSize decode true address session.process ∧
      CalculatePatchSize decode true address session.process ≠ 0 := by
  have sized := installed.size.trans
    (advanced.patchSize alone (undisturbed.spared split found))
  refine ⟨sized, ?_⟩
  rw [← sized]
  exact Nat.ne_of_gt (Nat.lt_of_lt_of_le (by decide) installed.long)

/-- The next hook is made of the code the loop has begun with. -/
theorem Advanced.makes (within : DecodesWithin decode) (alone : DecodesAlone decode)
    (undisturbed : session.Undisturbed decode install)
    (advanced : session.Advanced decode install done current)
    (split : session.options.hooks = done ++ definition :: rest)
    (found : session.prospect definition = some address)
    (installed : HookFunction.Installed decode (install definition) address current.hookImageBase
      definition current.process hook newAddress process) :
    ∃ moves, process.log = current.process.log ++ moves ∧
      session.Made decode moves definition hook := by
  obtain ⟨sized, nonzero⟩ := advanced.sized alone undisturbed split found installed
  have isSelected : definition ∈ session.options.hooks := by
    rw [split]
    exact List.mem_append_right _ List.mem_cons_self
  have spared := undisturbed.spared split found
  have elsewhere := undisturbed.trampolines definition isSelected definition isSelected address found
  rw [PatchReach_of_ne_zero nonzero, ← sized] at spared elsewhere
  obtain ⟨saved, moves, isMoves, moved⟩ := installed.moves within elsewhere
  have function := installed.function
  refine ⟨moves, isMoves,
    { name := installed.name
      prospect := by rw [function]; exact found
      sized := by rw [function]; exact sized
      long := installed.long
      saved := ?_
      moved := ?_ }⟩
  · rw [function, ← advanced.memory _ _ spared]
    exact saved
  · rw [function]
    exact moved

/-- What is spared by the next round too is what it was. -/
theorem Advanced.keeps (within : DecodesWithin decode) (alone : DecodesAlone decode)
    (undisturbed : session.Undisturbed decode install)
    (advanced : session.Advanced decode install done current)
    (split : session.options.hooks = done ++ definition :: rest)
    (found : session.prospect definition = some address)
    (installed : HookFunction.Installed decode (install definition) address current.hookImageBase
      definition current.process hook newAddress process) {start count : Nat}
    (spared : session.Spared decode install (done ++ [definition]) start count) :
    process.memory.read start count = session.process.memory.read start count := by
  obtain ⟨sized, nonzero⟩ := advanced.sized alone undisturbed split found installed
  have last : definition ∈ done ++ [definition] :=
    List.mem_append_right _ (List.mem_singleton_self _)
  obtain ⟨slotExport, isSlot, slot⟩ := installed.slotExport
  rw [advanced.GetRemoteExport] at slot
  have patch := spared.patches definition last address found nonzero
  rw [← sized] at patch
  have slotApart := spared.slots definition last slotExport slot
  rw [isSlot] at slotApart
  rw [← advanced.memory _ _ (spared.mono (List.subset_append_left done [definition]))]
  exact installed.read_apart within (spared.trampolines definition last) slotApart patch

end Next

/-- A round that goes on keeps what is known about the rounds before it. -/
theorem Advanced.round (within : DecodesWithin decode) (alone : DecodesAlone decode)
    (undisturbed : session.Undisturbed decode install)
    (advanced : session.Advanced decode install done current)
    (split : session.options.hooks = done ++ definition :: rest)
    (effect : TryInstallPendingHooks.Effect decode install definition current true next) :
    session.Advanced decode install (done ++ [definition]) next := by
  have frame := advanced.frame.trans effect.frame
  obtain ⟨installed, added, isInstalled, isAdded, made⟩ := advanced.made
  have earlier : ∀ {log}, added ⊆ log → ∀ hook ∈ installed,
      ∃ definition' ∈ done ++ [definition], session.Made decode log definition' hook := by
    intro log subset hook member
    obtain ⟨definition', inside, isMade⟩ := made hook member
    exact ⟨definition', List.mem_append_left _ inside, isMade.mono subset⟩
  have waits : current.process = next.process → current.installedHooks = next.installedHooks →
      session.Advanced decode install (done ++ [definition]) next := by
    intro sameProcess sameHooks
    refine ⟨frame, ⟨installed, added, sameHooks ▸ isInstalled, sameProcess ▸ isAdded,
      earlier (List.Subset.refl _)⟩, fun address count spared => ?_⟩
    rw [← sameProcess]
    exact advanced.memory address count (spared.mono (List.subset_append_left _ _))
  cases effect with
  | skipped => exact waits rfl rfl
  | pending => exact waits rfl rfl
  | @installed source address base process hook fresh resolution untaken hookEffect =>
      have found : session.prospect definition = some address :=
        prospect_of_frame advanced.frame
          (prospect_eq_some_iff.mpr ⟨fresh, some source, base, resolution⟩)
      obtain ⟨newAddress, isNew⟩ := hookEffect.toInstalled
      obtain ⟨moves, isMoves, newMade⟩ :=
        advanced.makes within alone undisturbed split found isNew
      refine ⟨frame, ⟨installed ++ [{ hook with
        sourceModuleBase := source
        targetModuleBase := base }], added ++ moves, ?_, ?_, ?_⟩, ?_⟩
      · exact (congrArg (· ++ _) isInstalled).trans (List.append_assoc _ _ _)
      · exact isMoves.trans ((congrArg (· ++ _) isAdded).trans (List.append_assoc _ _ _))
      · intro other member
        rcases List.mem_append.mp member with old | new
        · exact earlier (List.subset_append_left _ _) other old
        · rw [List.mem_singleton.mp new]
          have whole := newMade.mono (List.subset_append_right added moves)
          exact ⟨definition, List.mem_append_right _ (List.mem_singleton_self _),
            ⟨whole.name, whole.prospect, whole.sized, whole.long, whole.saved, whole.moved⟩⟩
      · exact fun _ _ spared => advanced.keeps within alone undisturbed split found isNew spared

/-- Every round finds what is known after the rounds before it. -/
theorem Advanced.rounds (within : DecodesWithin decode) (alone : DecodesAlone decode)
    (undisturbed : session.Undisturbed decode install)
    (advanced : session.Advanced decode install done current)
    (split : session.options.hooks = done ++ rest) :
    ∀ visited ∈ TryInstallPendingHooks.rounds decode install rest current,
      ∃ before behind, session.options.hooks = before ++ visited.1 :: behind ∧
        session.Advanced decode install before visited.2 := by
  induction rest generalizing done current with
  | nil => simp [TryInstallPendingHooks.rounds]
  | cons definition rest inductionHypothesis =>
      have effect := TryInstallPendingHooks.round_effect decode install definition current
      rw [TryInstallPendingHooks.rounds, List.forall_mem_cons]
      refine ⟨⟨done, rest, split, advanced⟩, ?_⟩
      revert effect
      generalize TryInstallPendingHooks.round decode install definition current = outcome
      obtain ⟨continues, next⟩ := outcome
      intro effect
      cases continues with
      | false => simp
      | true =>
          exact inductionHypothesis (advanced.round within alone undisturbed split effect)
            (by rw [split, List.append_assoc]; rfl)

/-- Where the loop ends only the books of the last round are closed. -/
theorem Advanced.loop (within : DecodesWithin decode) (alone : DecodesAlone decode)
    (undisturbed : session.Undisturbed decode install)
    (advanced : session.Advanced decode install done current)
    (split : session.options.hooks = done ++ rest) :
    ∃ before behind last, session.options.hooks = before ++ behind ∧
      session.Advanced decode install before last ∧
      (TryInstallPendingHooks.loop decode install rest current).2.installedHooks =
        last.installedHooks ∧
      ∃ added, (TryInstallPendingHooks.loop decode install rest current).2.process.log =
        last.process.log ++ added := by
  induction rest generalizing done current with
  | nil => exact ⟨done, [], current, split, advanced, rfl, [], (List.append_nil _).symm⟩
  | cons definition rest inductionHypothesis =>
      have effect := TryInstallPendingHooks.round_effect decode install definition current
      rw [TryInstallPendingHooks.loop]
      revert effect
      generalize TryInstallPendingHooks.round decode install definition current = outcome
      obtain ⟨continues, next⟩ := outcome
      intro effect
      cases continues with
      | false =>
          refine ⟨done, _, current, split, advanced, ?_⟩
          cases effect with
          | unresolved | sameAddress => exact ⟨rfl, [], (List.append_nil _).symm⟩
          | failed _ _ _ hookEffect => exact ⟨rfl, hookEffect.log⟩
      | true =>
          exact inductionHypothesis (advanced.round within alone undisturbed split effect)
            (by rw [split, List.append_assoc]; rfl)

end Rounds

end DebugSession

end ApiScope
