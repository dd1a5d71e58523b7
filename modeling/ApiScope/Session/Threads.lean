import ApiScope.Session.Spans

/-!
# Installing under stopped threads

A thread that stands inside the first instructions of a function resumes in the
middle of the patch.  The cleanup looks at the threads before it restores code;
the installation does not, and is harmless exactly when no thread happens to
stand in the functions it comes to.
-/

namespace ApiScope

/-- These calls include one that patches `count` bytes at `address`. -/
def Patches (actions : List RemoteAction) (address count : Nat) : Prop :=
  PATCH_SIZE ≤ count ∧
    ∃ newAddress, RemoteAction.write address (patchCode newAddress count) ∈ actions

theorem patches_append {actions others : List RemoteAction} {address count : Nat} :
    Patches (actions ++ others) address count ↔
      Patches actions address count ∨ Patches others address count := by
  simp only [Patches, List.mem_append, exists_or, and_or_left]

/-- Between two states of the target the patches of `spans` have been made. -/
def Target.Patched (target : Target) (spans : Nat → Nat → Prop) (after : Target) : Prop :=
  ∃ added, after.log = target.log ++ added ∧
    ∀ address count, Patches added address count ↔ spans address count

namespace Target.Patched

theorem refl (target : Target) : target.Patched (fun _ _ => False) target :=
  ⟨[], by simp, by simp [Patches]⟩

theorem trans {first middle last : Target} {spans others : Nat → Nat → Prop}
    (left : first.Patched spans middle) (right : middle.Patched others last) :
    first.Patched (fun address count => spans address count ∨ others address count) last := by
  obtain ⟨before, isBefore, spansBefore⟩ := left
  obtain ⟨behind, isBehind, spansBehind⟩ := right
  refine ⟨before ++ behind, by rw [isBehind, isBefore, List.append_assoc], ?_⟩
  intro address count
  rw [patches_append, spansBefore, spansBehind]

/-- Only the spans that are named matter. -/
theorem congr {target after : Target} {spans others : Nat → Nat → Prop}
    (patched : target.Patched spans after)
    (same : ∀ address count, spans address count ↔ others address count) :
    target.Patched others after := by
  obtain ⟨added, isAdded, exact⟩ := patched
  exact ⟨added, isAdded, fun address count => (exact address count).trans (same address count)⟩

theorem virtualAllocEx (target : Target) (base size : Nat) :
    target.Patched (fun _ _ => False) (target.VirtualAllocEx base size) := by
  unfold VirtualAllocEx
  split_ifs
  · exact ⟨_, rfl, by simp [Patches]⟩
  · exact .refl target

theorem virtualFreeEx (target : Target) (succeeds : Bool) (base : Nat) :
    target.Patched (fun _ _ => False) (target.VirtualFreeEx succeeds base) := by
  unfold VirtualFreeEx
  split_ifs
  · exact ⟨_, rfl, by simp [Patches]⟩
  · exact .refl target

/-- A write that cannot be mistaken for a patch. -/
theorem writeProcessMemory (target : Target) (succeeds : Bool) (address : Nat)
    {bytes : List UInt8}
    (other : ∀ newAddress count, PATCH_SIZE ≤ count → bytes ≠ patchCode newAddress count) :
    target.Patched (fun _ _ => False) (target.WriteProcessMemory succeeds address bytes) := by
  unfold WriteProcessMemory
  split_ifs
  · refine ⟨_, rfl, fun _ count => iff_of_false ?_ id⟩
    rintro ⟨long, newAddress, member⟩
    rw [List.mem_singleton, RemoteAction.write.injEq] at member
    exact other newAddress count long member.2.symm
  · exact .refl target

end Target.Patched

/-! ## What is no patch -/

theorem pointerBytes_ne_patchCode (pointer newAddress count : Nat) (long : PATCH_SIZE ≤ count) :
    pointerBytes pointer ≠ patchCode newAddress count := by
  intro same
  have lengths := congrArg List.length same
  rw [length_pointerBytes, length_patchCode] at lengths
  rw [PATCH_SIZE] at long
  omega

/-- A trampoline ends with the `ret` of its jump, a patch of that length with padding. -/
theorem trampolineCode_ne_patchCode {originalBytes : List UInt8} (nonempty : originalBytes ≠ [])
    (jumpBackAddress newAddress count : Nat) (long : PATCH_SIZE ≤ count) :
    trampolineCode originalBytes jumpBackAddress ≠ patchCode newAddress count := by
  intro same
  have lengths := congrArg List.length same
  have positive := List.length_pos_of_ne_nil nonempty
  rw [length_patchCode, trampolineCode, List.length_append, length_jumpCode] at lengths
  have padding : count - PATCH_SIZE = count - PATCH_SIZE - 1 + 1 := by omega
  rw [patchCode_eq long, padding, List.replicate_succ', ← List.append_assoc, trampolineCode,
    jumpCode, ← List.append_assoc] at same
  have lastByte := (List.append_inj' same rfl).2
  simp at lastByte

/-! ## Installing one hook -/

theorem Target.Patched.withTrampoline (target : Target)
    {originalFunction patchSize allocation : Nat} (long : PATCH_SIZE ≤ patchSize) :
    target.Patched (fun _ _ => False)
      (target.withTrampoline originalFunction patchSize allocation) := by
  have nonempty : target.memory.read originalFunction patchSize ≠ [] := by
    intro empty
    have lengths := congrArg List.length empty
    rw [Memory.length_read, List.length_nil] at lengths
    rw [PATCH_SIZE] at long
    omega
  refine ((virtualAllocEx target _ _).trans (writeProcessMemory _ true _
    (trampolineCode_ne_patchCode nonempty _))).congr fun _ _ => ?_
  simp

theorem Target.Patched.withPatch (target : Target) {patchSize : Nat}
    (originalFunction newAddress : Nat) (long : PATCH_SIZE ≤ patchSize) :
    target.Patched (fun address count => address = originalFunction ∧ count = patchSize)
      (target.withPatch originalFunction newAddress patchSize) := by
  refine ⟨_, rfl, fun address count => ⟨?_, ?_⟩⟩
  · rintro ⟨_, other, member⟩
    rw [List.mem_singleton, RemoteAction.write.injEq] at member
    have lengths := congrArg List.length member.2
    exact ⟨member.1, by simpa using lengths⟩
  · rintro ⟨rfl, rfl⟩
    exact ⟨long, newAddress, List.mem_singleton_self _⟩

theorem Target.Patched.withHook (target : Target) {patchSize : Nat}
    (originalFunction allocation trampolineSlot newAddress : Nat)
    (long : PATCH_SIZE ≤ patchSize) :
    target.Patched (fun address count => address = originalFunction ∧ count = patchSize)
      (target.withHook originalFunction patchSize allocation trampolineSlot newAddress) := by
  have made : target.Patched _ (target.withTrampoline originalFunction patchSize allocation) :=
    .withTrampoline target long
  refine ((made.trans (writeProcessMemory _ true trampolineSlot
    (pointerBytes_ne_patchCode allocation))).trans
      (.withPatch _ originalFunction newAddress long)).congr fun _ _ => ?_
  simp

/-- A function is patched exactly if every call up to its overwriting goes well. -/
theorem HookFunction.Effect.patched {decode : Decoder} {calls : HookFunction.Calls}
    {originalFunction hookImageBase : Nat} {definition : HookDefinition}
    {target after : Target} {hook : Option InstalledHook}
    (effect : HookFunction.Effect decode calls originalFunction hookImageBase definition target
      hook after) :
    target.Patched (fun address count =>
      HookFunction.Overwrites decode calls originalFunction hookImageBase definition target ∧
        address = originalFunction ∧
          count = CalculatePatchSize decode true originalFunction target) after := by
  have cleared : ∀ (process : Target) (slot : Nat), process.Patched (fun _ _ => False)
      ((process.WriteProcessMemory (calls.ok .clearSlot) slot (pointerBytes 0)).VirtualFreeEx
        (calls.ok .free) calls.allocation) := fun process slot =>
    ((Target.Patched.writeProcessMemory process _ slot (pointerBytes_ne_patchCode 0)).trans
      (.virtualFreeEx _ _ _)).congr fun _ _ => by simp
  cases effect with
  | refused stopped => exact (Target.Patched.refl target).congr fun _ _ => by simp [stopped]
  | abandoned stopped =>
      exact ((Target.Patched.virtualAllocEx target _ _).trans (.virtualFreeEx _ _ _)).congr
        fun _ _ => by simp [stopped]
  | discarded stopped _ long =>
      exact ((Target.Patched.withTrampoline target long).trans (.virtualFreeEx _ _ _)).congr
        fun _ _ => by simp [stopped]
  | withdrawn stopped _ long =>
      refine (((Target.Patched.withTrampoline target long).trans
        (.writeProcessMemory _ true _ (pointerBytes_ne_patchCode _))).trans
          (cleared _ _)).congr fun _ _ => ?_
      simp [stopped]
  | leftPatched overwrites long size =>
      refine ((Target.Patched.withHook target _ _ _ _ long).trans (cleared _ _)).congr
        fun _ _ => ?_
      simp [overwrites, size]
  | installed overwrites _ _ _ long size =>
      exact (Target.Patched.withHook target _ _ _ _ long).congr fun _ _ => by
        simp [overwrites, size]

/-- `HookFunction` installs exactly if the patch is written and finished. -/
theorem HookFunction.Effect.isSome_iff {decode : Decoder} {calls : HookFunction.Calls}
    {originalFunction hookImageBase : Nat} {definition : HookDefinition}
    {target after : Target} {hook : Option InstalledHook}
    (effect : HookFunction.Effect decode calls originalFunction hookImageBase definition target
      hook after) :
    hook.isSome ↔
      HookFunction.Overwrites decode calls originalFunction hookImageBase definition target ∧
        (calls.ok (.patch .reprotect) && calls.ok (.patch .flush)) = true := by
  cases effect with
  | refused stopped | abandoned stopped | discarded stopped | withdrawn stopped =>
      simp [stopped]
  | leftPatched _ _ _ unfinished => simp [unfinished]
  | installed overwrites _ _ _ _ _ finished => simp [overwrites, finished]

/-- Which functions are overwritten depends on the exports of the hook image and the
length of the patch. -/
theorem HookFunction.Overwrites.congr {decode : Decoder} {calls : HookFunction.Calls}
    {originalFunction hookImageBase otherBase : Nat} {definition : HookDefinition}
    {target other : Target}
    (overwrites : HookFunction.Overwrites decode calls originalFunction hookImageBase definition
      target)
    (exports : ∀ exportName, other.GetRemoteExport otherBase exportName =
      target.GetRemoteExport hookImageBase exportName)
    (size : CalculatePatchSize decode true originalFunction other =
      CalculatePatchSize decode true originalFunction target) :
    HookFunction.Overwrites decode calls originalFunction otherBase definition other where
  resolved := overwrites.resolved
  handler := by
    rw [exports]
    exact overwrites.handler
  slot := by
    rw [exports]
    exact overwrites.slot
  trampoline :=
    { sized := by
        have sized := overwrites.trampoline.sized
        revert sized
        cases (⟨calls.ok ∘ .trampoline, calls.allocation⟩ : CreateBypassTrampoline.Calls).ok
            .readWindow with
        | false => exact fun sized => absurd rfl sized
        | true =>
            rw [size]
            exact id
      allocated := overwrites.trampoline.allocated
      readOriginal := overwrites.trampoline.readOriginal
      writeCode := overwrites.trampoline.writeCode
      protect := overwrites.trampoline.protect
      flush := overwrites.trampoline.flush }
  preserve := overwrites.preserve
  writeSlot := overwrites.writeSlot
  protect := overwrites.protect
  write := overwrites.write

namespace DebugSession

/-- This round patches `count` bytes at `address`. -/
def OverwritesAt (decode : Decoder) (install : HookDefinition → HookFunction.Calls)
    (definition : HookDefinition) (session : DebugSession) (address count : Nat) : Prop :=
  (∀ hook ∈ session.installedHooks, hook.canonicalName ≠ definition.canonicalName) ∧
    (∃ source base, ResolveHookAddress session.process session.modules definition =
      (source, .resolved address base)) ∧
    (∀ hook ∈ session.installedHooks, hook.originalFunction ≠ address) ∧
    HookFunction.Overwrites decode (install definition) address session.hookImageBase definition
      session.process ∧
    count = CalculatePatchSize decode true address session.process

theorem patched_round {decode : Decoder} {install : HookDefinition → HookFunction.Calls}
    {definition : HookDefinition} {session next : DebugSession} {continues : Bool}
    (effect : TryInstallPendingHooks.Effect decode install definition session continues next) :
    session.process.Patched (OverwritesAt decode install definition session) next.process := by
  cases effect with
  | skipped member named =>
      refine (Target.Patched.refl _).congr fun _ _ => iff_of_false id ?_
      rintro ⟨fresh, _⟩
      exact fresh _ member named
  | pending resolution | unresolved resolution =>
      refine (Target.Patched.refl _).congr fun _ _ => iff_of_false id ?_
      rintro ⟨_, ⟨_, _, resolved⟩, _⟩
      rw [resolution] at resolved
      cases resolved
  | sameAddress resolution member same =>
      refine (Target.Patched.refl _).congr fun _ _ => iff_of_false id ?_
      rintro ⟨_, ⟨_, _, resolved⟩, untaken, _⟩
      rw [resolution] at resolved
      cases resolved
      exact untaken _ member same
  | failed fresh resolution untaken hookEffect | installed fresh resolution untaken hookEffect =>
      refine hookEffect.patched.congr fun address count => ⟨?_, ?_⟩
      · rintro ⟨overwrites, rfl, rfl⟩
        exact ⟨fresh, ⟨_, _, resolution⟩, untaken, overwrites, rfl⟩
      · rintro ⟨_, ⟨_, _, resolved⟩, _, overwrites, rfl⟩
        rw [resolution] at resolved
        cases resolved
        exact ⟨overwrites, rfl, rfl⟩

/-- The loop makes the patches of its rounds. -/
theorem patched_loop (decode : Decoder) (install : HookDefinition → HookFunction.Calls)
    (definitions : List HookDefinition) (session : DebugSession) :
    session.process.Patched
      (fun address count => ∃ visited ∈ TryInstallPendingHooks.rounds decode install definitions
        session, OverwritesAt decode install visited.1 visited.2 address count)
      (TryInstallPendingHooks.loop decode install definitions session).2.process := by
  induction definitions generalizing session with
  | nil => exact (Target.Patched.refl _).congr fun _ _ => by simp [TryInstallPendingHooks.rounds]
  | cons definition rest inductionHypothesis =>
      have effect := TryInstallPendingHooks.round_effect decode install definition session
      rw [TryInstallPendingHooks.loop, TryInstallPendingHooks.rounds]
      revert effect
      generalize TryInstallPendingHooks.round decode install definition session = outcome
      obtain ⟨continues, next⟩ := outcome
      intro effect
      have first : session.process.Patched (OverwritesAt decode install definition session)
        next.process := patched_round effect
      cases continues with
      | false => exact first.congr fun _ _ => by simp
      | true => exact (first.trans (inductionHypothesis next)).congr fun _ _ => by simp

/-- No thread stands strictly inside the bytes. -/
def ClearOf (threads : List Nat) (address count : Nat) : Prop :=
  ∀ instructionPointer ∈ threads,
    ¬(address < instructionPointer ∧ instructionPointer < address + count)

instance (threads : List Nat) (address count : Nat) : Decidable (ClearOf threads address count) :=
  inferInstanceAs (Decidable (∀ instructionPointer ∈ threads, ¬(_ ∧ _)))

/-! ## What the loop comes to -/

/-- The loop goes on behind this hook: it is installed, or waits, or will be installed. -/
inductive Settles (decode : Decoder) (install : HookDefinition → HookFunction.Calls)
    (session : DebugSession) (definition : HookDefinition) : Prop where
  | installed {hook : InstalledHook} :
      hook ∈ session.installedHooks → hook.canonicalName = definition.canonicalName →
      Settles decode install session definition
  | waits {source : Option Nat} :
      ResolveHookAddress session.process session.modules definition = (source, .pending) →
      Settles decode install session definition
  | installs {address count : Nat} :
      OverwritesAt decode install definition session address count →
      ((install definition).ok (.patch .reprotect) &&
        (install definition).ok (.patch .flush)) = true →
      Settles decode install session definition

/-- No thread stands in a function that the loop comes to. -/
def InstallsClear (decode : Decoder) (install : HookDefinition → HookFunction.Calls)
    (session : DebugSession) (threads : List Nat) : Prop :=
  ∀ earlier definition later, session.options.hooks = earlier ++ definition :: later →
    (∀ other ∈ earlier, session.Settles decode install other) →
      ∀ address count, OverwritesAt decode install definition session address count →
        ClearOf threads address count

theorem round_fst_iff (decode : Decoder) (install : HookDefinition → HookFunction.Calls)
    (definition : HookDefinition) (session : DebugSession) :
    (TryInstallPendingHooks.round decode install definition session).1 = true ↔
      session.Settles decode install definition := by
  unfold TryInstallPendingHooks.round
  by_cases named : session.installedHooks.any (·.canonicalName == definition.canonicalName)
  · rw [if_pos named]
    obtain ⟨hook, member, same⟩ := List.any_eq_true.mp named
    exact iff_of_true rfl (.installed member (eq_of_beq same))
  rw [if_neg named]
  have fresh : ∀ hook ∈ session.installedHooks,
      hook.canonicalName ≠ definition.canonicalName := by
    simpa using named
  cases resolution : ResolveHookAddress session.process session.modules definition with
  | mk source result =>
  cases result with
  | pending => exact iff_of_true rfl (.waits resolution)
  | error =>
      refine iff_of_false (by simp) ?_
      rintro (⟨member, same⟩ | ⟨waiting⟩ | ⟨overwrites, _⟩)
      · exact fresh _ member same
      · simp [resolution] at waiting
      · obtain ⟨_, _, resolved⟩ := overwrites.2.1
        simp [resolution] at resolved
  | resolved address base =>
      have settles : session.Settles decode install definition ↔
          (∀ hook ∈ session.installedHooks, hook.originalFunction ≠ address) ∧
          HookFunction.Overwrites decode (install definition) address session.hookImageBase
            definition session.process ∧
          ((install definition).ok (.patch .reprotect) &&
            (install definition).ok (.patch .flush)) = true := by
        constructor
        · rintro (⟨member, same⟩ | ⟨waiting⟩ | ⟨overwrites, finished⟩)
          · exact absurd same (fresh _ member)
          · simp [resolution] at waiting
          · obtain ⟨_, ⟨_, _, resolved⟩, untaken, overwrites, _⟩ := overwrites
            rw [resolution] at resolved
            cases resolved
            exact ⟨untaken, overwrites, finished⟩
        · rintro ⟨untaken, overwrites, finished⟩
          exact .installs ⟨fresh, ⟨_, _, resolution⟩, untaken, overwrites, rfl⟩ finished
      rw [settles]
      dsimp only
      by_cases taken : session.installedHooks.any (·.originalFunction == address)
      · rw [if_pos taken]
        obtain ⟨hook, member, same⟩ := List.any_eq_true.mp taken
        exact iff_of_false (by simp) fun ⟨untaken, _⟩ => untaken hook member (eq_of_beq same)
      rw [if_neg taken]
      have untaken : ∀ hook ∈ session.installedHooks, hook.originalFunction ≠ address := by
        simpa using taken
      have made := (HookFunction_effect decode (install definition) address
        session.hookImageBase definition session.process).isSome_iff
      rw [← made, and_iff_right untaken]
      generalize HookFunction decode (install definition) address session.hookImageBase
        definition session.process = outcome
      obtain ⟨hook, process⟩ := outcome
      cases hook with
      | none => simp
      | some hook => simp

section Rounds

variable {decode : Decoder} {install : HookDefinition → HookFunction.Calls}
  {session current : DebugSession} {done rest : List HookDefinition}
  {definition : HookDefinition}

/-- The hooks of the earlier rounds have other names. -/
theorem Advanced.fresh_iff (undisturbed : session.Undisturbed decode install)
    (advanced : session.Advanced decode install done current)
    (split : session.options.hooks = done ++ definition :: rest) :
    (∀ hook ∈ current.installedHooks, hook.canonicalName ≠ definition.canonicalName) ↔
      ∀ hook ∈ session.installedHooks, hook.canonicalName ≠ definition.canonicalName := by
  obtain ⟨installed, _, isInstalled, _, made⟩ := advanced.made
  have names := undisturbed.names
  rw [split, List.map_append, List.nodup_append] at names
  rw [isInstalled]
  simp only [List.mem_append, or_imp, forall_and, and_iff_left_iff_imp]
  intro _ hook member
  obtain ⟨other, inside, isMade⟩ := made hook member
  rw [isMade.name]
  exact names.2.2 _ (List.mem_map_of_mem inside) _ (by simp)

/-- The hooks of the earlier rounds are on other functions. -/
theorem Advanced.untaken_iff (undisturbed : session.Undisturbed decode install)
    (advanced : session.Advanced decode install done current)
    (split : session.options.hooks = done ++ definition :: rest) {address : Nat}
    (found : session.prospect definition = some address) :
    (∀ hook ∈ current.installedHooks, hook.originalFunction ≠ address) ↔
      ∀ hook ∈ session.installedHooks, hook.originalFunction ≠ address := by
  obtain ⟨installed, _, isInstalled, _, made⟩ := advanced.made
  rw [isInstalled]
  simp only [List.mem_append, or_imp, forall_and, and_iff_left_iff_imp]
  rintro _ hook member rfl
  obtain ⟨other, inside, isMade⟩ := made hook member
  have apart := (undisturbed.spared split found).patches other inside _ isMade.prospect
    isMade.sized_ne_zero
  have positive := PatchReach_pos decode hook.originalFunction session.process
  have sized := Nat.pos_of_ne_zero isMade.sized_ne_zero
  unfold Memory.Apart at apart
  omega

/-- Each round finds its function as it was before the loop. -/
theorem Advanced.overwritesAt_iff (alone : DecodesAlone decode)
    (undisturbed : session.Undisturbed decode install)
    (advanced : session.Advanced decode install done current)
    (split : session.options.hooks = done ++ definition :: rest) (address count : Nat) :
    OverwritesAt decode install definition current address count ↔
      OverwritesAt decode install definition session address count := by
  have resolution : ResolveHookAddress current.process current.modules definition =
      ResolveHookAddress session.process session.modules definition := by
    rw [advanced.frame.modules]
    exact ResolveHookAddress_congr (fun module _ => by rw [advanced.frame.images]) definition
  unfold OverwritesAt
  rw [advanced.fresh_iff undisturbed split, resolution]
  refine and_congr_right fun fresh => and_congr_right fun ⟨source, base, resolved⟩ => ?_
  have found : session.prospect definition = some address :=
    prospect_eq_some_iff.mpr ⟨fresh, source, base, resolved⟩
  have sameSize := advanced.patchSize alone (undisturbed.spared split found)
  rw [advanced.untaken_iff undisturbed split found, sameSize]
  refine and_congr_right fun _ => and_congr_left fun _ => ⟨fun overwrites => ?_, fun overwrites => ?_⟩
  · exact overwrites.congr (fun exportName => (advanced.GetRemoteExport exportName).symm)
      sameSize.symm
  · exact overwrites.congr advanced.GetRemoteExport sameSize

theorem Advanced.settles_iff (alone : DecodesAlone decode)
    (undisturbed : session.Undisturbed decode install)
    (advanced : session.Advanced decode install done current)
    (split : session.options.hooks = done ++ definition :: rest) :
    current.Settles decode install definition ↔ session.Settles decode install definition := by
  have same := advanced.overwritesAt_iff alone undisturbed split
  have resolution : ResolveHookAddress current.process current.modules definition =
      ResolveHookAddress session.process session.modules definition := by
    rw [advanced.frame.modules]
    exact ResolveHookAddress_congr (fun module _ => by rw [advanced.frame.images]) definition
  have fresh := advanced.fresh_iff undisturbed split
  constructor
  · rintro (⟨member, named⟩ | ⟨waiting⟩ | ⟨overwrites, finished⟩)
    · by_contra unsettled
      exact fresh.mpr (fun hook member named => unsettled (.installed member named)) _ member named
    · exact .waits (resolution ▸ waiting)
    · exact .installs ((same _ _).mp overwrites) finished
  · rintro (⟨member, named⟩ | ⟨waiting⟩ | ⟨overwrites, finished⟩)
    · by_contra unsettled
      exact fresh.mp (fun hook member named => unsettled (.installed member named)) _ member named
    · exact .waits (resolution ▸ waiting)
    · exact .installs ((same _ _).mpr overwrites) finished

/-- What holds of all the patches of the loop can be told from the session before it. -/
theorem Advanced.rounds_iff (within : DecodesWithin decode) (alone : DecodesAlone decode)
    (undisturbed : session.Undisturbed decode install)
    (advanced : session.Advanced decode install done current)
    (split : session.options.hooks = done ++ rest) (holds : Nat → Nat → Prop) :
    (∀ visited ∈ TryInstallPendingHooks.rounds decode install rest current,
        ∀ address count, OverwritesAt decode install visited.1 visited.2 address count →
          holds address count) ↔
      ∀ earlier definition later, rest = earlier ++ definition :: later →
        (∀ other ∈ earlier, session.Settles decode install other) →
          ∀ address count, OverwritesAt decode install definition session address count →
            holds address count := by
  induction rest generalizing done current with
  | nil => simp [TryInstallPendingHooks.rounds]
  | cons definition rest inductionHypothesis =>
      have effect := TryInstallPendingHooks.round_effect decode install definition current
      have settles := (round_fst_iff decode install definition current).trans
        (advanced.settles_iff alone undisturbed split)
      have same := advanced.overwritesAt_iff alone undisturbed split
      rw [TryInstallPendingHooks.rounds, List.forall_mem_cons]
      simp only [same]
      revert effect settles
      generalize TryInstallPendingHooks.round decode install definition current = outcome
      obtain ⟨continues, next⟩ := outcome
      intro effect settles
      have split_cons : ∀ {earlier later : List HookDefinition} {other : HookDefinition},
          definition :: rest = earlier ++ other :: later →
            earlier = [] ∧ other = definition ∧ later = rest ∨
              ∃ earlier', earlier = definition :: earlier' ∧ rest = earlier' ++ other :: later := by
        intro earlier later other split
        cases earlier with
        | nil =>
            cases split
            exact Or.inl ⟨rfl, rfl, rfl⟩
        | cons first earlier' =>
            cases split
            exact Or.inr ⟨earlier', rfl, rfl⟩
      cases continues with
      | false =>
          simp only [List.not_mem_nil, false_implies, implies_true, and_true]
          constructor
          · intro here earlier other later split each
            rcases split_cons split with ⟨rfl, rfl, rfl⟩ | ⟨earlier', rfl, _⟩
            · exact here
            · exact absurd (settles.mpr (each definition (by simp))) (by simp)
          · exact fun all => all [] definition rest rfl (by simp)
      | true =>
          have isSettled : session.Settles decode install definition := settles.mp rfl
          rw [inductionHypothesis (advanced.round within alone undisturbed split effect)
            (by rw [split, List.append_assoc]; rfl)]
          constructor
          · rintro ⟨here, others⟩ earlier other later split each
            rcases split_cons split with ⟨rfl, rfl, rfl⟩ | ⟨earlier', rfl, behind⟩
            · exact here
            · exact others earlier' other later behind fun other member =>
                each other (List.mem_cons_of_mem _ member)
          · intro all
            refine ⟨all [] definition rest rfl (by simp), fun earlier other later split each => ?_⟩
            refine all (definition :: earlier) other later (by rw [split]; rfl) ?_
            exact List.forall_mem_cons.mpr ⟨isSettled, each⟩

end Rounds

/-- The patches of the loop are those of its rounds. -/
theorem patches_tryInstall_iff (decode : Decoder) (install : HookDefinition → HookFunction.Calls)
    (session : DebugSession) (holds : Nat → Nat → Prop) :
    (∀ address count,
        Patches ((session.TryInstallPendingHooks decode install).2.process.log.drop
          session.process.log.length) address count → holds address count) ↔
      ∀ visited ∈ TryInstallPendingHooks.rounds decode install session.options.hooks session,
        ∀ address count, OverwritesAt decode install visited.1 visited.2 address count →
          holds address count := by
  obtain ⟨added, isAdded, exact⟩ := patched_loop decode install session.options.hooks session
  rw [TryInstallPendingHooks, isAdded, List.drop_left]
  constructor
  · intro all visited member address count overwrites
    exact all address count ((exact address count).mpr ⟨visited, member, overwrites⟩)
  · intro all address count patches
    obtain ⟨visited, member, overwrites⟩ := (exact address count).mp patches
    exact all visited member address count overwrites

/-- What a round overwrites is a function that is found before the loop. -/
theorem exists_prospect_of_overwritesAt {decode : Decoder}
    {install : HookDefinition → HookFunction.Calls} {session : DebugSession}
    {visited : HookDefinition × DebugSession} {address count : Nat}
    (member : visited ∈
      TryInstallPendingHooks.rounds decode install session.options.hooks session)
    (overwrites : OverwritesAt decode install visited.1 visited.2 address count) :
    ∃ definition ∈ session.options.hooks, session.prospect definition = some address := by
  suffices ∀ (definitions : List HookDefinition) (current : DebugSession),
      TryInstallPendingHooks.Frame session current → visited ∈
        TryInstallPendingHooks.rounds decode install definitions current →
        visited.1 ∈ definitions ∧ TryInstallPendingHooks.Frame session visited.2 by
    obtain ⟨selected, frame⟩ := this _ _ (.refl session) member
    obtain ⟨source, base, resolved⟩ := overwrites.2.1
    exact ⟨visited.1, selected, prospect_of_frame frame
      (prospect_eq_some_iff.mpr ⟨overwrites.1, source, base, resolved⟩)⟩
  intro definitions
  induction definitions with
  | nil => simp [TryInstallPendingHooks.rounds]
  | cons definition rest inductionHypothesis =>
      intro current frame inside
      have effect := TryInstallPendingHooks.round_effect decode install definition current
      rw [TryInstallPendingHooks.rounds] at inside
      revert inside effect
      generalize TryInstallPendingHooks.round decode install definition current = outcome
      obtain ⟨continues, next⟩ := outcome
      intro inside effect
      rcases List.mem_cons.mp inside with rfl | later
      · exact ⟨List.mem_cons_self, frame⟩
      · cases continues with
        | false => exact absurd later List.not_mem_nil
        | true =>
            obtain ⟨member, framed⟩ := inductionHypothesis next (frame.trans effect.frame) later
            exact ⟨List.mem_cons_of_mem _ member, framed⟩

/-- Where the selected functions keep their distance, every patch is made clear of the
stopped threads exactly if none of them stands in a function the loop comes to.  However
the functions lie, it is enough that none stands in the first bytes of one of them. -/
theorem patches_clear_iff {decode : Decoder} (within : DecodesWithin decode)
    (alone : DecodesAlone decode) (install : HookDefinition → HookFunction.Calls)
    (session : DebugSession) (threads : List Nat) :
    (session.Undisturbed decode install →
      ((∀ address count,
          Patches ((session.TryInstallPendingHooks decode install).2.process.log.drop
            session.process.log.length) address count → ClearOf threads address count) ↔
        session.InstallsClear decode install threads)) ∧
    ((∀ definition ∈ session.options.hooks, ∀ address ∈ session.prospect definition,
        ClearOf threads address 32) →
      ∀ address count,
        Patches ((session.TryInstallPendingHooks decode install).2.process.log.drop
          session.process.log.length) address count → ClearOf threads address count) := by
  constructor
  · intro undisturbed
    rw [patches_tryInstall_iff]
    exact Advanced.rounds_iff within alone undisturbed (.refl decode install session) rfl _
  · intro clear
    refine (patches_tryInstall_iff decode install session _).mpr ?_
    intro visited member address count overwrites instructionPointer standing inside
    obtain ⟨definition, selected, found⟩ := exists_prospect_of_overwritesAt member overwrites
    have short := CalculatePatchSize_le within true address visited.2.process
    rw [← overwrites.2.2.2.2] at short
    exact clear definition selected address found instructionPointer standing
      ⟨inside.1, by omega⟩

namespace Sample

/-- The session behind the record of `a.dll`, when the loop over the hooks begins. -/
def atLoop : DebugSession :=
  ((session ["f", "g"] started).withImage
    (image 0x30000 "a.dll" [("f", 0x31000), ("g", 0x31020)])).recordModule
      (image 0x30000 "a.dll" [("f", 0x31000), ("g", 0x31020)])

end Sample

/-- Threads at the beginning of `f` and of `g` and in a handler are in nobody's way, one
behind the first byte of `g` is. -/
theorem patches_clear_sample :
    (∀ address count,
        Patches ((Sample.atLoop.TryInstallPendingHooks Sample.decode
          Sample.calls.install).2.process.log.drop Sample.atLoop.process.log.length)
            address count → ClearOf [0x31000, 0x31020, 0x90100] address count) ∧
      Sample.atLoop.InstallsClear Sample.decode Sample.calls.install
        [0x31000, 0x31020, 0x90100] ∧
      ¬Sample.atLoop.InstallsClear Sample.decode Sample.calls.install [0x31021] := by
  have undisturbed : Sample.atLoop.Undisturbed Sample.decode Sample.calls.install := by
    decide +kernel
  have standing := patches_clear_iff Sample.decodesWithin Sample.decodesAlone
    Sample.calls.install Sample.atLoop [0x31000, 0x31020, 0x90100]
  have clear := standing.2 (by decide +kernel)
  refine ⟨clear, (standing.1 undisturbed).mp clear, fun others => ?_⟩
  have inTheWay := ((patches_clear_iff Sample.decodesWithin Sample.decodesAlone
    Sample.calls.install Sample.atLoop [0x31021]).1 undisturbed).mpr others 0x31020 14
  exact absurd (inTheWay ⟨by decide, 0x90300, by decide +kernel⟩) (by decide)

/-- A thread stopped behind the first byte of `f` when `a.dll` is reported: the
patch is written over the instruction it stands on. -/
theorem patched_under_thread :
    ¬∀ decode options labels session event calls threads address count,
      (system decode options).Run labels session →
        Patches ((session.HandleModuleEvent decode calls event).2.process.log.drop
          session.process.log.length) address count → ClearOf threads address count := by
  intro always
  have patched : Patches (((Sample.session ["f"] Sample.started).HandleModuleEvent Sample.decode
      Sample.calls (.loadDll (Sample.image 0x30000 "a.dll" [("f", 0x31000)]))).2.process.log.drop
        (Sample.session ["f"] Sample.started).process.log.length) 0x31000 14 :=
    ⟨by decide, 0x90100, by decide +kernel⟩
  have run := handleAll_run Sample.decode (Sample.options ["f"]) Sample.started Sample.process 4 5
  exact absurd (always _ _ _ _ _ _ [0x31001] 0x31000 14 run patched) (by decide)

end DebugSession

end ApiScope
