import ApiScope.Session.Invariant

/-!
# Taking the hooks out again

A hook saves the bytes it finds, and these may belong to the patch of an
earlier hook.  The hooks are therefore taken out in reverse, and each step
leads back to the code its hook was installed on.
-/

namespace ApiScope

/-- Hooks that have been installed one after the other.  Trampolines are
allocated in fresh memory, patches go into the code and slots lie in the hook
image.  In between the target may run and change what is neither code nor a
slot in use. -/
inductive Installs (decode : Decoder) (hookImageBase : Nat) (code image : Nat → Prop)
    (initial : Target) : List InstalledHook → Target → Prop where
  | start : Installs decode hookImageBase code image initial [] initial
  | runs {hooks : List InstalledHook} {target : Target} {memory : Memory} :
      Installs decode hookImageBase code image initial hooks target →
      Memory.AgreeOn code memory target.memory →
      (∀ hook ∈ hooks, memory.read hook.trampolineSlot 8 =
        target.memory.read hook.trampolineSlot 8) →
      Installs decode hookImageBase code image initial hooks { target with memory := memory }
  | install {hooks : List InstalledHook} {target : Target} {calls : HookFunction.Calls}
      {originalFunction source base : Nat} {definition : HookDefinition} {hook : InstalledHook} :
      Installs decode hookImageBase code image initial hooks target →
      (HookFunction decode calls originalFunction hookImageBase definition target).1 =
        some hook →
      target.allocations calls.allocation = 0 →
      Memory.Outside code calls.allocation TRAMPOLINE_SIZE →
      Memory.Outside image calls.allocation TRAMPOLINE_SIZE →
      Memory.Within code originalFunction hook.originalBytes.length →
      Memory.Within image hook.trampolineSlot 8 →
      Installs decode hookImageBase code image initial
        (hooks ++ [{ hook with sourceModuleBase := source, targetModuleBase := base }])
        (HookFunction decode calls originalFunction hookImageBase definition target).2

/-! ## What one installation changes -/

section Installed

variable {decode : Decoder} {calls : HookFunction.Calls}
  {originalFunction hookImageBase newAddress : Nat} {definition : HookDefinition}
  {target after : Target} {hook : InstalledHook} {code : Nat → Prop}

/-- The trampoline fits into its allocation. -/
theorem length_trampolineCode_le (within : DecodesWithin decode)
    (installed : HookFunction.Installed decode calls originalFunction hookImageBase definition
      target hook newAddress after) (memory : Memory) (jumpBackAddress : Nat) :
    (trampolineCode (memory.read originalFunction hook.originalBytes.length)
      jumpBackAddress).length ≤ TRAMPOLINE_SIZE := by
  have size := CalculatePatchSize_le within true originalFunction target
  rw [← installed.size] at size
  rw [trampolineCode, List.length_append, Memory.length_read, length_jumpCode, PATCH_SIZE,
    TRAMPOLINE_SIZE]
  omega

theorem agreeOn_withTrampoline (within : DecodesWithin decode)
    (installed : HookFunction.Installed decode calls originalFunction hookImageBase definition
      target hook newAddress after)
    (fresh : Memory.Outside code calls.allocation TRAMPOLINE_SIZE) :
    Memory.AgreeOn code (target.withTrampoline originalFunction hook.originalBytes.length
      calls.allocation).memory target.memory := by
  rw [Target.withTrampoline_memory]
  exact Memory.agreeOn_write_outside _
    (fresh.mono (length_trampolineCode_le within installed target.memory _))

/-- The saved bytes are the code the function had before. -/
theorem HookFunction.Installed.originalBytes_eq (within : DecodesWithin decode)
    (installed : HookFunction.Installed decode calls originalFunction hookImageBase definition
      target hook newAddress after)
    (fresh : Memory.Outside code calls.allocation TRAMPOLINE_SIZE)
    (patched : Memory.Within code originalFunction hook.originalBytes.length) :
    hook.originalBytes = target.memory.read originalFunction hook.originalBytes.length :=
  installed.saved.trans ((agreeOn_withTrampoline within installed fresh).read patched)

/-- The code differs from what it was by the patch alone. -/
theorem HookFunction.Installed.agreeOn (within : DecodesWithin decode)
    (installed : HookFunction.Installed decode calls originalFunction hookImageBase definition
      target hook newAddress after)
    (fresh : Memory.Outside code calls.allocation TRAMPOLINE_SIZE)
    (slot : Memory.Outside code hook.trampolineSlot 8) :
    Memory.AgreeOn code after.memory (target.memory.write originalFunction
      (patchCode newAddress hook.originalBytes.length)) := by
  rw [installed.after, Target.withHook_memory]
  apply Memory.AgreeOn.write
  exact (Memory.agreeOn_write_outside _ slot).trans (agreeOn_withTrampoline within installed fresh)

end Installed

/-! ## What one removal changes -/

section Removed

variable {ok : UnhookFunction.Call → Bool} {hook : InstalledHook} {target after : Target}
  {removed : Bool} {code : Nat → Prop}

/-- Once the bytes are written back nothing else happens to the code. -/
theorem UnhookFunction.Effect.agreeOn
    (effect : UnhookFunction.Effect ok hook target removed after)
    (restores : ok .protect = true ∧ ok .restore = true)
    (slot : Memory.Outside code hook.trampolineSlot 8) :
    Memory.AgreeOn code after.memory
      (target.memory.write hook.originalFunction hook.originalBytes) := by
  cases effect with
  | patchStays stays => simp [restores.1, restores.2] at stays
  | slotStays => exact .refl code _
  | removed =>
      rw [Target.VirtualFreeEx_memory]
      exact Memory.agreeOn_write_outside _ slot

/-- A byte outside the code that is null stays null. -/
theorem UnhookFunction.Effect.null (effect : UnhookFunction.Effect ok hook target removed after)
    (patched : Memory.Within code hook.originalFunction hook.originalBytes.length)
    {address : Nat} (noCode : ¬code address) (null : target.memory address = 0) :
    after.memory address = 0 := by
  have kept : (target.withOriginal hook).memory address = 0 := by
    have outside : address < hook.originalFunction ∨
        hook.originalFunction + hook.originalBytes.length ≤ address := by
      by_contra inside
      rw [not_or, Nat.not_lt, Nat.not_le] at inside
      exact noCode (patched address inside.1 inside.2)
    exact (Memory.write_of_outside _ outside).trans null
  cases effect with
  | patchStays => exact null
  | slotStays => exact kept
  | removed =>
      rw [Target.VirtualFreeEx_memory]
      refine Memory.write_of_eq _ (fun written member => ?_) kept
      rw [pointerBytes_zero] at member
      exact List.eq_of_mem_replicate member

end Removed

/-! ## Hooks on top of each other -/

/-- Where an installed hook patches and where its slot lies. -/
structure InstalledHook.Placed (hook : InstalledHook) (code image : Nat → Prop) : Prop where
  valid : hook.Valid
  patched : Memory.Within code hook.originalFunction hook.originalBytes.length
  slot : Memory.Within image hook.trampolineSlot 8

section Installs

variable {decode : Decoder} {hookImageBase : Nat} {code image : Nat → Prop}
  {initial target : Target} {hooks : List InstalledHook}

theorem Installs.placed (installs : Installs decode hookImageBase code image initial hooks target) :
    ∀ hook ∈ hooks, hook.Placed code image := by
  induction installs with
  | start => simp
  | runs _ _ _ inductionHypothesis => exact inductionHypothesis
  | install _ succeeds _ _ _ patched slot inductionHypothesis =>
      intro hook member
      rcases List.mem_append.mp member with old | new
      · exact inductionHypothesis hook old
      · obtain ⟨_, installed⟩ := HookFunction_installed succeeds
        rw [List.mem_singleton] at new
        subst new
        refine ⟨installed.valid, ?_, slot⟩
        rw [← installed.function] at patched
        exact patched

theorem Installs.images (installs : Installs decode hookImageBase code image initial hooks target) :
    target.images = initial.images := by
  induction installs with
  | start => rfl
  | runs _ _ _ inductionHypothesis => exact inductionHypothesis
  | install _ _ _ _ _ _ _ inductionHypothesis =>
      exact (HookFunction_effect _ _ _ _ _ _).images.trans inductionHypothesis

theorem Target.withHook_allocations (target : Target)
    (originalFunction patchSize trampolineSlot newAddress : Nat) {allocation : Nat}
    (nonzero : allocation ≠ 0) :
    (target.withHook originalFunction patchSize allocation trampolineSlot
      newAddress).allocations = Function.update target.allocations allocation TRAMPOLINE_SIZE := by
  simp [Target.withHook, Target.withPatch, Target.withSlot, Target.withTrampoline,
    Target.VirtualAllocEx, nonzero]

/-- Every hook keeps a trampoline of its own, apart from all there was before. -/
theorem Installs.trampolines
    (installs : Installs decode hookImageBase code image initial hooks target) :
    (hooks.map InstalledHook.trampolineAddress).Nodup ∧
      (∀ hook ∈ hooks, target.allocations hook.trampolineAddress ≠ 0) ∧
      ∀ base, initial.allocations base ≠ 0 →
        target.allocations base ≠ 0 ∧ ∀ hook ∈ hooks, hook.trampolineAddress ≠ base := by
  induction installs with
  | start => simp
  | runs _ _ _ inductionHypothesis => exact inductionHypothesis
  | @install hooks target calls originalFunction source base definition hook _ succeeds free _ _ _ _
      inductionHypothesis =>
      obtain ⟨distinct, allocated, others⟩ := inductionHypothesis
      obtain ⟨_, installed⟩ := HookFunction_installed succeeds
      have nonzero := installed.overwrites.trampoline.allocated
      have isAllocation := installed.trampoline
      have after := congrArg Target.allocations installed.after
      rw [Target.withHook_allocations _ _ _ _ _ nonzero] at after
      have still : ∀ region, target.allocations region ≠ 0 →
          (HookFunction decode calls originalFunction hookImageBase definition
            target).2.allocations region ≠ 0 ∧ hook.trampolineAddress ≠ region := by
        intro region held
        have different : region ≠ calls.allocation := by
          rintro rfl
          exact held free
        rw [after, Function.update_of_ne different, isAllocation]
        exact ⟨held, different.symm⟩
      refine ⟨?_, ?_, ?_⟩
      · rw [List.map_append, List.nodup_append]
        refine ⟨distinct, by simp, ?_⟩
        intro region member other isNew
        obtain ⟨old, inside, rfl⟩ := List.mem_map.mp member
        have isHook : other = hook.trampolineAddress := by simpa using isNew
        rw [isHook]
        exact (still _ (allocated old inside)).2.symm
      · intro other member
        rcases List.mem_append.mp member with old | new
        · exact (still _ (allocated other old)).1
        · have isHook : other.trampolineAddress = calls.allocation := by
            rw [List.mem_singleton.mp new]
            exact isAllocation
          rw [after, isHook, Function.update_self, TRAMPOLINE_SIZE]
          decide
      · intro region held
        obtain ⟨kept, apart⟩ := others region held
        refine ⟨(still region kept).1, fun other member => ?_⟩
        rcases List.mem_append.mp member with old | new
        · exact apart other old
        · rw [List.mem_singleton.mp new]
          exact (still region kept).2

/-- Undoing the hooks in reverse leads back to the code they were installed on,
whatever becomes of their slots and trampolines. -/
theorem Installs.restores (within : DecodesWithin decode)
    (disjoint : ∀ address, code address → ¬image address)
    (installs : Installs decode hookImageBase code image initial hooks target)
    {unhook : InstalledHook → UnhookFunction.Call → Bool}
    (restores : ∀ hook ∈ hooks, unhook hook .protect = true ∧ unhook hook .restore = true)
    {process : Target} (agree : Memory.AgreeOn code process.memory target.memory) :
    Memory.AgreeOn code
      (DebugSession.CleanupRemote.loop unhook hooks.reverse process).2.memory initial.memory := by
  induction installs generalizing process with
  | start => exact agree
  | runs _ sameCode _ inductionHypothesis =>
      exact inductionHypothesis restores (agree.trans sameCode)
  | @install hooks target calls originalFunction source base definition hook installs succeeds _
      fresh _ patched slot inductionHypothesis =>
      obtain ⟨newAddress, installed⟩ := HookFunction_installed succeeds
      have slotOutside : Memory.Outside code hook.trampolineSlot 8 :=
        slot.outside fun address inImage inCode => disjoint address inCode inImage
      rw [List.reverse_append, List.reverse_singleton, List.singleton_append,
        DebugSession.CleanupRemote.loop]
      generalize isLast : ({ hook with sourceModuleBase := source, targetModuleBase := base } :
        InstalledHook) = last at restores ⊢
      have valid : last.Valid := isLast ▸ installed.valid
      have undone := (UnhookFunction_effect (unhook last) valid process).agreeOn
        (restores last (by simp)) (by rw [← isLast]; exact slotOutside)
      have function : last.originalFunction = originalFunction := by
        rw [← isLast]
        exact installed.function
      have original := installed.originalBytes_eq within fresh patched
      have saved : last.originalBytes =
          target.memory.read originalFunction hook.originalBytes.length := by
        rw [← isLast]
        exact original
      have repatched := installed.agreeOn within fresh slotOutside
      have back : (target.memory.write originalFunction
            (patchCode newAddress hook.originalBytes.length)).write originalFunction
              (target.memory.read originalFunction hook.originalBytes.length) = target.memory := by
        have undo := target.memory.write_write_read originalFunction
          (patchCode newAddress hook.originalBytes.length)
        rwa [length_patchCode] at undo
      refine inductionHypothesis (fun other member => restores other (by simp [member])) ?_
      rw [function, saved] at undone
      refine undone.trans (((agree.trans repatched).write _ _).trans ?_)
      rw [back]
      exact .refl code _

end Installs

/-! ## Taking everything out -/

theorem UnhookFunction_succeeds {ok : UnhookFunction.Call → Bool}
    (succeeds : ∀ call, ok call = true) {hook : InstalledHook} (valid : hook.Valid)
    (target : Target) :
    UnhookFunction ok hook target =
      (true, (target.withoutHook hook).VirtualFreeEx true hook.trampolineAddress) := by
  obtain ⟨function, trampoline, slot, bytes⟩ := valid
  rw [UnhookFunction, if_neg (by simp [function, trampoline, slot, bytes])]
  simp [succeeds, Target.withoutHook, Target.withOriginal]

/-- The calls that take out one hook. -/
def InstalledHook.removal (hook : InstalledHook) : List RemoteAction :=
  [.write hook.originalFunction hook.originalBytes, .write hook.trampolineSlot (pointerBytes 0),
    .free hook.trampolineAddress]

namespace DebugSession.CleanupRemote

variable {unhook : InstalledHook → UnhookFunction.Call → Bool} {hooks : List InstalledHook}
  {code image : Nat → Prop}

theorem loop_succeeds (valid : ∀ hook ∈ hooks, hook.Valid)
    (succeeds : ∀ hook ∈ hooks, ∀ call, unhook hook call = true) (process : Target) :
    (loop unhook hooks process).1 = true ∧
      (loop unhook hooks process).2.log = process.log ++ hooks.flatMap InstalledHook.removal := by
  induction hooks generalizing process with
  | nil => simp [loop]
  | cons hook rest inductionHypothesis =>
      rw [List.forall_mem_cons] at valid succeeds
      obtain ⟨cleaned, log⟩ := inductionHypothesis valid.2 succeeds.2
        ((process.withoutHook hook).VirtualFreeEx true hook.trampolineAddress)
      rw [loop, UnhookFunction_succeeds succeeds.1 valid.1]
      refine ⟨by simp [cleaned], log.trans ?_⟩
      simp [InstalledHook.removal, Target.withoutHook, Target.withOriginal,
        Target.WriteProcessMemory, Target.VirtualFreeEx]

/-- However the removals end, a null byte outside the code stays null. -/
theorem loop_null (placed : ∀ hook ∈ hooks, hook.Placed code image) {process : Target}
    {address : Nat} (noCode : ¬code address) (null : process.memory address = 0) :
    (loop unhook hooks process).2.memory address = 0 := by
  induction hooks generalizing process with
  | nil => exact null
  | cons hook rest inductionHypothesis =>
      rw [List.forall_mem_cons] at placed
      have effect := UnhookFunction_effect (unhook hook) placed.1.valid process
      exact inductionHypothesis placed.2 (effect.null placed.1.patched noCode null)

theorem loop_clears (disjoint : ∀ address, code address → ¬image address)
    (placed : ∀ hook ∈ hooks, hook.Placed code image)
    (succeeds : ∀ hook ∈ hooks, ∀ call, unhook hook call = true) (process : Target) :
    ∀ hook ∈ hooks, ∀ address, hook.trampolineSlot ≤ address →
      address < hook.trampolineSlot + 8 → (loop unhook hooks process).2.memory address = 0 := by
  induction hooks generalizing process with
  | nil => simp
  | cons first rest inductionHypothesis =>
      rw [List.forall_mem_cons] at placed succeeds
      intro hook member address lower upper
      rw [loop, UnhookFunction_succeeds succeeds.1 placed.1.valid]
      rcases List.mem_cons.mp member with rfl | behind
      · have noCode : ¬code address := fun inCode =>
          disjoint address inCode (placed.1.slot address lower upper)
        refine loop_null placed.2 noCode ?_
        rw [Target.VirtualFreeEx_memory]
        refine Memory.write_of_inside _ lower ?_
        rw [pointerBytes_zero, List.getElem?_replicate, if_pos (by omega)]
      · exact inductionHypothesis placed.2 succeeds.2 _ hook behind address lower upper

theorem images_loop (hooks : List InstalledHook) (process : Target) :
    (loop unhook hooks process).2.images = process.images := by
  induction hooks generalizing process with
  | nil => rfl
  | cons hook rest inductionHypothesis =>
      exact (inductionHypothesis _).trans (images_UnhookFunction _ _ _)

end DebugSession.CleanupRemote

/-! ## Counting releases -/

theorem OnlyWrites.count_eq_zero {actions : List RemoteAction} (onlyWrites : OnlyWrites actions)
    {action : RemoteAction} (noWrite : ∀ address bytes, action ≠ .write address bytes) :
    actions.count action = 0 := by
  rw [List.count_eq_zero]
  intro member
  obtain ⟨address, bytes, isWrite⟩ := onlyWrites action member
  exact noWrite address bytes isWrite

theorem count_free_removals (hooks : List InstalledHook) (base : Nat) :
    (hooks.flatMap InstalledHook.removal).count (.free base) =
      (hooks.map InstalledHook.trampolineAddress).count base := by
  induction hooks with
  | nil => rfl
  | cons hook rest inductionHypothesis =>
      rw [List.flatMap_cons, List.count_append, inductionHypothesis, List.map_cons,
        List.count_cons]
      simp [InstalledHook.removal, List.count_cons, Nat.add_comm]

theorem count_unmap_removals (hooks : List InstalledHook) (base : Nat) :
    (hooks.flatMap InstalledHook.removal).count (.unmap base) = 0 := by
  rw [List.count_eq_zero]
  simp [InstalledHook.removal]

theorem count_free_heldReleases (session : TraceSession) {base : Nat} (nonzero : base ≠ 0) :
    session.heldReleases.count (.free base) =
      [session.setEventBypass.address, session.readMemoryBypass.address].count base := by
  unfold TraceSession.heldReleases
  simp only [List.count_append, List.count_cons, List.count_nil]
  split_ifs <;> simp_all

theorem count_unmap_heldReleases {session : TraceSession} (nonzero : session.remoteRing ≠ 0) :
    session.heldReleases.count (.unmap session.remoteRing) = 1 := by
  unfold TraceSession.heldReleases
  split_ifs <;> simp

/-! ## Detaching -/

namespace DebugSession

/-- The target once every hook has been taken out. -/
def unhooked (session : DebugSession) (calls : CleanupRemote.Calls) : Bool × Target :=
  CleanupRemote.loop calls.unhook session.installedHooks.reverse session.process

/-- The trace session and the target once the transport is gone as well. -/
def disconnected (session : DebugSession) (calls : CleanupRemote.Calls) :
    Bool × TraceSession × Target :=
  session.traceSession.CleanupRemote calls.transport session.hookImageBase
    (session.unhooked calls).2

theorem CleanupRemote_of_mapped {session : DebugSession} (mapped : session.hookImageBase ≠ 0)
    (calls : CleanupRemote.Calls) :
    (session.CleanupRemote calls).1 =
        (calls.freeImage && (session.disconnected calls).1 && (session.unhooked calls).1) ∧
      (session.CleanupRemote calls).2.process =
        (session.disconnected calls).2.2.VirtualFreeEx calls.freeImage session.hookImageBase := by
  unfold CleanupRemote
  dsimp only
  rw [if_neg mapped]
  exact ⟨rfl, rfl⟩

/-- The calls of a cleanup in which everything that is held is released. -/
def released (session : DebugSession) (writes : List RemoteAction) : List RemoteAction :=
  session.installedHooks.reverse.flatMap InstalledHook.removal ++ writes ++
    session.traceSession.heldReleases ++ [.free session.hookImageBase]

theorem log_CleanupRemote {session : DebugSession} {calls : CleanupRemote.Calls}
    (mapped : session.hookImageBase ≠ 0)
    (valid : ∀ hook ∈ session.installedHooks, hook.Valid)
    (unhookSucceeds : ∀ hook ∈ session.installedHooks, ∀ call, calls.unhook hook call = true)
    (unmapRing : calls.transport .unmapRing = true)
    (closeWakeEvent : calls.transport .closeWakeEvent = true)
    (freeSetEvent : calls.transport .freeSetEvent = true)
    (freeReadMemory : calls.transport .freeReadMemory = true)
    (freeSucceeds : calls.freeImage = true) :
    ∃ writes, OnlyWrites writes ∧ (session.CleanupRemote calls).2.process.log =
      session.process.log ++ session.released writes := by
  have removals := (CleanupRemote.loop_succeeds
    (fun hook member => valid hook (List.mem_reverse.mp member))
    (fun hook member => unhookSucceeds hook (List.mem_reverse.mp member)) session.process).2
  obtain ⟨writes, onlyWrites, log⟩ := TraceSession.log_CleanupRemote unmapRing closeWakeEvent
    freeSetEvent freeReadMemory session.hookImageBase session.traceSession (session.unhooked calls).2
  refine ⟨writes, onlyWrites, ?_⟩
  have freed : (session.CleanupRemote calls).2.process.log =
      (session.disconnected calls).2.2.log ++ [.free session.hookImageBase] := by
    rw [(CleanupRemote_of_mapped mapped calls).2, freeSucceeds]
    rfl
  have disconnected : (session.disconnected calls).2.2.log =
      (session.unhooked calls).2.log ++ writes ++ session.traceSession.heldReleases := log
  have unhooked : (session.unhooked calls).2.log = session.process.log ++
      session.installedHooks.reverse.flatMap InstalledHook.removal := removals
  rw [freed, disconnected, unhooked, released]
  simp only [List.append_assoc]

def bypasses (session : DebugSession) : List RemoteTrampoline :=
  [session.traceSession.setEventBypass, session.traceSession.readMemoryBypass]

/-- What a session with hooks holds in the target beside them. -/
structure Equipped (session : DebugSession) (image : Nat → Prop) (initial : Target) : Prop where
  mapped : session.hookImageBase ≠ 0
  allocated : initial.allocations session.hookImageBase ≠ 0
  bypasses : ∀ bypass ∈ session.bypasses, bypass.address ≠ 0 →
    initial.allocations bypass.address ≠ 0 ∧ bypass.address ≠ session.hookImageBase
  distinct : session.traceSession.setEventBypass.address ≠ 0 →
    session.traceSession.setEventBypass.address ≠ session.traceSession.readMemoryBypass.address
  exports : ∀ exportName ∈ TraceSession.transportExports, ∃ remoteExport,
    remoteExport.address ≠ 0 ∧ Memory.Within image remoteExport.address 8 ∧
      initial.GetRemoteExport session.hookImageBase (narrow exportName) = some remoteExport

theorem count_free_released (session : DebugSession) {writes : List RemoteAction}
    (onlyWrites : OnlyWrites writes) {base : Nat} (nonzero : base ≠ 0) :
    (session.released writes).count (.free base) =
      (session.installedHooks.map InstalledHook.trampolineAddress).count base +
        (session.bypasses.map RemoteTrampoline.address).count base +
        [session.hookImageBase].count base := by
  have noFree : writes.count (.free base) = 0 := onlyWrites.count_eq_zero (by simp)
  have lastFree : [RemoteAction.free session.hookImageBase].count (.free base) =
      [session.hookImageBase].count base := by
    simp [List.count_cons]
  rw [released, List.count_append, List.count_append, List.count_append, count_free_removals,
    List.map_reverse, List.count_reverse, noFree, count_free_heldReleases _ nonzero, lastFree]
  rfl

/-- Each region the session holds is released once. -/
theorem Equipped.releases {decode : Decoder} {code image : Nat → Prop} {initial : Target}
    {session : DebugSession} (equipped : session.Equipped image initial)
    (installs : Installs decode session.hookImageBase code image initial session.installedHooks
      session.process) {writes : List RemoteAction} (onlyWrites : OnlyWrites writes) :
    (∀ hook ∈ session.installedHooks,
        (session.released writes).count (.free hook.trampolineAddress) = 1) ∧
      (∀ bypass ∈ session.bypasses, bypass.address ≠ 0 →
        (session.released writes).count (.free bypass.address) = 1) ∧
      (session.traceSession.remoteRing ≠ 0 →
        (session.released writes).count (.unmap session.traceSession.remoteRing) = 1) ∧
      (session.released writes).count (.free session.hookImageBase) = 1 := by
  obtain ⟨distinct, _, apart⟩ := installs.trampolines
  have noHook : ∀ base, initial.allocations base ≠ 0 →
      (session.installedHooks.map InstalledHook.trampolineAddress).count base = 0 := by
    intro base allocated
    rw [List.count_eq_zero]
    intro member
    obtain ⟨hook, inside, same⟩ := List.mem_map.mp member
    exact (apart base allocated).2 hook inside same
  refine ⟨?_, ?_, ?_, ?_⟩
  · intro hook member
    have nonzero := (installs.placed hook member).valid.2.1
    rw [count_free_released session onlyWrites nonzero,
      List.count_eq_one_of_mem distinct (List.mem_map_of_mem member)]
    have noBypass : (session.bypasses.map RemoteTrampoline.address).count
        hook.trampolineAddress = 0 := by
      rw [List.count_eq_zero]
      intro inside
      obtain ⟨bypass, isBypass, same⟩ := List.mem_map.mp inside
      have held := (equipped.bypasses bypass isBypass (by rw [same]; exact nonzero)).1
      exact (apart _ held).2 hook member same.symm
    have noImage : [session.hookImageBase].count hook.trampolineAddress = 0 := by
      rw [List.count_eq_zero, List.mem_singleton]
      exact (apart _ equipped.allocated).2 hook member
    rw [noBypass, noImage]
  · intro bypass member nonzero
    obtain ⟨held, notImage⟩ := equipped.bypasses bypass member nonzero
    rw [count_free_released session onlyWrites nonzero, noHook _ held]
    have noImage : [session.hookImageBase].count bypass.address = 0 := by
      rw [List.count_eq_zero, List.mem_singleton]
      exact notImage
    have once : (session.bypasses.map RemoteTrampoline.address).count bypass.address = 1 := by
      have distinct := equipped.distinct
      rcases List.mem_pair.mp member with rfl | rfl
      · simp [DebugSession.bypasses, (distinct nonzero).symm]
      · by_cases same : session.traceSession.setEventBypass.address =
            session.traceSession.readMemoryBypass.address
        · exact absurd same (distinct (by rw [same]; exact nonzero))
        · simp [DebugSession.bypasses, same]
    rw [noImage, once]
  · intro nonzero
    have noUnmap : writes.count (.unmap session.traceSession.remoteRing) = 0 :=
      onlyWrites.count_eq_zero (by simp)
    rw [released, List.count_append, List.count_append, List.count_append, count_unmap_removals,
      noUnmap, count_unmap_heldReleases nonzero]
    simp
  · rw [count_free_released session onlyWrites equipped.mapped, noHook _ equipped.allocated]
    have noBypass : (session.bypasses.map RemoteTrampoline.address).count
        session.hookImageBase = 0 := by
      rw [List.count_eq_zero]
      intro inside
      obtain ⟨bypass, isBypass, same⟩ := List.mem_map.mp inside
      exact (equipped.bypasses bypass isBypass (by rw [same]; exact equipped.mapped)).2 same
    rw [noBypass]
    simp

/-- Clearing the transport exports does not touch the code. -/
theorem agreeOn_clearExports {code image : Nat → Prop}
    (disjoint : ∀ address, code address → ¬image address) {hookImageBase : Nat} {process : Target}
    (exports : ∀ exportName ∈ TraceSession.transportExports, ∀ remoteExport,
      process.GetRemoteExport hookImageBase (narrow exportName) = some remoteExport →
        Memory.Within image remoteExport.address 8)
    (ok : TraceSession.CleanupRemote.Call → Bool) :
    Memory.AgreeOn code (TraceSession.clearExports ok hookImageBase process).2.memory
      process.memory := by
  refine (@TraceSession.clearExports_induction
    (fun after => after.images = process.images ∧ Memory.AgreeOn code after.memory process.memory)
    hookImageBase ?_ process ⟨rfl, .refl code _⟩ ok).2
  rintro succeeds exportName member after ⟨images, agree⟩
  refine ⟨(TraceSession.images_WriteRemoteExport _ _ _ _ _).trans images, ?_⟩
  unfold TraceSession.WriteRemoteExport
  cases found : after.GetRemoteExport hookImageBase (narrow exportName) with
  | none => exact agree
  | some remoteExport =>
      dsimp only
      split_ifs
      · exact agree
      · cases succeeds with
        | false => exact agree
        | true =>
            have inImage : Memory.Within image remoteExport.address 8 := by
              apply exports exportName member
              rw [Target.GetRemoteExport, ← images]
              exact found
            refine (Memory.agreeOn_write_outside _ ?_).trans agree
            exact inImage.outside fun address imaged coded => disjoint address coded imaged

/-- A detach in which every remote call succeeds leaves the code as it was before
the first hook, every pointer the hooks read null, and nothing unreleased. -/
theorem detach_restores {decode : Decoder} {code image : Nat → Prop} {initial : Target}
    {session : DebugSession} {calls : CleanupRemote.Calls} (within : DecodesWithin decode)
    (disjoint : ∀ address, code address → ¬image address)
    (installs : Installs decode session.hookImageBase code image initial session.installedHooks
      session.process)
    (equipped : session.Equipped image initial)
    (unhookSucceeds : ∀ hook ∈ session.installedHooks, ∀ call, calls.unhook hook call = true)
    (transportSucceeds : ∀ call, calls.transport call = true)
    (freeSucceeds : calls.freeImage = true) :
    (session.CleanupRemote calls).1 = true ∧
      Memory.AgreeOn code (session.CleanupRemote calls).2.process.memory initial.memory ∧
      (∀ hook ∈ session.installedHooks, (session.CleanupRemote calls).2.process.memory.read
        hook.trampolineSlot 8 = pointerBytes 0) ∧
      (∀ exportName ∈ TraceSession.transportExports, ∃ remoteExport,
        initial.GetRemoteExport session.hookImageBase (narrow exportName) = some remoteExport ∧
          (session.CleanupRemote calls).2.process.memory.read remoteExport.address 8 =
            pointerBytes 0) ∧
      ∃ released, (session.CleanupRemote calls).2.process.log = session.process.log ++ released ∧
        (∀ hook ∈ session.installedHooks, released.count (.free hook.trampolineAddress) = 1) ∧
        (∀ bypass ∈ session.bypasses, bypass.address ≠ 0 →
          released.count (.free bypass.address) = 1) ∧
        (session.traceSession.remoteRing ≠ 0 →
          released.count (.unmap session.traceSession.remoteRing) = 1) ∧
        released.count (.free session.hookImageBase) = 1 := by
  have placed : ∀ hook ∈ session.installedHooks.reverse, hook.Placed code image :=
    fun hook member => installs.placed hook (List.mem_reverse.mp member)
  have reversed : ∀ hook ∈ session.installedHooks.reverse, ∀ call,
      calls.unhook hook call = true :=
    fun hook member => unhookSucceeds hook (List.mem_reverse.mp member)
  obtain ⟨removed, removals⟩ := CleanupRemote.loop_succeeds
    (fun hook member => (placed hook member).valid) reversed session.process
  have images : (session.unhooked calls).2.images = initial.images :=
    (CleanupRemote.images_loop _ _).trans installs.images
  have found : ∀ exportName ∈ TraceSession.transportExports, ∃ remoteExport,
      remoteExport.address ≠ 0 ∧ (session.unhooked calls).2.GetRemoteExport session.hookImageBase
        (narrow exportName) = some remoteExport := by
    intro exportName member
    obtain ⟨remoteExport, nonzero, _, isFound⟩ := equipped.exports exportName member
    refine ⟨remoteExport, nonzero, ?_⟩
    rw [Target.GetRemoteExport, images]
    exact isFound
  obtain ⟨result, process⟩ := CleanupRemote_of_mapped equipped.mapped calls
  have memory : (session.CleanupRemote calls).2.process.memory =
      (TraceSession.clearExports calls.transport session.hookImageBase
        (session.unhooked calls).2).2.memory := by
    rw [process, Target.VirtualFreeEx_memory]
    exact TraceSession.memory_CleanupRemote _ _ _ _
  refine ⟨?_, ?_, ?_, ?_, ?_⟩
  · rw [result, freeSucceeds, disconnected,
      TraceSession.CleanupRemote_succeeds transportSucceeds found, unhooked, removed]
    rfl
  · rw [memory]
    refine (agreeOn_clearExports disjoint ?_ calls.transport).trans ?_
    · intro exportName member remoteExport isFound
      obtain ⟨other, _, inImage, isOther⟩ := equipped.exports exportName member
      rw [Target.GetRemoteExport, images] at isFound
      cases isFound.symm.trans isOther
      exact inImage
    · exact installs.restores within disjoint
        (fun hook member => ⟨unhookSucceeds hook member _, unhookSucceeds hook member _⟩)
        (.refl code _)
  · intro hook member
    rw [memory, pointerBytes_zero]
    apply Memory.read_eq_replicate
    intro address lower upper
    apply TraceSession.null_clearExports
    exact CleanupRemote.loop_clears disjoint placed reversed session.process hook
      (List.mem_reverse.mpr member) address lower upper
  · intro exportName member
    obtain ⟨remoteExport, nonzero, isFound⟩ := found exportName member
    refine ⟨remoteExport, ?_, ?_⟩
    · rw [← isFound, Target.GetRemoteExport, Target.GetRemoteExport, images]
    · rw [memory]
      exact TraceSession.clearExports_clears transportSucceeds member isFound nonzero
  · obtain ⟨writes, onlyWrites, log⟩ := log_CleanupRemote equipped.mapped
      (fun hook member => (installs.placed hook member).valid) unhookSucceeds
      (transportSucceeds .unmapRing) (transportSucceeds .closeWakeEvent)
      (transportSucceeds .freeSetEvent) (transportSucceeds .freeReadMemory) freeSucceeds
    exact ⟨session.released writes, log, equipped.releases installs onlyWrites⟩

namespace Sample

/-- A target with a hook image, a ring and two bypasses, before any hook. -/
def equipped : Target :=
  { memory := fun _ => 0x90
    images := fun base => if base = 0x90000 then some hookImage.exports else none
    allocations := fun base => if base ∈ [0x90000, 0xA0000, 0xC0000, 0xD0000] then 0x1000 else 0
    log := [] }

def firstHook : InstalledHook :=
  { canonicalName := narrow "a.dll!f"
    sourceModuleBase := 0x30000
    targetModuleBase := 0x30000
    originalFunction := 0x31000
    trampolineAddress := 0xE0000
    trampolineSlot := 0x90200
    originalBytes := List.replicate 14 0x90 }

/-- The hook on `g`, five bytes into the patch of `f`. -/
def secondHook : InstalledHook :=
  { canonicalName := narrow "a.dll!g"
    sourceModuleBase := 0x30000
    targetModuleBase := 0x30000
    originalFunction := 0x31005
    trampolineAddress := 0xF0000
    trampolineSlot := 0x90400
    originalBytes := (jumpCode 0x90100).drop 5 ++ List.replicate 5 0x90 }

def onceHooked : Target :=
  (HookFunction decode (calls.install (hook "f")) 0x31000 0x90000 (hook "f") equipped).2

def twiceHooked : Target :=
  (HookFunction decode (calls.install (hook "g")) 0x31005 0x90000 (hook "g") onceHooked).2

def attached : DebugSession :=
  { construct (options ["f", "g"]) twiceHooked 4 5 with
    hookImageBase := 0x90000
    hookImageSize := 0x1000
    traceSession :=
      { TraceSession.construct 5 with
        remoteRing := 0xA0000
        remoteWakeEvent := 3
        setEventBypass := ⟨0xC0000, 14⟩
        readMemoryBypass := ⟨0xD0000, 14⟩ }
    installedHooks := [firstHook, secondHook]
    transportConfigured := true }

def cleanup : CleanupRemote.Calls :=
  { unhook := fun _ _ => true
    transport := fun _ => true
    freeImage := true }

theorem decodesWithin : DecodesWithin decode := by
  intro code instruction decoded
  unfold decode at decoded
  split at decoded
  · cases decoded
    simp
  · cases decoded
    simp
  · split_ifs at decoded with long
    cases decoded
    simpa using long
  · split_ifs at decoded with long
    cases decoded
    simpa using long
  · cases decoded

/-- The module the hooked functions lie in. -/
def moduleRegion (address : Nat) : Prop := 0x30000 ≤ address ∧ address < 0x40000

def imageRegion (address : Nat) : Prop := 0x90000 ≤ address ∧ address < 0x91000

theorem outside_regions {address : Nat} (behind : 0xE0000 ≤ address) :
    Memory.Outside moduleRegion address TRAMPOLINE_SIZE ∧
      Memory.Outside imageRegion address TRAMPOLINE_SIZE := by
  refine ⟨fun target lower upper inside => ?_, fun target lower upper inside => ?_⟩
  · exact absurd inside.2 (by omega)
  · exact absurd inside.2 (by omega)

theorem installs_once :
    Installs decode 0x90000 moduleRegion imageRegion equipped [firstHook] onceHooked := by
  have succeeds : (HookFunction decode (calls.install (hook "f")) 0x31000 0x90000 (hook "f")
      equipped).1 = some { firstHook with sourceModuleBase := 0, targetModuleBase := 0 } := by
    decide +kernel
  refine .install .start succeeds (by decide) (outside_regions (by decide)).1
    (outside_regions (by decide)).2 ?_ ?_
  · intro target lower upper
    simp only [firstHook, List.length_replicate] at upper
    exact ⟨by omega, by omega⟩
  · intro target lower upper
    simp only [firstHook] at lower upper
    exact ⟨by omega, by omega⟩

theorem installs_twice :
    Installs decode 0x90000 moduleRegion imageRegion equipped [firstHook, secondHook]
      twiceHooked := by
  have succeeds : (HookFunction decode (calls.install (hook "g")) 0x31005 0x90000 (hook "g")
      onceHooked).1 = some { secondHook with sourceModuleBase := 0, targetModuleBase := 0 } := by
    decide +kernel
  have length : secondHook.originalBytes.length = 14 := by decide
  refine .install installs_once succeeds (by decide +kernel) (outside_regions (by decide)).1
    (outside_regions (by decide)).2 ?_ ?_
  · intro target lower upper
    rw [length] at upper
    exact ⟨by omega, by omega⟩
  · intro target lower upper
    simp only [secondHook] at lower upper
    exact ⟨by omega, by omega⟩

theorem isEquipped : attached.Equipped imageRegion equipped where
  mapped := by decide
  allocated := by decide
  bypasses := by decide
  distinct := by decide
  exports := by
    have inside : ∀ address, 0x90600 ≤ address → address ≤ 0x90630 →
        Memory.Within imageRegion address 8 :=
      fun _ _ _ _ _ _ => ⟨by omega, by omega⟩
    intro exportName member
    simp only [TraceSession.transportExports, List.mem_cons, List.not_mem_nil, or_false] at member
    rcases member with rfl | rfl | rfl | rfl
    · exact ⟨⟨0x90600, []⟩, by decide, inside _ (by decide) (by decide), by decide⟩
    · exact ⟨⟨0x90610, []⟩, by decide, inside _ (by decide) (by decide), by decide⟩
    · exact ⟨⟨0x90620, []⟩, by decide, inside _ (by decide) (by decide), by decide⟩
    · exact ⟨⟨0x90630, []⟩, by decide, inside _ (by decide) (by decide), by decide⟩

theorem regions_disjoint (address : Nat) : moduleRegion address → ¬imageRegion address := by
  rintro ⟨_, upper⟩ ⟨lower, _⟩
  omega

end Sample

/-- Two hooks, one patched into the other, are taken out again. -/
theorem detach_restores_sample :
    (Sample.attached.CleanupRemote Sample.cleanup).1 = true ∧
      Memory.AgreeOn Sample.moduleRegion
        (Sample.attached.CleanupRemote Sample.cleanup).2.process.memory (fun _ => 0x90) := by
  have restored := @detach_restores _ _ _ _ Sample.attached Sample.cleanup Sample.decodesWithin
    Sample.regions_disjoint Sample.installs_twice Sample.isEquipped (fun _ _ _ => rfl)
    (fun _ => rfl) rfl
  exact ⟨restored.1, restored.2.1⟩

end DebugSession

end ApiScope
