import ApiScope.Hook.Manager

/-!
# What an installation does to the target

`HookFunction` may stop at any of its remote calls.  Up to the calls that
change nothing there are only a few ways in which it leaves the target, and
every later argument starts from one of them.
-/

namespace ApiScope

/-- A trampoline of a function lies at its allocation. -/
def Target.withTrampoline (target : Target) (originalFunction patchSize allocation : Nat) :
    Target :=
  (target.VirtualAllocEx allocation TRAMPOLINE_SIZE).WriteProcessMemory true allocation
    (trampolineCode (target.memory.read originalFunction patchSize)
      (originalFunction + patchSize))

/-- The slot of a hook names its trampoline. -/
def Target.withSlot (target : Target) (trampolineSlot trampolineAddress : Nat) : Target :=
  target.WriteProcessMemory true trampolineSlot (pointerBytes trampolineAddress)

/-- A function has been patched. -/
def Target.withPatch (target : Target) (originalFunction newAddress patchSize : Nat) : Target :=
  target.WriteProcessMemory true originalFunction (patchCode newAddress patchSize)

/-- The target after `HookFunction` has returned true. -/
def Target.withHook (target : Target)
    (originalFunction patchSize allocation trampolineSlot newAddress : Nat) : Target :=
  ((target.withTrampoline originalFunction patchSize allocation).withSlot trampolineSlot
    allocation).withPatch originalFunction newAddress patchSize

@[simp]
theorem Target.withTrampoline_images (target : Target)
    (originalFunction patchSize allocation : Nat) :
    (target.withTrampoline originalFunction patchSize allocation).images = target.images := by
  simp [Target.withTrampoline]

@[simp]
theorem Target.withSlot_images (target : Target) (trampolineSlot trampolineAddress : Nat) :
    (target.withSlot trampolineSlot trampolineAddress).images = target.images := by
  simp [Target.withSlot]

@[simp]
theorem Target.withHook_images (target : Target)
    (originalFunction patchSize allocation trampolineSlot newAddress : Nat) :
    (target.withHook originalFunction patchSize allocation trampolineSlot newAddress).images =
      target.images := by
  simp [Target.withHook, Target.withPatch]

theorem Target.withTrampoline_memory (target : Target)
    (originalFunction patchSize allocation : Nat) :
    (target.withTrampoline originalFunction patchSize allocation).memory =
      target.memory.write allocation
        (trampolineCode (target.memory.read originalFunction patchSize)
          (originalFunction + patchSize)) := by
  simp [Target.withTrampoline, Target.WriteProcessMemory]

theorem Target.withHook_memory (target : Target)
    (originalFunction patchSize allocation trampolineSlot newAddress : Nat) :
    (target.withHook originalFunction patchSize allocation trampolineSlot newAddress).memory =
      ((target.withTrampoline originalFunction patchSize allocation).memory.write trampolineSlot
        (pointerBytes allocation)).write originalFunction (patchCode newAddress patchSize) :=
  rfl

/-! ## The size of a patch -/

/-- The decoder never looks behind the code it is given. -/
def DecodesWithin (decode : Decoder) : Prop :=
  ∀ code instruction, decode code = some instruction → instruction.length ≤ code.length

theorem CalculatePatchSize.loop_le {decode : Decoder} (within : DecodesWithin decode)
    {buffer : List UInt8} {rounds totalSize : Nat} (inside : totalSize ≤ buffer.length) :
    CalculatePatchSize.loop decode buffer rounds totalSize ≤ buffer.length := by
  induction rounds generalizing totalSize with
  | zero => exact inside
  | succ rounds inductionHypothesis =>
      rw [CalculatePatchSize.loop]
      by_cases continues : totalSize < PATCH_SIZE ∧ totalSize < buffer.length
      · rw [if_pos continues]
        cases decoded : decode (buffer.drop totalSize) with
        | none => exact Nat.zero_le _
        | some instruction =>
            have fits := within _ _ decoded
            rw [List.length_drop] at fits
            dsimp only
            split_ifs
            · exact Nat.zero_le _
            · exact Nat.zero_le _
            · exact Nat.zero_le _
            · exact inductionHypothesis (by omega)
      · rw [if_neg continues]
        exact inside

theorem CalculatePatchSize_le {decode : Decoder} (within : DecodesWithin decode)
    (readWindow : Bool) (address : Nat) (target : Target) :
    CalculatePatchSize decode readWindow address target ≤ 32 := by
  unfold CalculatePatchSize
  cases readWindow with
  | false => exact Nat.zero_le _
  | true =>
      have bound : CalculatePatchSize.loop decode (target.memory.read address 32) PATCH_SIZE 0 ≤
          (target.memory.read address 32).length :=
        CalculatePatchSize.loop_le within (Nat.zero_le _)
      rw [Memory.length_read] at bound
      simp only [if_true]
      split_ifs
      · exact Nat.zero_le _
      · exact bound

/-- A size is only calculated from a window that was read. -/
theorem CalculatePatchSize_of_ne_zero {decode : Decoder} {readWindow : Bool} {address : Nat}
    {target : Target} (sized : CalculatePatchSize decode readWindow address target ≠ 0) :
    CalculatePatchSize decode readWindow address target =
      CalculatePatchSize decode true address target := by
  cases readWindow with
  | false => exact absurd rfl sized
  | true => rfl

theorem CalculatePatchSize_ge {decode : Decoder} {readWindow : Bool} {address : Nat}
    {target : Target} (sized : CalculatePatchSize decode readWindow address target ≠ 0) :
    PATCH_SIZE ≤ CalculatePatchSize decode readWindow address target := by
  unfold CalculatePatchSize at sized ⊢
  cases readWindow with
  | false => exact absurd rfl sized
  | true =>
      simp only [if_true] at sized ⊢
      split_ifs at sized ⊢ with short
      · exact absurd rfl sized
      · exact Nat.le_of_not_lt short

/-- The decoder looks at no more than the instruction it finds. -/
def DecodesAlone (decode : Decoder) : Prop :=
  ∀ code code' instruction, decode code = some instruction →
    code'.take instruction.length = code.take instruction.length →
      decode code' = some instruction

theorem CalculatePatchSize.le_loop {decode : Decoder} {buffer : List UInt8}
    {rounds totalSize : Nat} (sized : loop decode buffer rounds totalSize ≠ 0) :
    totalSize ≤ loop decode buffer rounds totalSize := by
  induction rounds generalizing totalSize with
  | zero => exact Nat.le_refl _
  | succ rounds inductionHypothesis =>
      rw [loop] at sized ⊢
      by_cases continues : totalSize < PATCH_SIZE ∧ totalSize < buffer.length
      · rw [if_pos continues] at sized ⊢
        cases decoded : decode (buffer.drop totalSize) with
        | none => simp [decoded] at sized
        | some instruction =>
            simp only [decoded] at sized ⊢
            split_ifs at sized ⊢
            · exact absurd rfl sized
            · exact absurd rfl sized
            · exact absurd rfl sized
            · exact (Nat.le_add_right _ _).trans (inductionHypothesis sized)
      · rw [if_neg continues]

/-- Where the loop adds up to a size it has looked at no byte behind it. -/
theorem CalculatePatchSize.loop_congr {decode : Decoder} (alone : DecodesAlone decode)
    {buffer buffer' : List UInt8} {rounds totalSize : Nat}
    (lengths : buffer'.length = buffer.length)
    (sized : loop decode buffer rounds totalSize ≠ 0)
    (same : buffer'.take (loop decode buffer rounds totalSize) =
      buffer.take (loop decode buffer rounds totalSize)) :
    loop decode buffer' rounds totalSize = loop decode buffer rounds totalSize := by
  induction rounds generalizing totalSize with
  | zero => rfl
  | succ rounds inductionHypothesis =>
      rw [loop] at sized same ⊢
      rw [loop, lengths]
      by_cases continues : totalSize < PATCH_SIZE ∧ totalSize < buffer.length
      · rw [if_pos continues] at sized same
        rw [if_pos continues, if_pos continues]
        cases decoded : decode (buffer.drop totalSize) with
        | none => simp [decoded] at sized
        | some instruction =>
            simp only [decoded] at sized same ⊢
            split_ifs at sized same with empty ripRelative relative
            · exact absurd rfl sized
            · exact absurd rfl sized
            · exact absurd rfl sized
            have inside := le_loop sized
            have bytes : (buffer'.drop totalSize).take instruction.length =
                (buffer.drop totalSize).take instruction.length := by
              rw [List.take_drop, List.take_drop]
              have shorter := congrArg (List.take (totalSize + instruction.length)) same
              rw [List.take_take, List.take_take, Nat.min_eq_left inside] at shorter
              rw [shorter]
            rw [alone _ _ _ decoded bytes]
            dsimp only
            rw [if_neg empty, if_neg ripRelative, if_neg relative, if_neg empty, if_neg ripRelative,
              if_neg relative]
            exact inductionHypothesis sized same
      · rw [if_neg continues, if_neg continues]

/-- So many bytes decide how long a patch is: those it replaces, or the whole
window if there is none. -/
def PatchReach (decode : Decoder) (address : Nat) (target : Target) : Nat :=
  if CalculatePatchSize decode true address target = 0 then 32
  else CalculatePatchSize decode true address target

theorem PatchReach_of_ne_zero {decode : Decoder} {address : Nat} {target : Target}
    (sized : CalculatePatchSize decode true address target ≠ 0) :
    PatchReach decode address target = CalculatePatchSize decode true address target :=
  if_neg sized

theorem PatchReach_pos (decode : Decoder) (address : Nat) (target : Target) :
    0 < PatchReach decode address target := by
  unfold PatchReach
  split_ifs with unsized
  · decide
  · exact Nat.pos_of_ne_zero unsized

theorem CalculatePatchSize_congr {decode : Decoder} (alone : DecodesAlone decode) {address : Nat}
    {target target' : Target}
    (same : target'.memory.read address (PatchReach decode address target) =
      target.memory.read address (PatchReach decode address target)) :
    CalculatePatchSize decode true address target' =
      CalculatePatchSize decode true address target := by
  by_cases unsized : CalculatePatchSize decode true address target = 0
  · rw [PatchReach, if_pos unsized] at same
    rw [CalculatePatchSize, CalculatePatchSize, same]
  · rw [PatchReach, if_neg unsized] at same
    unfold CalculatePatchSize at unsized same ⊢
    simp only [if_true] at unsized same ⊢
    have longLoop : ¬CalculatePatchSize.loop decode (target.memory.read address 32) PATCH_SIZE 0 <
        PATCH_SIZE := by
      intro short
      exact unsized (if_pos short)
    rw [if_neg longLoop] at unsized same ⊢
    generalize isSize : CalculatePatchSize.loop decode (target.memory.read address 32) PATCH_SIZE 0 =
      size at unsized same longLoop ⊢
    have windows : (target'.memory.read address 32).take size =
        (target.memory.read address 32).take size := by
      rcases Nat.le_total size 32 with short | long
      · rw [Memory.take_read _ _ short, Memory.take_read _ _ short, same]
      · rw [Memory.read_mono long same]
    have sameSize := CalculatePatchSize.loop_congr alone (by simp) (isSize ▸ unsized)
      (isSize.symm ▸ windows)
    rw [sameSize, isSize, if_neg longLoop]

/-! ## Trampolines -/

namespace CreateBypassTrampoline

/-- Every call that decides whether the trampoline is made goes well. -/
structure Succeeds (decode : Decoder) (calls : Calls) (originalFunction : Nat)
    (target : Target) : Prop where
  sized : CalculatePatchSize decode (calls.ok .readWindow) originalFunction target ≠ 0
  allocated : calls.allocation ≠ 0
  readOriginal : calls.ok .readOriginal = true
  writeCode : calls.ok .writeCode = true
  protect : calls.ok .protect = true
  flush : calls.ok .flush = true

/-- Nothing happens, or the trampoline is given back before or after its code
has been written, or it is made. -/
inductive Effect (decode : Decoder) (calls : Calls) (originalFunction : Nat) (target : Target) :
    Option RemoteTrampoline → Target → Prop where
  | refused :
      ¬Succeeds decode calls originalFunction target →
      Effect decode calls originalFunction target none target
  | abandoned :
      ¬Succeeds decode calls originalFunction target →
      calls.allocation ≠ 0 →
      Effect decode calls originalFunction target none
        ((target.VirtualAllocEx calls.allocation TRAMPOLINE_SIZE).VirtualFreeEx (calls.ok .free)
          calls.allocation)
  | discarded {patchSize : Nat} :
      ¬Succeeds decode calls originalFunction target →
      calls.allocation ≠ 0 →
      PATCH_SIZE ≤ patchSize →
      Effect decode calls originalFunction target none
        ((target.withTrampoline originalFunction patchSize calls.allocation).VirtualFreeEx
          (calls.ok .free) calls.allocation)
  | created {patchSize : Nat} :
      Succeeds decode calls originalFunction target →
      PATCH_SIZE ≤ patchSize →
      patchSize = CalculatePatchSize decode true originalFunction target →
      Effect decode calls originalFunction target (some ⟨calls.allocation, patchSize⟩)
        (target.withTrampoline originalFunction patchSize calls.allocation)

end CreateBypassTrampoline

theorem CreateBypassTrampoline_effect (decode : Decoder) (calls : CreateBypassTrampoline.Calls)
    (originalFunction : Nat) (target : Target) :
    CreateBypassTrampoline.Effect decode calls originalFunction target
      (CreateBypassTrampoline decode calls originalFunction target).1
      (CreateBypassTrampoline decode calls originalFunction target).2 := by
  unfold CreateBypassTrampoline
  dsimp only
  split_ifs with unsized null
  · exact .refused fun succeeds => succeeds.sized unsized
  · exact .refused fun succeeds => succeeds.allocated null
  · unfold CreateTrampoline
    split_ifs with unread unwritten
    · exact .abandoned (fun succeeds => by simp [succeeds.readOriginal] at unread) null
    · exact .abandoned (fun succeeds => by simp [succeeds.writeCode] at unwritten) null
    · simp only [Target.VirtualAllocEx_memory]
      cases finished : calls.ok .protect && calls.ok .flush with
      | false =>
          refine .discarded (fun succeeds => ?_) null (CalculatePatchSize_ge unsized)
          simp [succeeds.protect, succeeds.flush] at finished
      | true =>
          rw [Bool.and_eq_true] at finished
          exact .created
            { sized := unsized
              allocated := null
              readOriginal := by simpa using unread
              writeCode := by simpa using unwritten
              protect := finished.1
              flush := finished.2 }
            (CalculatePatchSize_ge unsized) (CalculatePatchSize_of_ne_zero unsized)

/-- A trampoline that is not made is given back, if it was allocated at all. -/
theorem CreateBypassTrampoline_none {decode : Decoder} {calls : CreateBypassTrampoline.Calls}
    {originalFunction : Nat} {target : Target}
    (failed : (CreateBypassTrampoline decode calls originalFunction target).1 = none) :
    (CreateBypassTrampoline decode calls originalFunction target).2 = target ∨
      calls.allocation ≠ 0 ∧
        ((CreateBypassTrampoline decode calls originalFunction target).2 =
            (target.VirtualAllocEx calls.allocation TRAMPOLINE_SIZE).VirtualFreeEx (calls.ok .free)
              calls.allocation ∨
          PATCH_SIZE ≤ CalculatePatchSize decode true originalFunction target ∧
            (CreateBypassTrampoline decode calls originalFunction target).2 =
              (target.withTrampoline originalFunction
                (CalculatePatchSize decode true originalFunction target)
                  calls.allocation).VirtualFreeEx (calls.ok .free) calls.allocation) := by
  unfold CreateBypassTrampoline at failed ⊢
  dsimp only at failed ⊢
  split_ifs at failed ⊢ with unsized null
  · exact Or.inl rfl
  · exact Or.inl rfl
  · rw [CalculatePatchSize_of_ne_zero unsized] at failed ⊢
    refine Or.inr ⟨null, ?_⟩
    have long := CalculatePatchSize_ge unsized
    rw [CalculatePatchSize_of_ne_zero unsized] at long
    unfold CreateTrampoline at failed ⊢
    dsimp only at failed ⊢
    split_ifs at failed ⊢
    · exact Or.inl rfl
    · exact Or.inl rfl
    · rw [Target.VirtualAllocEx_memory] at failed ⊢
      cases finished : calls.ok .protect && calls.ok .flush with
      | false => exact Or.inr ⟨long, rfl⟩
      | true => simp [finished] at failed

theorem CreateBypassTrampoline.Effect.images {decode : Decoder}
    {calls : CreateBypassTrampoline.Calls} {originalFunction : Nat} {target after : Target}
    {trampoline : Option RemoteTrampoline}
    (effect : CreateBypassTrampoline.Effect decode calls originalFunction target trampoline
      after) : after.images = target.images := by
  cases effect <;> simp

/-! ## Hooks -/

namespace HookFunction

/-- Every call up to the one that overwrites the function goes well. -/
structure Overwrites (decode : Decoder) (calls : Calls) (originalFunction hookImageBase : Nat)
    (definition : HookDefinition) (target : Target) : Prop where
  resolved : originalFunction ≠ 0
  handler : ∃ handlerExport, handlerExport.address ≠ 0 ∧
    target.GetRemoteExport hookImageBase definition.handlerExport = some handlerExport
  slot : ∃ trampolineExport, trampolineExport.address ≠ 0 ∧
    target.GetRemoteExport hookImageBase definition.trampolineExport = some trampolineExport
  trampoline : CreateBypassTrampoline.Succeeds decode ⟨calls.ok ∘ .trampoline, calls.allocation⟩
    originalFunction target
  preserve : calls.ok .preserve = true
  writeSlot : calls.ok .writeSlot = true
  protect : calls.ok (.patch .protect) = true
  write : calls.ok (.patch .write) = true

/-- The trampoline may be given back with or without its slot having been
written, and even behind a patch that stays; only the last case is a hook. -/
inductive Effect (decode : Decoder) (calls : Calls) (originalFunction hookImageBase : Nat)
    (definition : HookDefinition) (target : Target) :
    Option InstalledHook → Target → Prop where
  | refused :
      ¬Overwrites decode calls originalFunction hookImageBase definition target →
      Effect decode calls originalFunction hookImageBase definition target none target
  | abandoned {release : HookFunction.Call} :
      ¬Overwrites decode calls originalFunction hookImageBase definition target →
      calls.allocation ≠ 0 →
      release = .free ∨ release = .trampoline .free →
      Effect decode calls originalFunction hookImageBase definition target none
        ((target.VirtualAllocEx calls.allocation TRAMPOLINE_SIZE).VirtualFreeEx (calls.ok release)
          calls.allocation)
  | discarded {patchSize : Nat} {release : HookFunction.Call} :
      ¬Overwrites decode calls originalFunction hookImageBase definition target →
      calls.allocation ≠ 0 →
      PATCH_SIZE ≤ patchSize →
      release = .free ∨ release = .trampoline .free →
      Effect decode calls originalFunction hookImageBase definition target none
        ((target.withTrampoline originalFunction patchSize calls.allocation).VirtualFreeEx
          (calls.ok release) calls.allocation)
  | withdrawn {patchSize trampolineSlot : Nat} :
      ¬Overwrites decode calls originalFunction hookImageBase definition target →
      calls.allocation ≠ 0 →
      PATCH_SIZE ≤ patchSize →
      Effect decode calls originalFunction hookImageBase definition target none
        ((((target.withTrampoline originalFunction patchSize calls.allocation).withSlot
          trampolineSlot calls.allocation).WriteProcessMemory (calls.ok .clearSlot)
            trampolineSlot (pointerBytes 0)).VirtualFreeEx (calls.ok .free) calls.allocation)
  | leftPatched {patchSize trampolineSlot newAddress : Nat} :
      Overwrites decode calls originalFunction hookImageBase definition target →
      PATCH_SIZE ≤ patchSize →
      patchSize = CalculatePatchSize decode true originalFunction target →
      (calls.ok (.patch .reprotect) && calls.ok (.patch .flush)) = false →
      Effect decode calls originalFunction hookImageBase definition target none
        (((target.withHook originalFunction patchSize calls.allocation trampolineSlot
          newAddress).WriteProcessMemory (calls.ok .clearSlot) trampolineSlot
            (pointerBytes 0)).VirtualFreeEx (calls.ok .free) calls.allocation)
  | installed {patchSize : Nat} {handlerExport trampolineExport : RemoteExport} :
      Overwrites decode calls originalFunction hookImageBase definition target →
      target.GetRemoteExport hookImageBase definition.handlerExport = some handlerExport →
      target.GetRemoteExport hookImageBase definition.trampolineExport = some trampolineExport →
      trampolineExport.address ≠ 0 →
      PATCH_SIZE ≤ patchSize →
      patchSize = CalculatePatchSize decode true originalFunction target →
      (calls.ok (.patch .reprotect) && calls.ok (.patch .flush)) = true →
      Effect decode calls originalFunction hookImageBase definition target
        (some
          { canonicalName := definition.canonicalName
            sourceModuleBase := 0
            targetModuleBase := 0
            originalFunction := originalFunction
            trampolineAddress := calls.allocation
            trampolineSlot := trampolineExport.address
            originalBytes := (target.withTrampoline originalFunction patchSize
              calls.allocation).memory.read originalFunction patchSize })
        (target.withHook originalFunction patchSize calls.allocation trampolineExport.address
          handlerExport.address)

/-- Every call up to the one that writes the slot goes well. -/
structure Publishes (decode : Decoder) (calls : Calls) (originalFunction hookImageBase : Nat)
    (definition : HookDefinition) (target : Target) : Prop where
  resolved : originalFunction ≠ 0
  handler : ∃ handlerExport, handlerExport.address ≠ 0 ∧
    target.GetRemoteExport hookImageBase definition.handlerExport = some handlerExport
  slot : ∃ trampolineExport, trampolineExport.address ≠ 0 ∧
    target.GetRemoteExport hookImageBase definition.trampolineExport = some trampolineExport
  trampoline : CreateBypassTrampoline.Succeeds decode ⟨calls.ok ∘ .trampoline, calls.allocation⟩
    originalFunction target
  preserve : calls.ok .preserve = true
  writeSlot : calls.ok .writeSlot = true

theorem Overwrites.publishes {decode : Decoder} {calls : Calls}
    {originalFunction hookImageBase : Nat} {definition : HookDefinition} {target : Target}
    (overwrites : Overwrites decode calls originalFunction hookImageBase definition target) :
    Publishes decode calls originalFunction hookImageBase definition target :=
  ⟨overwrites.resolved, overwrites.handler, overwrites.slot, overwrites.trampoline,
    overwrites.preserve, overwrites.writeSlot⟩

theorem Publishes.overwrites {decode : Decoder} {calls : Calls}
    {originalFunction hookImageBase : Nat} {definition : HookDefinition} {target : Target}
    (publishes : Publishes decode calls originalFunction hookImageBase definition target)
    (protect : calls.ok (.patch .protect) = true) (write : calls.ok (.patch .write) = true) :
    Overwrites decode calls originalFunction hookImageBase definition target :=
  ⟨publishes.resolved, publishes.handler, publishes.slot, publishes.trampoline,
    publishes.preserve, publishes.writeSlot, protect, write⟩

/-- The ways through `HookFunction`, by whether the slot is written and what
`PatchFunction` does then. -/
inductive Course (decode : Decoder) (calls : Calls) (originalFunction hookImageBase : Nat)
    (definition : HookDefinition) (target : Target) :
    Option InstalledHook → Target → Prop where
  | refused :
      ¬Publishes decode calls originalFunction hookImageBase definition target →
      Course decode calls originalFunction hookImageBase definition target none target
  | abandoned {release : HookFunction.Call} :
      ¬Publishes decode calls originalFunction hookImageBase definition target →
      calls.allocation ≠ 0 →
      release = .free ∨ release = .trampoline .free →
      Course decode calls originalFunction hookImageBase definition target none
        ((target.VirtualAllocEx calls.allocation TRAMPOLINE_SIZE).VirtualFreeEx (calls.ok release)
          calls.allocation)
  | discarded {patchSize : Nat} {release : HookFunction.Call} :
      ¬Publishes decode calls originalFunction hookImageBase definition target →
      calls.allocation ≠ 0 →
      PATCH_SIZE ≤ patchSize →
      patchSize = CalculatePatchSize decode true originalFunction target →
      release = .free ∨ release = .trampoline .free →
      Course decode calls originalFunction hookImageBase definition target none
        ((target.withTrampoline originalFunction patchSize calls.allocation).VirtualFreeEx
          (calls.ok release) calls.allocation)
  | withdrawn {patchSize : Nat} {trampolineExport : RemoteExport} :
      Publishes decode calls originalFunction hookImageBase definition target →
      target.GetRemoteExport hookImageBase definition.trampolineExport = some trampolineExport →
      PATCH_SIZE ≤ patchSize →
      patchSize = CalculatePatchSize decode true originalFunction target →
      (calls.ok (.patch .protect) && calls.ok (.patch .write)) = false →
      Course decode calls originalFunction hookImageBase definition target none
        ((((target.withTrampoline originalFunction patchSize calls.allocation).withSlot
          trampolineExport.address calls.allocation).WriteProcessMemory (calls.ok .clearSlot)
            trampolineExport.address (pointerBytes 0)).VirtualFreeEx (calls.ok .free)
              calls.allocation)
  | patched {patchSize : Nat} {handlerExport trampolineExport : RemoteExport} :
      Publishes decode calls originalFunction hookImageBase definition target →
      target.GetRemoteExport hookImageBase definition.handlerExport = some handlerExport →
      target.GetRemoteExport hookImageBase definition.trampolineExport = some trampolineExport →
      PATCH_SIZE ≤ patchSize →
      patchSize = CalculatePatchSize decode true originalFunction target →
      calls.ok (.patch .protect) = true →
      calls.ok (.patch .write) = true →
      (calls.ok (.patch .reprotect) && calls.ok (.patch .flush)) = false →
      Course decode calls originalFunction hookImageBase definition target none
        (((target.withHook originalFunction patchSize calls.allocation trampolineExport.address
          handlerExport.address).WriteProcessMemory (calls.ok .clearSlot)
            trampolineExport.address (pointerBytes 0)).VirtualFreeEx (calls.ok .free)
              calls.allocation)
  | installed {patchSize : Nat} {handlerExport trampolineExport : RemoteExport} :
      Publishes decode calls originalFunction hookImageBase definition target →
      target.GetRemoteExport hookImageBase definition.handlerExport = some handlerExport →
      target.GetRemoteExport hookImageBase definition.trampolineExport = some trampolineExport →
      trampolineExport.address ≠ 0 →
      PATCH_SIZE ≤ patchSize →
      patchSize = CalculatePatchSize decode true originalFunction target →
      calls.ok (.patch .protect) = true →
      calls.ok (.patch .write) = true →
      (calls.ok (.patch .reprotect) && calls.ok (.patch .flush)) = true →
      Course decode calls originalFunction hookImageBase definition target
        (some
          { canonicalName := definition.canonicalName
            sourceModuleBase := 0
            targetModuleBase := 0
            originalFunction := originalFunction
            trampolineAddress := calls.allocation
            trampolineSlot := trampolineExport.address
            originalBytes := (target.withTrampoline originalFunction patchSize
              calls.allocation).memory.read originalFunction patchSize })
        (target.withHook originalFunction patchSize calls.allocation trampolineExport.address
          handlerExport.address)

end HookFunction

/-- No image comes or goes with a hook. -/
theorem HookFunction.Effect.images {decode : Decoder} {calls : HookFunction.Calls}
    {originalFunction hookImageBase : Nat} {definition : HookDefinition}
    {target after : Target} {hook : Option InstalledHook}
    (effect : HookFunction.Effect decode calls originalFunction hookImageBase definition target
      hook after) : after.images = target.images := by
  cases effect <;> simp

/-- What has been done to the target stays on record. -/
theorem HookFunction.Effect.log {decode : Decoder} {calls : HookFunction.Calls}
    {originalFunction hookImageBase : Nat} {definition : HookDefinition}
    {target after : Target} {hook : Option InstalledHook}
    (effect : HookFunction.Effect decode calls originalFunction hookImageBase definition target
      hook after) : ∃ added, after.log = target.log ++ added := by
  have kept (target : Target) (succeeds : Bool) (base : Nat) :
      target.log <+: (target.VirtualFreeEx succeeds base).log := by
    cases succeeds <;> simp [Target.VirtualFreeEx]
  have written (target : Target) (succeeds : Bool) (address : Nat) (bytes : List UInt8) :
      target.log <+: (target.WriteProcessMemory succeeds address bytes).log := by
    cases succeeds <;> simp [Target.WriteProcessMemory]
  have allocated (base size : Nat) : target.log <+: (target.VirtualAllocEx base size).log := by
    unfold Target.VirtualAllocEx
    split_ifs <;> simp
  have made (originalFunction patchSize allocation : Nat) : target.log <+:
      (target.withTrampoline originalFunction patchSize allocation).log :=
    (allocated _ _).trans (written _ _ _ _)
  suffices target.log <+: after.log by
    obtain ⟨added, isAdded⟩ := this
    exact ⟨added, isAdded.symm⟩
  cases effect with
  | refused => exact List.prefix_rfl
  | abandoned => exact (allocated _ _).trans (kept _ _ _)
  | discarded => exact (made _ _ _).trans (kept _ _ _)
  | withdrawn =>
      exact (made _ _ _).trans ((written _ _ _ _).trans ((written _ _ _ _).trans (kept _ _ _)))
  | leftPatched =>
      exact (made _ _ _).trans ((written _ _ _ _).trans ((written _ _ _ _).trans
        ((written _ _ _ _).trans (kept _ _ _))))
  | installed => exact (made _ _ _).trans ((written _ _ _ _).trans (written _ _ _ _))

/-- `PatchFunction` either stops before its write or writes the patch. -/
theorem PatchFunction_of_closed {ok : PatchFunction.Call → Bool} (newAddress patchSize : Nat)
    (closed : (ok .protect && ok .write) = false) (originalFunction : Nat) (target : Target) :
    PatchFunction ok originalFunction newAddress patchSize target = (false, target) := by
  unfold PatchFunction
  split_ifs with unprotected unwritten
  · rfl
  · rfl
  · simp_all

theorem PatchFunction_of_open {ok : PatchFunction.Call → Bool} (newAddress patchSize : Nat)
    (protect : ok .protect = true) (write : ok .write = true) (originalFunction : Nat)
    (target : Target) :
    PatchFunction ok originalFunction newAddress patchSize target =
      (ok .reprotect && ok .flush,
        target.withPatch originalFunction newAddress patchSize) := by
  simp [PatchFunction, protect, write, Target.withPatch]

theorem HookFunction_course (decode : Decoder) (calls : HookFunction.Calls)
    (originalFunction hookImageBase : Nat) (definition : HookDefinition) (target : Target) :
    HookFunction.Course decode calls originalFunction hookImageBase definition target
      (HookFunction decode calls originalFunction hookImageBase definition target).1
      (HookFunction decode calls originalFunction hookImageBase definition target).2 := by
  unfold HookFunction
  by_cases unresolved : originalFunction = 0
  · rw [if_pos unresolved]
    exact .refused fun publishes => publishes.resolved unresolved
  rw [if_neg unresolved]
  cases handler : target.GetRemoteExport hookImageBase definition.handlerExport with
  | none =>
      refine .refused fun publishes => ?_
      obtain ⟨_, _, found⟩ := publishes.handler
      simp [handler] at found
  | some handlerExport =>
  cases slot : target.GetRemoteExport hookImageBase definition.trampolineExport with
  | none =>
      refine .refused fun publishes => ?_
      obtain ⟨_, _, found⟩ := publishes.slot
      simp [slot] at found
  | some trampolineExport =>
  dsimp only
  by_cases null : handlerExport.address = 0 ∨ trampolineExport.address = 0
  · rw [if_pos null]
    refine .refused fun publishes => ?_
    obtain ⟨_, handlerAddress, foundHandler⟩ := publishes.handler
    obtain ⟨_, slotAddress, foundSlot⟩ := publishes.slot
    simp_all
  rw [if_neg null]
  have trampolineEffect := CreateBypassTrampoline_effect decode
    ⟨calls.ok ∘ .trampoline, calls.allocation⟩ originalFunction target
  have discarded := @CreateBypassTrampoline_none decode
    ⟨calls.ok ∘ .trampoline, calls.allocation⟩ originalFunction target
  generalize CreateBypassTrampoline decode ⟨calls.ok ∘ .trampoline, calls.allocation⟩
    originalFunction target = made at trampolineEffect discarded
  obtain ⟨trampoline, after⟩ := made
  cases trampoline with
  | none =>
      have failed : ¬CreateBypassTrampoline.Succeeds decode
          ⟨calls.ok ∘ .trampoline, calls.allocation⟩ originalFunction target := by
        cases trampolineEffect <;> assumption
      rcases discarded rfl with rfl | ⟨allocated, rfl | ⟨long, rfl⟩⟩
      · exact .refused fun publishes => failed publishes.trampoline
      · exact .abandoned (fun publishes => failed publishes.trampoline) allocated (Or.inr rfl)
      · exact .discarded (fun publishes => failed publishes.trampoline) allocated long rfl
          (Or.inr rfl)
  | some trampoline =>
  cases trampolineEffect with
  | created succeeds long size =>
      dsimp only
      split_ifs with unpreserved slotUnwritten
      · exact .discarded (fun publishes => by simp [publishes.preserve] at unpreserved)
          succeeds.allocated long size (Or.inl rfl)
      · exact .discarded (fun publishes => by simp [publishes.writeSlot] at slotUnwritten)
          succeeds.allocated long size (Or.inl rfl)
      have publishes : HookFunction.Publishes decode calls originalFunction hookImageBase
          definition target :=
        { resolved := unresolved
          handler := ⟨handlerExport, fun zero => null (Or.inl zero), handler⟩
          slot := ⟨trampolineExport, fun zero => null (Or.inr zero), slot⟩
          trampoline := succeeds
          preserve := by simpa using unpreserved
          writeSlot := by simpa using slotUnwritten }
      cases opened : calls.ok (.patch .protect) && calls.ok (.patch .write) with
      | false =>
          rw [PatchFunction_of_closed _ _ opened]
          exact .withdrawn publishes slot long size opened
      | true =>
          rw [Bool.and_eq_true] at opened
          rw [PatchFunction_of_open _ _ opened.1 opened.2]
          cases finished : (calls.ok ∘ HookFunction.Call.patch) .reprotect &&
              (calls.ok ∘ HookFunction.Call.patch) .flush with
          | false => exact .patched publishes handler slot long size opened.1 opened.2 finished
          | true =>
              exact .installed publishes handler slot (fun zero => null (Or.inr zero)) long size
                opened.1 opened.2 finished

theorem HookFunction_effect (decode : Decoder) (calls : HookFunction.Calls)
    (originalFunction hookImageBase : Nat) (definition : HookDefinition) (target : Target) :
    HookFunction.Effect decode calls originalFunction hookImageBase definition target
      (HookFunction decode calls originalFunction hookImageBase definition target).1
      (HookFunction decode calls originalFunction hookImageBase definition target).2 := by
  have course := HookFunction_course decode calls originalFunction hookImageBase definition target
  generalize (HookFunction decode calls originalFunction hookImageBase definition target).1 =
    hook at course ⊢
  generalize (HookFunction decode calls originalFunction hookImageBase definition target).2 =
    after at course ⊢
  cases course with
  | refused unpublished => exact .refused fun overwrites => unpublished overwrites.publishes
  | abandoned unpublished allocated release =>
      exact .abandoned (fun overwrites => unpublished overwrites.publishes) allocated release
  | discarded unpublished allocated long _ release =>
      exact .discarded (fun overwrites => unpublished overwrites.publishes) allocated long release
  | withdrawn publishes _ long _ closed =>
      refine .withdrawn (fun overwrites => ?_) publishes.trampoline.allocated long
      simp [overwrites.protect, overwrites.write] at closed
  | patched publishes _ _ long size protect write unfinished =>
      exact .leftPatched (publishes.overwrites protect write) long size unfinished
  | installed publishes handler slot slotAddress long size protect write finished =>
      exact .installed (publishes.overwrites protect write) handler slot slotAddress long size
        finished

/-- What is known of a hook that `HookFunction` has installed. -/
structure HookFunction.Installed (decode : Decoder) (calls : HookFunction.Calls)
    (originalFunction hookImageBase : Nat) (definition : HookDefinition) (target : Target)
    (hook : InstalledHook) (newAddress : Nat) (after : Target) : Prop where
  overwrites : Overwrites decode calls originalFunction hookImageBase definition target
  handler : ∃ handlerExport, handlerExport.address = newAddress ∧
    target.GetRemoteExport hookImageBase definition.handlerExport = some handlerExport
  long : PATCH_SIZE ≤ hook.originalBytes.length
  size : hook.originalBytes.length = CalculatePatchSize decode true originalFunction target
  name : hook.canonicalName = definition.canonicalName
  function : hook.originalFunction = originalFunction
  trampoline : hook.trampolineAddress = calls.allocation
  slot : hook.trampolineSlot ≠ 0
  slotExport : ∃ trampolineExport, trampolineExport.address = hook.trampolineSlot ∧
    target.GetRemoteExport hookImageBase definition.trampolineExport = some trampolineExport
  saved : hook.originalBytes = (target.withTrampoline originalFunction hook.originalBytes.length
    calls.allocation).memory.read originalFunction hook.originalBytes.length
  after : after = target.withHook originalFunction hook.originalBytes.length calls.allocation
    hook.trampolineSlot newAddress

theorem HookFunction.Effect.toInstalled {decode : Decoder} {calls : HookFunction.Calls}
    {originalFunction hookImageBase : Nat} {definition : HookDefinition}
    {target after : Target} {hook : InstalledHook}
    (effect : HookFunction.Effect decode calls originalFunction hookImageBase definition target
      (some hook) after) :
    ∃ newAddress, HookFunction.Installed decode calls originalFunction hookImageBase definition
      target hook newAddress after := by
  cases effect with
  | installed overwrites handler slot slotAddress long size finished =>
      exact ⟨_,
        { overwrites := overwrites
          handler := ⟨_, rfl, handler⟩
          long := by simpa using long
          size := by simpa using size
          name := rfl
          function := rfl
          trampoline := rfl
          slot := slotAddress
          slotExport := ⟨_, rfl, slot⟩
          saved := by rw [Memory.length_read]
          after := by rw [Memory.length_read] }⟩

theorem HookFunction_installed {decode : Decoder} {calls : HookFunction.Calls}
    {originalFunction hookImageBase : Nat} {definition : HookDefinition} {target : Target}
    {hook : InstalledHook}
    (succeeds : (HookFunction decode calls originalFunction hookImageBase definition target).1 =
      some hook) :
    ∃ newAddress, HookFunction.Installed decode calls originalFunction hookImageBase definition
      target hook newAddress
        (HookFunction decode calls originalFunction hookImageBase definition target).2 := by
  have effect := HookFunction_effect decode calls originalFunction hookImageBase definition target
  rw [succeeds] at effect
  exact effect.toInstalled

/-- What `UnhookFunction` checks first. -/
def InstalledHook.Valid (hook : InstalledHook) : Prop :=
  hook.originalFunction ≠ 0 ∧ hook.trampolineAddress ≠ 0 ∧ hook.trampolineSlot ≠ 0 ∧
    hook.originalBytes ≠ []

theorem HookFunction.Installed.valid {decode : Decoder} {calls : HookFunction.Calls}
    {originalFunction hookImageBase newAddress : Nat} {definition : HookDefinition}
    {target after : Target} {hook : InstalledHook}
    (installed : HookFunction.Installed decode calls originalFunction hookImageBase definition
      target hook newAddress after) : hook.Valid := by
  refine ⟨?_, ?_, installed.slot, ?_⟩
  · rw [installed.function]
    exact installed.overwrites.resolved
  · rw [installed.trampoline]
    exact installed.overwrites.trampoline.allocated
  · intro empty
    have long := installed.long
    rw [empty, PATCH_SIZE] at long
    simp at long

/-! ## Removing hooks -/

/-- The original bytes are written back. -/
def Target.withOriginal (target : Target) (hook : InstalledHook) : Target :=
  target.WriteProcessMemory true hook.originalFunction hook.originalBytes

/-- The original bytes are written back and the slot no longer names the trampoline. -/
def Target.withoutHook (target : Target) (hook : InstalledHook) : Target :=
  (target.withOriginal hook).WriteProcessMemory true hook.trampolineSlot (pointerBytes 0)

namespace UnhookFunction

/-- The patch stays, or it is undone up to one of three points. -/
inductive Effect (ok : Call → Bool) (hook : InstalledHook) (target : Target) :
    Bool → Target → Prop where
  | patchStays :
      (ok .protect && ok .restore) = false → Effect ok hook target false target
  | slotStays :
      ok .protect = true → ok .restore = true →
      (ok .reprotect && ok .flush && ok .clearSlot) = false →
      Effect ok hook target false (target.withOriginal hook)
  | removed :
      ok .protect = true → ok .restore = true →
      (ok .reprotect && ok .flush && ok .clearSlot) = true →
      Effect ok hook target (ok .free)
        ((target.withoutHook hook).VirtualFreeEx (ok .free) hook.trampolineAddress)

end UnhookFunction

theorem UnhookFunction_effect (ok : UnhookFunction.Call → Bool) {hook : InstalledHook}
    (valid : hook.Valid) (target : Target) :
    UnhookFunction.Effect ok hook target (UnhookFunction ok hook target).1
      (UnhookFunction ok hook target).2 := by
  obtain ⟨function, trampoline, slot, bytes⟩ := valid
  unfold UnhookFunction
  rw [if_neg (by simp [function, trampoline, slot, bytes])]
  dsimp only
  split_ifs with closed unfinished uncleared
  · have shut : ok .protect = false := by simpa using closed
    exact .patchStays (by simp [shut])
  · cases restore : ok .restore with
    | false => exact .patchStays (by simp [restore])
    | true =>
        refine .slotStays (by simpa using closed) restore ?_
        rcases Bool.eq_false_or_eq_true (ok .reprotect) with reprotect | reprotect <;>
          simp_all
  · have restore : ok .restore = true := by
      by_contra notRestored
      simp [notRestored] at unfinished
    rw [restore]
    have skipped : ok .clearSlot = false := by simpa using uncleared
    rw [skipped]
    exact .slotStays (by simpa using closed) restore (by simp [skipped])
  · have restore : ok .restore = true := by
      by_contra notRestored
      simp [notRestored] at unfinished
    have cleared : ok .clearSlot = true := by simpa using uncleared
    rw [restore, cleared]
    exact .removed (by simpa using closed) restore (by simp_all)

theorem images_UnhookFunction (ok : UnhookFunction.Call → Bool) (installedHook : InstalledHook)
    (target : Target) : (UnhookFunction ok installedHook target).2.images = target.images := by
  unfold UnhookFunction
  dsimp only
  split_ifs <;> simp

theorem images_ReleaseUnloadedHook (ok : ReleaseUnloadedHook.Call → Bool)
    (installedHook : InstalledHook) (target : Target) :
    (ReleaseUnloadedHook ok installedHook target).2.images = target.images := by
  simp [ReleaseUnloadedHook]

end ApiScope
