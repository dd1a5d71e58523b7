import ApiScope.Hook.Effects

/-!
# All or nothing

`HookFunction` undoes what it has done when a later call fails.  It does not
write the function back, and it frees the trampoline even if the slot could not
be cleared.
-/

namespace ApiScope

/-! ## Trampolines that come and go -/

section Trampoline

variable {target : Target} {originalFunction patchSize allocation : Nat}

/-- A trampoline is written inside its allocation. -/
theorem Target.read_withTrampoline (short : patchSize ≤ 32) {address count : Nat}
    (apart : Memory.Apart address count allocation TRAMPOLINE_SIZE) :
    (target.withTrampoline originalFunction patchSize allocation).memory.read address count =
      target.memory.read address count := by
  have fits : (trampolineCode (target.memory.read originalFunction patchSize)
      (originalFunction + patchSize)).length ≤ TRAMPOLINE_SIZE := by
    rw [trampolineCode, List.length_append, Memory.length_read, length_jumpCode, PATCH_SIZE,
      TRAMPOLINE_SIZE]
    omega
  rw [Target.withTrampoline_memory]
  exact Memory.read_write_apart _ (apart.symm.mono fits).symm

theorem Target.allocations_VirtualAllocEx (size : Nat) (allocated : allocation ≠ 0) :
    (target.VirtualAllocEx allocation size).allocations =
      Function.update target.allocations allocation size := by
  rw [VirtualAllocEx, if_pos allocated]

@[simp]
theorem Target.allocations_withTrampoline :
    (target.withTrampoline originalFunction patchSize allocation).allocations =
      (target.VirtualAllocEx allocation TRAMPOLINE_SIZE).allocations := by
  rw [withTrampoline, WriteProcessMemory_allocations]

/-- What was allocated only for the call is free again. -/
theorem Target.allocations_VirtualFreeEx {before : Target} (fresh : before.allocations allocation = 0)
    (allocated : allocation ≠ 0)
    (only : target.allocations = (before.VirtualAllocEx allocation TRAMPOLINE_SIZE).allocations) :
    (target.VirtualFreeEx true allocation).allocations = before.allocations := by
  have freed : (target.VirtualFreeEx true allocation).allocations =
      Function.update target.allocations allocation 0 := rfl
  rw [freed, only, allocations_VirtualAllocEx _ allocated, Function.update_idem, ← fresh,
    Function.update_eq_self]

/-- A pointer that has been written is read back. -/
theorem Target.read_withSlot (trampolineSlot trampolineAddress : Nat) :
    (target.withSlot trampolineSlot trampolineAddress).memory.read trampolineSlot 8 =
      pointerBytes trampolineAddress := by
  have written := target.memory.read_write trampolineSlot (pointerBytes trampolineAddress)
  rwa [length_pointerBytes] at written

end Trampoline

namespace HookFunction

section Rollback

variable (decode : Decoder) (calls : HookFunction.Calls) (originalFunction hookImageBase : Nat)
  (definition : HookDefinition) (target : Target)

/-- Nothing is left of a call that returned false. -/
structure RolledBack (after : Target) : Prop where
  code : after.memory.read originalFunction
      (CalculatePatchSize decode true originalFunction target) =
    target.memory.read originalFunction (CalculatePatchSize decode true originalFunction target)
  slot : calls.allocation ≠ 0 → ∀ trampolineExport,
    target.GetRemoteExport hookImageBase definition.trampolineExport = some trampolineExport →
    after.memory.read trampolineExport.address 8 ≠ pointerBytes calls.allocation
  allocations : after.allocations = target.allocations

/-- The hook is in place, and knows what was there before. -/
structure InPlace (hook : InstalledHook) (after : Target) : Prop where
  function : hook.originalFunction = originalFunction
  jump : ∃ handlerExport,
    target.GetRemoteExport hookImageBase definition.handlerExport = some handlerExport ∧
    after.memory.read originalFunction
        (CalculatePatchSize decode true originalFunction target) =
      patchCode handlerExport.address (CalculatePatchSize decode true originalFunction target)
  long : PATCH_SIZE ≤ CalculatePatchSize decode true originalFunction target
  slot : ∃ trampolineExport,
    target.GetRemoteExport hookImageBase definition.trampolineExport = some trampolineExport ∧
    hook.trampolineSlot = trampolineExport.address ∧
    after.memory.read trampolineExport.address 8 = pointerBytes hook.trampolineAddress
  live : after.allocations hook.trampolineAddress = TRAMPOLINE_SIZE
  saved : hook.originalBytes =
    target.memory.read originalFunction (CalculatePatchSize decode true originalFunction target)

def AllOrNothing : Prop :=
  match HookFunction decode calls originalFunction hookImageBase definition target with
  | (none, after) =>
      RolledBack decode calls originalFunction hookImageBase definition target after
  | (some hook, after) =>
      InPlace decode originalFunction hookImageBase definition target hook after

/-- `VirtualAllocEx` returns memory that nobody uses or points to, and the slot
lies in the hook image and not in the function. -/
structure Regions : Prop where
  fresh : target.allocations calls.allocation = 0
  address : calls.allocation < 2 ^ 64
  function : Memory.Apart originalFunction
    (CalculatePatchSize decode true originalFunction target) calls.allocation TRAMPOLINE_SIZE
  slot : ∀ trampolineExport,
    target.GetRemoteExport hookImageBase definition.trampolineExport = some trampolineExport →
    Memory.Apart originalFunction (CalculatePatchSize decode true originalFunction target)
        trampolineExport.address 8 ∧
      Memory.Apart trampolineExport.address 8 calls.allocation TRAMPOLINE_SIZE ∧
      target.memory.read trampolineExport.address 8 ≠ pointerBytes calls.allocation

/-- Once the slot is written `PatchFunction` succeeds, or the slot can be cleared
again and the function has not been overwritten by other bytes. -/
def Transactional : Prop :=
  Publishes decode calls originalFunction hookImageBase definition target →
    (∀ call, calls.ok (.patch call) = true) ∨
      calls.ok .clearSlot = true ∧
        (calls.ok (.patch .protect) = true → calls.ok (.patch .write) = true →
          ∀ handlerExport,
            target.GetRemoteExport hookImageBase definition.handlerExport = some handlerExport →
            patchCode handlerExport.address
                (CalculatePatchSize decode true originalFunction target) =
              target.memory.read originalFunction
                (CalculatePatchSize decode true originalFunction target))

variable {decode calls originalFunction hookImageBase definition target}

theorem pointerBytes_ne_zero {address : Nat} (small : address < 2 ^ 64) (nonzero : address ≠ 0) :
    pointerBytes 0 ≠ pointerBytes address := by
  intro same
  have value := congrArg Bytes.ofLittleEndian same
  rw [pointerBytes, pointerBytes, Bytes.ofLittleEndian_littleEndian,
    Bytes.ofLittleEndian_littleEndian] at value
  have small' : address < 256 ^ 8 := small
  rw [Nat.mod_eq_of_lt small'] at value
  exact nonzero value.symm

section Outcomes

variable (within : DecodesWithin decode)
  (regions : Regions decode calls originalFunction hookImageBase definition target)
  (allocated : calls.allocation ≠ 0)

include regions allocated

/-- A trampoline that is freed again leaves no trace where nothing else was written. -/
theorem RolledBack.of_freed {before : Target}
    (code : before.memory.read originalFunction
        (CalculatePatchSize decode true originalFunction target) =
      target.memory.read originalFunction
        (CalculatePatchSize decode true originalFunction target))
    (slot : ∀ trampolineExport,
      target.GetRemoteExport hookImageBase definition.trampolineExport = some trampolineExport →
      before.memory.read trampolineExport.address 8 ≠ pointerBytes calls.allocation)
    (only : before.allocations =
      (target.VirtualAllocEx calls.allocation TRAMPOLINE_SIZE).allocations) :
    RolledBack decode calls originalFunction hookImageBase definition target
      (before.VirtualFreeEx true calls.allocation) where
  code := by rw [Target.VirtualFreeEx_memory, code]
  slot := by
    intro _ trampolineExport found
    rw [Target.VirtualFreeEx_memory]
    exact slot trampolineExport found
  allocations := Target.allocations_VirtualFreeEx regions.fresh allocated only

theorem RolledBack.of_abandoned :
    RolledBack decode calls originalFunction hookImageBase definition target
      ((target.VirtualAllocEx calls.allocation TRAMPOLINE_SIZE).VirtualFreeEx true
        calls.allocation) := by
  refine .of_freed regions allocated ?_ ?_ rfl
  · rw [Target.VirtualAllocEx_memory]
  · intro trampolineExport found
    rw [Target.VirtualAllocEx_memory]
    exact (regions.slot trampolineExport found).2.2

include within

theorem RolledBack.of_discarded :
    RolledBack decode calls originalFunction hookImageBase definition target
      ((target.withTrampoline originalFunction
        (CalculatePatchSize decode true originalFunction target) calls.allocation).VirtualFreeEx
          true calls.allocation) := by
  have short := CalculatePatchSize_le within true originalFunction target
  refine .of_freed regions allocated ?_ ?_ Target.allocations_withTrampoline
  · rw [Target.read_withTrampoline short regions.function]
  · intro trampolineExport found
    obtain ⟨_, behind, other⟩ := regions.slot trampolineExport found
    rwa [Target.read_withTrampoline short behind]

variable {trampolineExport : RemoteExport}
  (found : target.GetRemoteExport hookImageBase definition.trampolineExport =
    some trampolineExport)

include found

/-- A hook that `HookFunction` returns is in place. -/
theorem InPlace.of_installed {handlerExport : RemoteExport}
    (handler : target.GetRemoteExport hookImageBase definition.handlerExport =
      some handlerExport)
    (long : PATCH_SIZE ≤ CalculatePatchSize decode true originalFunction target) :
    InPlace decode originalFunction hookImageBase definition target
      { canonicalName := definition.canonicalName
        sourceModuleBase := 0
        targetModuleBase := 0
        originalFunction := originalFunction
        trampolineAddress := calls.allocation
        trampolineSlot := trampolineExport.address
        originalBytes := (target.withTrampoline originalFunction
          (CalculatePatchSize decode true originalFunction target)
            calls.allocation).memory.read originalFunction
              (CalculatePatchSize decode true originalFunction target) }
      (target.withHook originalFunction
        (CalculatePatchSize decode true originalFunction target) calls.allocation
          trampolineExport.address handlerExport.address) := by
  have short := CalculatePatchSize_le within true originalFunction target
  obtain ⟨apart, _, _⟩ := regions.slot trampolineExport found
  refine ⟨rfl, ⟨handlerExport, handler, ?_⟩, long, ⟨trampolineExport, found, rfl, ?_⟩, ?_, ?_⟩
  · have patch := (((target.withTrampoline originalFunction
      (CalculatePatchSize decode true originalFunction target) calls.allocation).withSlot
        trampolineExport.address calls.allocation).memory).read_write originalFunction
          (patchCode handlerExport.address
            (CalculatePatchSize decode true originalFunction target))
    rwa [length_patchCode] at patch
  · rw [Target.withHook, Target.withPatch,
      Target.read_WriteProcessMemory_apart _ _ _ _
        (by rw [length_patchCode]; exact apart.symm)]
    exact Target.read_withSlot _ _
  · simp [Target.withHook, Target.withPatch, Target.withSlot,
      Target.allocations_VirtualAllocEx _ allocated]
  · exact Target.read_withTrampoline short regions.function

/-- A slot that has been written and whose function is whole is rolled back
exactly if it is cleared. -/
theorem RolledBack.withdrawn_iff (cleared : Bool) :
    RolledBack decode calls originalFunction hookImageBase definition target
        ((((target.withTrampoline originalFunction
          (CalculatePatchSize decode true originalFunction target) calls.allocation).withSlot
            trampolineExport.address calls.allocation).WriteProcessMemory cleared
              trampolineExport.address (pointerBytes 0)).VirtualFreeEx true calls.allocation) ↔
      cleared = true := by
  have short := CalculatePatchSize_le within true originalFunction target
  obtain ⟨apart, _, _⟩ := regions.slot trampolineExport found
  constructor
  · intro rolledBack
    cases cleared with
    | true => rfl
    | false =>
        have dangling := rolledBack.slot allocated trampolineExport found
        rw [Target.VirtualFreeEx_memory] at dangling
        exact absurd (Target.read_withSlot _ _) dangling
  · rintro rfl
    refine .of_freed regions allocated ?_ ?_ ?_
    · rw [Target.read_WriteProcessMemory_apart _ _ _ _ (by rwa [length_pointerBytes]),
        Target.withSlot,
        Target.read_WriteProcessMemory_apart _ _ _ _ (by rwa [length_pointerBytes]),
        Target.read_withTrampoline short regions.function]
    · intro other same
      rw [found, Option.some.injEq] at same
      subst same
      have emptied := @Target.read_withSlot ((target.withTrampoline originalFunction
        (CalculatePatchSize decode true originalFunction target) calls.allocation).withSlot
          trampolineExport.address calls.allocation) trampolineExport.address 0
      rw [Target.withSlot] at emptied
      rw [emptied]
      exact pointerBytes_ne_zero regions.address allocated
    · simp [Target.withSlot]

omit within in
/-- Behind a patch the bytes of the function must be those of the patch as well. -/
theorem RolledBack.patched_iff (cleared : Bool) (newAddress : Nat) :
    RolledBack decode calls originalFunction hookImageBase definition target
        (((target.withHook originalFunction
          (CalculatePatchSize decode true originalFunction target) calls.allocation
            trampolineExport.address newAddress).WriteProcessMemory cleared
              trampolineExport.address (pointerBytes 0)).VirtualFreeEx true calls.allocation) ↔
      cleared = true ∧
        patchCode newAddress (CalculatePatchSize decode true originalFunction target) =
          target.memory.read originalFunction
            (CalculatePatchSize decode true originalFunction target) := by
  obtain ⟨apart, _, _⟩ := regions.slot trampolineExport found
  have patch := (((target.withTrampoline originalFunction
    (CalculatePatchSize decode true originalFunction target) calls.allocation).withSlot
      trampolineExport.address calls.allocation).memory).read_write originalFunction
        (patchCode newAddress (CalculatePatchSize decode true originalFunction target))
  rw [length_patchCode] at patch
  have code : ((target.withHook originalFunction
      (CalculatePatchSize decode true originalFunction target) calls.allocation
        trampolineExport.address newAddress).WriteProcessMemory cleared
          trampolineExport.address (pointerBytes 0)).memory.read originalFunction
            (CalculatePatchSize decode true originalFunction target) =
      patchCode newAddress (CalculatePatchSize decode true originalFunction target) := by
    rw [Target.read_WriteProcessMemory_apart _ _ _ _ (by rwa [length_pointerBytes])]
    exact patch
  constructor
  · intro rolledBack
    have same := rolledBack.code
    rw [Target.VirtualFreeEx_memory, code] at same
    refine ⟨?_, same⟩
    cases cleared with
    | true => rfl
    | false =>
        have dangling := rolledBack.slot allocated trampolineExport found
        rw [Target.VirtualFreeEx_memory, Target.WriteProcessMemory, if_neg Bool.false_ne_true,
          Target.withHook, Target.withPatch,
          Target.read_WriteProcessMemory_apart _ _ _ _
            (by rw [length_patchCode]; exact apart.symm)] at dangling
        exact absurd (Target.read_withSlot _ _) dangling
  · rintro ⟨rfl, same⟩
    refine .of_freed regions allocated (code.trans same) ?_ ?_
    · intro other other_found
      rw [found, Option.some.injEq] at other_found
      subst other_found
      have emptied := @Target.read_withSlot (target.withHook originalFunction
        (CalculatePatchSize decode true originalFunction target) calls.allocation
          trampolineExport.address newAddress) trampolineExport.address 0
      rw [Target.withSlot] at emptied
      rw [emptied]
      exact pointerBytes_ne_zero regions.address allocated
    · simp [Target.withHook, Target.withSlot, Target.withPatch]

end Outcomes

/-- `HookFunction` is all or nothing exactly when the calls behind the slot are
transactional, as long as what is freed is freed. -/
theorem allOrNothing_iff (within : DecodesWithin decode)
    (regions : calls.allocation ≠ 0 →
      Regions decode calls originalFunction hookImageBase definition target)
    (frees : calls.ok .free = true ∧ calls.ok (.trampoline .free) = true) :
    AllOrNothing decode calls originalFunction hookImageBase definition target ↔
      Transactional decode calls originalFunction hookImageBase definition target := by
  have course := HookFunction_course decode calls originalFunction hookImageBase definition target
  unfold AllOrNothing
  generalize HookFunction decode calls originalFunction hookImageBase definition target =
    result at course
  obtain ⟨hook, after⟩ := result
  dsimp only at course
  cases course with
  | refused unpublished =>
      refine iff_of_true ⟨rfl, fun allocated trampolineExport found => ?_, rfl⟩
        (fun publishes => absurd publishes unpublished)
      exact ((regions allocated).slot trampolineExport found).2.2
  | abandoned unpublished allocated release =>
      refine iff_of_true ?_ (fun publishes => absurd publishes unpublished)
      rcases release with rfl | rfl
      · rw [frees.1]
        exact .of_abandoned (regions allocated) allocated
      · rw [frees.2]
        exact .of_abandoned (regions allocated) allocated
  | discarded unpublished allocated _ size release =>
      subst size
      refine iff_of_true ?_ (fun publishes => absurd publishes unpublished)
      rcases release with rfl | rfl
      · rw [frees.1]
        exact .of_discarded within (regions allocated) allocated
      · rw [frees.2]
        exact .of_discarded within (regions allocated) allocated
  | withdrawn publishes found _ size closed =>
      subst size
      have allocated := publishes.trampoline.allocated
      rw [frees.1]
      refine (RolledBack.withdrawn_iff within (regions allocated) allocated found _).trans ?_
      constructor
      · intro cleared _
        refine Or.inr ⟨cleared, fun protect write => ?_⟩
        simp [protect, write] at closed
      · intro transactional
        rcases transactional publishes with succeeds | ⟨cleared, _⟩
        · simp [succeeds] at closed
        · exact cleared
  | patched publishes handler found _ size protect write unfinished =>
      subst size
      have allocated := publishes.trampoline.allocated
      rw [frees.1]
      refine (RolledBack.patched_iff (regions allocated) allocated found _ _).trans ?_
      constructor
      · rintro ⟨cleared, same⟩ _
        refine Or.inr ⟨cleared, fun _ _ other other_found => ?_⟩
        rw [handler, Option.some.injEq] at other_found
        rwa [← other_found]
      · intro transactional
        rcases transactional publishes with succeeds | ⟨cleared, same⟩
        · simp [succeeds] at unfinished
        · exact ⟨cleared, same protect write _ handler⟩
  | installed publishes handler found slotAddress long size protect write finished =>
      subst size
      have allocated := publishes.trampoline.allocated
      refine iff_of_true ?_ fun _ => Or.inl ?_
      · exact InPlace.of_installed within (regions allocated) allocated found handler long
      · rw [Bool.and_eq_true] at finished
        intro call
        cases call with
        | protect => exact protect
        | write => exact write
        | reprotect => exact finished.1
        | flush => exact finished.2

end Rollback

/-! ## A patch that stays -/

namespace Sample

/-- A function made of `nop`. -/
def decoder : Decoder
  | 0x90 :: _ => some ⟨1, false, false⟩
  | _ => none

def definition : HookDefinition where
  moduleName := narrow "a.dll"
  exportName := narrow "f"
  handlerExport := narrow "Hook"
  trampolineExport := narrow "Slot"
  canonicalName := narrow "a.dll!f"

def exports : ExportTable := fun name =>
  if name = narrow "Hook" then some ⟨0x90100, []⟩
  else if name = narrow "Slot" then some ⟨0x90200, []⟩
  else none

/-- The hook image lies at `0x90000`, with an empty slot. -/
def target : Target where
  memory := fun address => if 0x90200 ≤ address ∧ address < 0x90208 then 0 else 0x90
  images := fun base => if base = 0x90000 then some exports else none
  allocations := fun _ => 0
  log := []

/-- Only the last call of `PatchFunction` fails. -/
def unflushed : Calls where
  ok := fun call =>
    match call with
    | .patch .flush => false
    | _ => true
  allocation := 0xE0000

/-- The function cannot be made writable, and nothing was written to it. -/
def unprotected : Calls where
  ok := fun call =>
    match call with
    | .patch .protect => false
    | _ => true
  allocation := 0xE0000

theorem decoder_within : DecodesWithin decoder := by
  intro code instruction decoded
  unfold decoder at decoded
  split at decoded
  · cases decoded
    exact Nat.succ_le_succ (Nat.zero_le _)
  · cases decoded

theorem size : CalculatePatchSize decoder true 0x31000 target = 14 := by
  decide +kernel

theorem slot_found {trampolineExport : RemoteExport}
    (found : target.GetRemoteExport 0x90000 definition.trampolineExport =
      some trampolineExport) : trampolineExport = ⟨0x90200, []⟩ := by
  have known : target.GetRemoteExport 0x90000 definition.trampolineExport =
      some ⟨0x90200, []⟩ := by
    decide +kernel
  rw [known, Option.some.injEq] at found
  exact found.symm

theorem regions {calls : Calls} (allocation : calls.allocation = 0xE0000) :
    Regions decoder calls 0x31000 0x90000 definition target where
  fresh := rfl
  address := by
    rw [allocation]
    decide
  function := by
    rw [size, allocation]
    decide
  slot := by
    intro trampolineExport found
    rw [slot_found found, size, allocation]
    decide +kernel

end Sample

/-- The function still jumps to the handler after `HookFunction` has returned
false, and the slot that the handler calls through is empty. -/
theorem patch_not_rolledBack :
    (HookFunction Sample.decoder Sample.unflushed 0x31000 0x90000 Sample.definition
        Sample.target).1 = none ∧
      (HookFunction Sample.decoder Sample.unflushed 0x31000 0x90000 Sample.definition
        Sample.target).2.memory.read 0x31000 14 = patchCode 0x90100 14 ∧
      (HookFunction Sample.decoder Sample.unflushed 0x31000 0x90000 Sample.definition
        Sample.target).2.memory.read 0x90200 8 = pointerBytes 0 ∧
      Sample.target.memory.read 0x31000 14 = List.replicate 14 0x90 ∧
      ¬AllOrNothing Sample.decoder Sample.unflushed 0x31000 0x90000 Sample.definition
        Sample.target := by
  have run : (HookFunction Sample.decoder Sample.unflushed 0x31000 0x90000 Sample.definition
        Sample.target).1 = none ∧
      (HookFunction Sample.decoder Sample.unflushed 0x31000 0x90000 Sample.definition
        Sample.target).2.memory.read 0x31000 14 = patchCode 0x90100 14 ∧
      (HookFunction Sample.decoder Sample.unflushed 0x31000 0x90000 Sample.definition
        Sample.target).2.memory.read 0x90200 8 = pointerBytes 0 ∧
      Sample.target.memory.read 0x31000 14 = List.replicate 14 0x90 ∧
      patchCode 0x90100 14 ≠ List.replicate 14 0x90 := by
    decide +kernel
  obtain ⟨failed, patched, empty, nops, different⟩ := run
  refine ⟨failed, patched, empty, nops, fun allOrNothing => ?_⟩
  unfold AllOrNothing at allOrNothing
  generalize HookFunction Sample.decoder Sample.unflushed 0x31000 0x90000 Sample.definition
    Sample.target = result at failed patched allOrNothing
  obtain ⟨hook, after⟩ := result
  dsimp only at failed
  subst failed
  have code := allOrNothing.code
  rw [Sample.size, nops] at code
  exact different (patched.symm.trans code)

theorem allOrNothing_iff_sample :
    AllOrNothing Sample.decoder Sample.unprotected 0x31000 0x90000 Sample.definition
      Sample.target := by
  refine (allOrNothing_iff Sample.decoder_within (fun _ => Sample.regions rfl)
    ⟨rfl, rfl⟩).mpr ?_
  intro _
  refine Or.inr ⟨rfl, fun protect => ?_⟩
  cases protect

end HookFunction

end ApiScope
