import ApiScope.Session.Spans

/-!
# What becomes of the hooks

Functions are patched, installations fail behind their patch, modules are mapped and
unloaded, and in between the target runs.  Through all of this the code is what the
modules have brought along, with the patches that stand on top of it.
-/

namespace ApiScope

/-! ## What an installation leaves alone -/

section Installation

variable {decode : Decoder} {calls : HookFunction.Calls} {originalFunction hookImageBase : Nat}
  {definition : HookDefinition} {target after : Target}

/-- Bytes apart from the trampoline, the slot and a patch that is written are what they
were. -/
theorem HookFunction.Course.read_apart {hook : Option InstalledHook}
    (within : DecodesWithin decode)
    (course : HookFunction.Course decode calls originalFunction hookImageBase definition target
      hook after) {address count : Nat}
    (trampoline : Memory.Apart address count calls.allocation TRAMPOLINE_SIZE)
    (slot : ∀ trampolineExport,
      target.GetRemoteExport hookImageBase definition.trampolineExport = some trampolineExport →
        Memory.Apart address count trampolineExport.address 8)
    (patch : HookFunction.Overwrites decode calls originalFunction hookImageBase definition target →
      Memory.Apart address count originalFunction
        (CalculatePatchSize decode true originalFunction target)) :
    after.memory.read address count = target.memory.read address count := by
  have short := CalculatePatchSize_le within true originalFunction target
  have moved : ∀ {patchSize : Nat},
      patchSize = CalculatePatchSize decode true originalFunction target →
        (target.withTrampoline originalFunction patchSize calls.allocation).memory.read address
          count = target.memory.read address count := fun size =>
    Target.read_withTrampoline (by rw [size]; exact short) trampoline
  have pointed : ∀ (process : Target) (succeeds : Bool) (pointer : Nat)
      {trampolineExport : RemoteExport},
      target.GetRemoteExport hookImageBase definition.trampolineExport = some trampolineExport →
        (process.WriteProcessMemory succeeds trampolineExport.address
          (pointerBytes pointer)).memory.read address count =
            process.memory.read address count := by
    intro process succeeds pointer trampolineExport found
    apply Target.read_WriteProcessMemory_apart
    rw [length_pointerBytes]
    exact slot _ found
  have patched : ∀ (process : Target) (newAddress : Nat) {patchSize : Nat},
      HookFunction.Overwrites decode calls originalFunction hookImageBase definition target →
      patchSize = CalculatePatchSize decode true originalFunction target →
        (process.withPatch originalFunction newAddress patchSize).memory.read address count =
          process.memory.read address count := by
    intro process newAddress patchSize overwrites size
    apply Target.read_WriteProcessMemory_apart
    rw [length_patchCode, size]
    exact patch overwrites
  cases course with
  | refused => rfl
  | abandoned => simp
  | discarded _ _ _ size => rw [Target.VirtualFreeEx_memory, moved size]
  | withdrawn _ found _ size =>
      rw [Target.VirtualFreeEx_memory, pointed _ _ _ found, Target.withSlot, pointed _ _ _ found,
        moved size]
  | patched publishes _ found _ size protect write =>
      rw [Target.VirtualFreeEx_memory, pointed _ _ _ found, Target.withHook,
        patched _ _ (publishes.overwrites protect write) size, Target.withSlot,
        pointed _ _ _ found, moved size]
  | installed publishes _ found _ _ size protect write =>
      rw [Target.withHook, patched _ _ (publishes.overwrites protect write) size, Target.withSlot,
        pointed _ _ _ found, moved size]

/-- Only the region of the trampoline comes or goes. -/
theorem HookFunction.Course.allocations {hook : Option InstalledHook}
    (course : HookFunction.Course decode calls originalFunction hookImageBase definition target
      hook after) {base : Nat} (other : base ≠ calls.allocation) :
    after.allocations base = target.allocations base := by
  have allocated : ∀ size, (target.VirtualAllocEx calls.allocation size).allocations base =
      target.allocations base := by
    intro size
    unfold Target.VirtualAllocEx
    split_ifs
    · exact Function.update_of_ne other _ _
    · rfl
  cases course with
  | refused => rfl
  | abandoned | discarded | withdrawn | patched =>
      rw [Target.allocations_VirtualFreeEx_of_ne _ _ _ other]
      simp [Target.withHook, Target.withPatch, Target.withSlot, allocated]
  | installed => simp [Target.withHook, Target.withPatch, Target.withSlot, allocated]

theorem HookFunction.Course.images {hook : Option InstalledHook}
    (course : HookFunction.Course decode calls originalFunction hookImageBase definition target
      hook after) : after.images = target.images := by
  cases course <;> simp

/-- A hook whose patch has been written, whether it has been entered in the books or not. -/
structure HookFunction.Written (decode : Decoder) (calls : HookFunction.Calls)
    (originalFunction hookImageBase : Nat) (definition : HookDefinition) (target : Target)
    (hook : InstalledHook) (after : Target) : Prop where
  valid : hook.Valid
  function : hook.originalFunction = originalFunction
  sized : hook.originalBytes.length = CalculatePatchSize decode true originalFunction target
  long : PATCH_SIZE ≤ hook.originalBytes.length
  trampoline : hook.trampolineAddress = calls.allocation
  slot : ∃ trampolineExport, trampolineExport.address = hook.trampolineSlot ∧
    target.GetRemoteExport hookImageBase definition.trampolineExport = some trampolineExport
  patch : ∃ handlerExport,
    target.GetRemoteExport hookImageBase definition.handlerExport = some handlerExport ∧
      after.memory.read originalFunction hook.originalBytes.length =
        patchCode handlerExport.address hook.originalBytes.length
  saved : hook.originalBytes =
    target.memory.read originalFunction hook.originalBytes.length

theorem Target.read_withHook (target : Target)
    (originalFunction patchSize allocation trampolineSlot newAddress : Nat) :
    (target.withHook originalFunction patchSize allocation trampolineSlot
      newAddress).memory.read originalFunction patchSize = patchCode newAddress patchSize := by
  have written := ((target.withTrampoline originalFunction patchSize allocation).withSlot
    trampolineSlot allocation).memory.read_write originalFunction (patchCode newAddress patchSize)
  rwa [length_patchCode] at written

/-- The slot of a hook outlives the patch. -/
theorem HookFunction.Installed.read_slot {hook : InstalledHook} {newAddress : Nat}
    (installed : HookFunction.Installed decode calls originalFunction hookImageBase definition
      target hook newAddress after)
    (apart : Memory.Apart hook.trampolineSlot 8 originalFunction hook.originalBytes.length) :
    after.memory.read hook.trampolineSlot 8 = pointerBytes hook.trampolineAddress := by
  have patchApart : Memory.Apart hook.trampolineSlot 8 originalFunction
      (patchCode newAddress hook.originalBytes.length).length := by
    rwa [length_patchCode]
  rw [installed.after, Target.withHook_memory, Memory.read_write_apart _ patchApart,
    installed.trampoline]
  have written := Memory.read_write
    (target.withTrampoline originalFunction hook.originalBytes.length calls.allocation).memory
    hook.trampolineSlot (pointerBytes calls.allocation)
  rwa [length_pointerBytes] at written

theorem HookFunction.Written.of_installed {hook : InstalledHook} (within : DecodesWithin decode)
    (succeeds : (HookFunction decode calls originalFunction hookImageBase definition target).1 =
      some hook)
    (elsewhere : Memory.Apart calls.allocation TRAMPOLINE_SIZE originalFunction
      hook.originalBytes.length) :
    HookFunction.Written decode calls originalFunction hookImageBase definition target hook
      (HookFunction decode calls originalFunction hookImageBase definition target).2 := by
  obtain ⟨newAddress, installed⟩ := HookFunction_installed succeeds
  obtain ⟨handlerExport, isHandler, handler⟩ := installed.handler
  exact
    { valid := installed.valid
      function := installed.function
      sized := installed.size
      long := installed.long
      trampoline := installed.trampoline
      slot := installed.slotExport
      patch := ⟨handlerExport, handler, by rw [installed.after, Target.read_withHook, isHandler]⟩
      saved := installed.saved.trans (installed.read_withTrampoline within elsewhere) }

theorem HookFunction.Written.of_stray {hook : InstalledHook} (within : DecodesWithin decode)
    (left : HookFunction.stray decode calls originalFunction hookImageBase definition target =
      some hook)
    (elsewhere : Memory.Apart calls.allocation TRAMPOLINE_SIZE originalFunction
      hook.originalBytes.length)
    (slotApart : Memory.Apart originalFunction hook.originalBytes.length hook.trampolineSlot 8) :
    HookFunction.Written decode calls originalFunction hookImageBase definition target hook
      (HookFunction decode calls originalFunction hookImageBase definition target).2 := by
  obtain ⟨newAddress, installed, result⟩ := HookFunction.strayed_of_stray left
  obtain ⟨handlerExport, isHandler, handler⟩ := installed.handler
  refine
    { valid := installed.valid
      function := installed.function
      sized := installed.size
      long := installed.long
      trampoline := installed.trampoline
      slot := installed.slotExport
      patch := ⟨handlerExport, handler, ?_⟩
      saved := installed.saved.trans (installed.read_withTrampoline within elsewhere) }
  rw [result, HookFunction.strayed, Target.VirtualFreeEx_memory,
    Target.read_WriteProcessMemory_apart _ _ _ _ (by rw [length_pointerBytes]; exact slotApart),
    installed.function, Target.read_withHook, isHandler]

end Installation

/-! ## Histories -/

/-- Where the calls of an installation go: a trampoline in fresh memory, a patch into code
in which no other one stands, and a slot in the hook image that no other hook in the books
uses. -/
structure HookFunction.Fits (decode : Decoder) (calls : HookFunction.Calls)
    (originalFunction hookImageBase : Nat) (definition : HookDefinition) (code image : Nat → Prop)
    (hooks strays : List InstalledHook) (target : Target) : Prop where
  free : target.allocations calls.allocation = 0
  addressable : calls.allocation < 2 ^ 64
  outsideCode : Memory.Outside code calls.allocation TRAMPOLINE_SIZE
  outsideImage : Memory.Outside image calls.allocation TRAMPOLINE_SIZE
  function : CalculatePatchSize decode true originalFunction target ≠ 0 →
    Memory.Within code originalFunction (CalculatePatchSize decode true originalFunction target)
  unpatched : CalculatePatchSize decode true originalFunction target ≠ 0 →
    ∀ hook ∈ standing hooks strays, Memory.Apart hook.originalFunction hook.originalBytes.length
      originalFunction (CalculatePatchSize decode true originalFunction target)
  slot : ∀ trampolineExport,
    target.GetRemoteExport hookImageBase definition.trampolineExport = some trampolineExport →
      Memory.Within image trampolineExport.address 8 ∧
      (∀ hook ∈ hooks, Memory.Apart trampolineExport.address 8 hook.trampolineSlot 8) ∧
      ∀ stray ∈ strays, trampolineExport.address = stray.trampolineSlot ∨
        Memory.Apart trampolineExport.address 8 stray.trampolineSlot 8

/-- Where the patches lie when a module goes that takes up this span. -/
def InstalledHook.Extends (base size : Nat) (hook : InstalledHook) : Prop :=
  if hook.targetModuleBase = base then
    base ≤ hook.originalFunction ∧
      hook.originalFunction + hook.originalBytes.length ≤ base + size
  else Memory.Apart base size hook.originalFunction hook.originalBytes.length

instance (base size : Nat) (hook : InstalledHook) : Decidable (hook.Extends base size) :=
  inferInstanceAs (Decidable (if hook.targetModuleBase = base then _ else _))

/-- The hooks in the books, the hooks that are left and the target, with the code as it
would be without any hook.  The target may change what is neither code nor a slot in use,
and modules are mapped where no patch stands. -/
inductive History (decode : Decoder) (hookImageBase : Nat) (code image : Nat → Prop)
    (initial : Target) :
    Memory → List InstalledHook → List InstalledHook → Target → Prop where
  | start : History decode hookImageBase code image initial initial.memory [] [] initial
  | runs {pristine memory : Memory} {hooks strays : List InstalledHook} {target : Target}
      {images : Nat → Option ExportTable} {base size : Nat} :
      History decode hookImageBase code image initial pristine hooks strays target →
      (∀ hook ∈ standing hooks strays,
        Memory.Apart base size hook.originalFunction hook.originalBytes.length) →
      (∀ address, code address → ¬(base ≤ address ∧ address < base + size) →
        memory address = target.memory address) →
      (∀ hook ∈ hooks, memory.read hook.trampolineSlot 8 =
        target.memory.read hook.trampolineSlot 8) →
      images hookImageBase = target.images hookImageBase →
      History decode hookImageBase code image initial (pristine.overlay memory base size) hooks
        strays { target with memory := memory, images := images }
  | installs {pristine : Memory} {hooks strays : List InstalledHook} {target : Target}
      {calls : HookFunction.Calls} {originalFunction source base : Nat}
      {definition : HookDefinition} {hook : InstalledHook} :
      History decode hookImageBase code image initial pristine hooks strays target →
      HookFunction.Fits decode calls originalFunction hookImageBase definition code image hooks
        strays target →
      (HookFunction decode calls originalFunction hookImageBase definition target).1 =
        some hook →
      History decode hookImageBase code image initial pristine
        (hooks ++ [{ hook with sourceModuleBase := source, targetModuleBase := base }]) strays
        (HookFunction decode calls originalFunction hookImageBase definition target).2
  | fails {pristine : Memory} {hooks strays : List InstalledHook} {target : Target}
      {calls : HookFunction.Calls} {originalFunction source base : Nat}
      {definition : HookDefinition} :
      History decode hookImageBase code image initial pristine hooks strays target →
      HookFunction.Fits decode calls originalFunction hookImageBase definition code image hooks
        strays target →
      (HookFunction decode calls originalFunction hookImageBase definition target).1 = none →
      History decode hookImageBase code image initial pristine hooks
        (strays ++ ((HookFunction.stray decode calls originalFunction hookImageBase definition
          target).map fun hook =>
            { hook with sourceModuleBase := source, targetModuleBase := base }).toList)
        (HookFunction decode calls originalFunction hookImageBase definition target).2
  | unloads {pristine : Memory} {hooks strays : List InstalledHook} {target : Target}
      {calls : ModuleEvent.Calls} {base size : Nat} :
      History decode hookImageBase code image initial pristine hooks strays target →
      base ≠ hookImageBase →
      (∀ hook ∈ standing hooks strays, hook.Extends base size) →
      History decode hookImageBase code image initial (pristine.overlay target.memory base size)
        (DebugSession.HandleUnloadDll.loop calls base hooks (target.unmapImage base)).1
        (strays.map (DebugSession.leaveImage base) ++
          hooks.filterMap (DebugSession.HandleUnloadDll.stray calls base))
        (DebugSession.HandleUnloadDll.loop calls base hooks (target.unmapImage base)).2

/-! ## What is known of them -/

/-- The hook covers this byte. -/
def InstalledHook.Covers (hook : InstalledHook) (address : Nat) : Prop :=
  hook.originalFunction ≤ address ∧
    address < hook.originalFunction + hook.originalBytes.length

/-- The patch of a hook stands in the code, and what it covers has been saved. -/
structure InstalledHook.Stands (hook : InstalledHook) (hookImageBase : Nat)
    (code image : Nat → Prop) (initial : Target) (pristine memory : Memory) : Prop where
  placed : hook.Placed code image
  long : PATCH_SIZE ≤ hook.originalBytes.length
  saved : hook.originalBytes =
    pristine.read hook.originalFunction hook.originalBytes.length
  patch : ∃ exportName handlerExport,
    initial.GetRemoteExport hookImageBase exportName = some handlerExport ∧
      memory.read hook.originalFunction hook.originalBytes.length =
        patchCode handlerExport.address hook.originalBytes.length

/-- The code with the patches on it, and what the hooks hold. -/
structure Standing (hookImageBase : Nat) (code image : Nat → Prop) (initial : Target)
    (pristine : Memory) (hooks strays : List InstalledHook) (target : Target) : Prop where
  unpatched : ∀ address, code address → (∀ hook ∈ standing hooks strays, ¬hook.Covers address) →
    target.memory address = pristine address
  stands : ∀ hook ∈ standing hooks strays,
    hook.Stands hookImageBase code image initial pristine target.memory
  spans : ∀ hook ∈ standing hooks strays, ∀ other ∈ standing hooks strays, hook ≠ other →
    hook.SpansApart other
  forgotten : ∀ stray ∈ strays, stray.originalBytes ≠ [] → stray ∉ hooks
  slots : ∀ hook ∈ hooks, ∀ other ∈ hooks, hook ≠ other →
    Memory.Apart hook.trampolineSlot 8 other.trampolineSlot 8
  shared : ∀ stray ∈ strays, stray.originalBytes ≠ [] → ∀ hook ∈ hooks,
    stray.trampolineSlot = hook.trampolineSlot ∨
      Memory.Apart stray.trampolineSlot 8 hook.trampolineSlot 8
  slot : ∀ hook ∈ hooks,
    target.memory.read hook.trampolineSlot 8 = pointerBytes hook.trampolineAddress
  addressable : ∀ hook ∈ hooks, hook.trampolineAddress < 2 ^ 64
  trampolines : (hooks.map InstalledHook.trampolineAddress).Nodup
  allocated : ∀ hook ∈ hooks, target.allocations hook.trampolineAddress ≠ 0
  held : ∀ base, initial.allocations base ≠ 0 → target.allocations base ≠ 0 ∧
    ∀ hook ∈ standing hooks strays, hook.trampolineAddress ≠ base
  images : target.images hookImageBase = initial.images hookImageBase

theorem InstalledHook.apart_of_not_covers {hook : InstalledHook} {address : Nat}
    (uncovered : ¬hook.Covers address) :
    Memory.Apart address 1 hook.originalFunction hook.originalBytes.length := by
  unfold InstalledHook.Covers at uncovered
  unfold Memory.Apart
  omega

section Standing

variable {decode : Decoder} {hookImageBase : Nat} {code image : Nat → Prop} {initial : Target}
  {pristine memory : Memory} {hooks strays : List InstalledHook} {target : Target}

theorem InstalledHook.Stands.nonempty {hook : InstalledHook}
    (stands : hook.Stands hookImageBase code image initial pristine memory) :
    0 < hook.originalBytes.length :=
  Nat.lt_of_lt_of_le (by decide) stands.long

/-- Only the bytes under the patch matter. -/
theorem InstalledHook.Stands.of_reads {hook : InstalledHook} {pristine' memory' : Memory}
    (stands : hook.Stands hookImageBase code image initial pristine memory)
    (saved : pristine'.read hook.originalFunction hook.originalBytes.length =
      pristine.read hook.originalFunction hook.originalBytes.length)
    (same : memory'.read hook.originalFunction hook.originalBytes.length =
      memory.read hook.originalFunction hook.originalBytes.length) :
    hook.Stands hookImageBase code image initial pristine' memory' := by
  obtain ⟨exportName, handlerExport, found, patched⟩ := stands.patch
  exact
    { placed := stands.placed
      long := stands.long
      saved := stands.saved.trans saved.symm
      patch := ⟨exportName, handlerExport, found, same.trans patched⟩ }

theorem Standing.runs (stands : Standing hookImageBase code image initial pristine hooks strays
      target) {images : Nat → Option ExportTable} {base size : Nat}
    (elsewhere : ∀ hook ∈ standing hooks strays,
      Memory.Apart base size hook.originalFunction hook.originalBytes.length)
    (sameCode : ∀ address, code address → ¬(base ≤ address ∧ address < base + size) →
      memory address = target.memory address)
    (sameSlots : ∀ hook ∈ hooks, memory.read hook.trampolineSlot 8 =
      target.memory.read hook.trampolineSlot 8)
    (sameImage : images hookImageBase = target.images hookImageBase) :
    Standing hookImageBase code image initial (pristine.overlay memory base size) hooks strays
      { target with memory := memory, images := images } :=
  { stands with
    unpatched := fun address coded uncovered => by
      unfold Memory.overlay
      split_ifs with overlaid
      · rfl
      · exact (sameCode address coded overlaid).trans (stands.unpatched address coded uncovered)
    stands := fun hook member => by
      refine (stands.stands hook member).of_reads
        (Memory.read_overlay_apart _ _ (elsewhere hook member)) ?_
      refine Memory.read_congr fun address lower upper => ?_
      refine sameCode address ((stands.stands hook member).placed.patched address lower upper) ?_
      have apart := elsewhere hook member
      unfold Memory.Apart at apart
      omega
    slot := fun hook member => (sameSlots hook member).trans (stands.slot hook member)
    images := sameImage.trans stands.images }

end Standing

/-! ## Installations -/

theorem HookFunction.Overwrites.sized {decode : Decoder} {calls : HookFunction.Calls}
    {originalFunction hookImageBase : Nat} {definition : HookDefinition} {target : Target}
    (overwrites : HookFunction.Overwrites decode calls originalFunction hookImageBase definition
      target) : CalculatePatchSize decode true originalFunction target ≠ 0 := by
  have sized := overwrites.trampoline.sized
  rwa [CalculatePatchSize_of_ne_zero sized] at sized

section Attempt

variable {decode : Decoder} {hookImageBase : Nat} {code image : Nat → Prop} {initial : Target}
  {pristine : Memory} {hooks strays : List InstalledHook} {target after : Target}
  {calls : HookFunction.Calls} {originalFunction : Nat} {definition : HookDefinition}
  {made : Option InstalledHook} {hook : InstalledHook}

/-- The trampoline lies outside the function. -/
theorem HookFunction.Fits.trampoline_apart
    (fits : HookFunction.Fits decode calls originalFunction hookImageBase definition code image
      hooks strays target)
    (sized : CalculatePatchSize decode true originalFunction target ≠ 0) :
    Memory.Apart calls.allocation TRAMPOLINE_SIZE originalFunction
      (CalculatePatchSize decode true originalFunction target) :=
  ((fits.function sized).apart fits.outsideCode (Nat.pos_of_ne_zero sized) (by decide)).symm

/-- The slot lies outside the function. -/
theorem HookFunction.Fits.slot_apart (disjoint : ∀ address, code address → ¬image address)
    (fits : HookFunction.Fits decode calls originalFunction hookImageBase definition code image
      hooks strays target)
    (sized : CalculatePatchSize decode true originalFunction target ≠ 0)
    {trampolineExport : RemoteExport}
    (found : target.GetRemoteExport hookImageBase definition.trampolineExport =
      some trampolineExport) :
    Memory.Apart originalFunction (CalculatePatchSize decode true originalFunction target)
      trampolineExport.address 8 := by
  have outside : Memory.Outside code trampolineExport.address 8 :=
    (fits.slot _ found).1.outside fun address imaged coded => disjoint address coded imaged
  exact (fits.function sized).apart outside (Nat.pos_of_ne_zero sized) (by decide)

/-- Code in which no patch is written is what it was. -/
theorem HookFunction.Fits.read_code (within : DecodesWithin decode)
    (disjoint : ∀ address, code address → ¬image address)
    (fits : HookFunction.Fits decode calls originalFunction hookImageBase definition code image
      hooks strays target)
    (course : HookFunction.Course decode calls originalFunction hookImageBase definition target
      made after) {address count : Nat} (nonempty : 0 < count)
    (coded : Memory.Within code address count)
    (patch : HookFunction.Overwrites decode calls originalFunction hookImageBase definition target →
      Memory.Apart address count originalFunction
        (CalculatePatchSize decode true originalFunction target)) :
    after.memory.read address count = target.memory.read address count := by
  refine course.read_apart within (coded.apart fits.outsideCode nonempty (by decide)) ?_ patch
  intro trampolineExport found
  refine coded.apart ((fits.slot _ found).1.outside ?_) nonempty (by decide)
  exact fun address imaged coded => disjoint address coded imaged

/-- The slots of the other hooks are what they were. -/
theorem HookFunction.Fits.read_slot (within : DecodesWithin decode)
    (disjoint : ∀ address, code address → ¬image address)
    (fits : HookFunction.Fits decode calls originalFunction hookImageBase definition code image
      hooks strays target)
    (course : HookFunction.Course decode calls originalFunction hookImageBase definition target
      made after) (member : hook ∈ hooks) (imaged : Memory.Within image hook.trampolineSlot 8) :
    after.memory.read hook.trampolineSlot 8 = target.memory.read hook.trampolineSlot 8 := by
  refine course.read_apart within (imaged.apart fits.outsideImage (by decide) (by decide)) ?_ ?_
  · exact fun trampolineExport found => ((fits.slot _ found).2.1 hook member).symm
  · intro overwrites
    have outside : Memory.Outside code hook.trampolineSlot 8 :=
      imaged.outside fun address imaged coded => disjoint address coded imaged
    exact ((fits.function overwrites.sized).apart outside (Nat.pos_of_ne_zero overwrites.sized)
      (by decide)).symm

/-- What the hooks in the books hold outlives an installation. -/
theorem Standing.slot_of_course (within : DecodesWithin decode)
    (disjoint : ∀ address, code address → ¬image address)
    (stands : Standing hookImageBase code image initial pristine hooks strays target)
    (fits : HookFunction.Fits decode calls originalFunction hookImageBase definition code image
      hooks strays target)
    (course : HookFunction.Course decode calls originalFunction hookImageBase definition target
      made after) (member : hook ∈ hooks) :
    after.memory.read hook.trampolineSlot 8 = pointerBytes hook.trampolineAddress ∧
      after.allocations hook.trampolineAddress ≠ 0 ∧
      hook.trampolineAddress ≠ calls.allocation := by
  have placed := (stands.stands hook (mem_standing.mpr (Or.inl member))).placed
  have allocated := stands.allocated hook member
  have other : hook.trampolineAddress ≠ calls.allocation := fun same =>
    allocated (same ▸ fits.free)
  refine ⟨?_, ?_, other⟩
  · exact (fits.read_slot within disjoint course member placed.slot).trans (stands.slot hook member)
  · rwa [course.allocations other]

/-- An installation that writes no patch leaves all as it is. -/
theorem Standing.fails (within : DecodesWithin decode)
    (disjoint : ∀ address, code address → ¬image address)
    (stands : Standing hookImageBase code image initial pristine hooks strays target)
    (fits : HookFunction.Fits decode calls originalFunction hookImageBase definition code image
      hooks strays target)
    (course : HookFunction.Course decode calls originalFunction hookImageBase definition target
      made after)
    (unwritten :
      ¬HookFunction.Overwrites decode calls originalFunction hookImageBase definition target) :
    Standing hookImageBase code image initial pristine hooks strays after :=
  { stands with
    unpatched := fun address coded uncovered => by
      have within' : Memory.Within code address 1 := fun target lower upper => by
        rwa [show target = address by omega]
      have same := fits.read_code within disjoint course (by decide) within'
        fun overwrites => absurd overwrites unwritten
      exact (Memory.eq_of_read same (Nat.le_refl _) (by omega)).trans
        (stands.unpatched address coded uncovered)
    stands := fun hook member => by
      have stood := stands.stands hook member
      exact stood.of_reads rfl (fits.read_code within disjoint course stood.nonempty
        stood.placed.patched fun overwrites => absurd overwrites unwritten)
    slot := fun hook member => (stands.slot_of_course within disjoint fits course member).1
    allocated := fun hook member => (stands.slot_of_course within disjoint fits course member).2.1
    held := fun base held => by
      obtain ⟨allocated, others⟩ := stands.held base held
      have other : base ≠ calls.allocation := fun same => allocated (same ▸ fits.free)
      exact ⟨by rwa [course.allocations other], others⟩
    images := (congrFun course.images _).trans stands.images }

/-- What is known of the code when one more patch stands in it. -/
structure Standing.Grown (hookImageBase : Nat) (code image : Nat → Prop) (initial : Target)
    (pristine : Memory) (hooks strays : List InstalledHook) (target : Target) : Prop where
  unpatched : ∀ address, code address → (∀ hook ∈ standing hooks strays, ¬hook.Covers address) →
    target.memory address = pristine address
  stands : ∀ hook ∈ standing hooks strays,
    hook.Stands hookImageBase code image initial pristine target.memory
  spans : ∀ hook ∈ standing hooks strays, ∀ other ∈ standing hooks strays, hook ≠ other →
    hook.SpansApart other
  held : ∀ base, initial.allocations base ≠ 0 → target.allocations base ≠ 0 ∧
    ∀ hook ∈ standing hooks strays, hook.trampolineAddress ≠ base
  images : target.images hookImageBase = initial.images hookImageBase

theorem HookFunction.Written.sized_ne_zero
    (written : HookFunction.Written decode calls originalFunction hookImageBase definition target
      hook after) : CalculatePatchSize decode true originalFunction target ≠ 0 := by
  rw [← written.sized]
  exact Nat.ne_of_gt (Nat.lt_of_lt_of_le (by decide) written.long)

/-- The new patch stands in pristine code. -/
theorem Standing.new_stands
    (stands : Standing hookImageBase code image initial pristine hooks strays target)
    (fits : HookFunction.Fits decode calls originalFunction hookImageBase definition code image
      hooks strays target)
    (written : HookFunction.Written decode calls originalFunction hookImageBase definition target
      hook after) :
    hook.Stands hookImageBase code image initial pristine after.memory := by
  have sized := written.sized_ne_zero
  have coded := fits.function sized
  have original : hook.originalBytes =
      pristine.read originalFunction hook.originalBytes.length := by
    refine written.saved.trans (Memory.read_congr fun address lower upper => ?_)
    rw [written.sized] at upper
    refine stands.unpatched address (coded address lower upper) fun other member covers => ?_
    have elsewhere := fits.unpatched sized other member
    unfold InstalledHook.Covers at covers
    unfold Memory.Apart at elsewhere
    omega
  obtain ⟨trampolineExport, isSlot, found⟩ := written.slot
  obtain ⟨handlerExport, handler, patched⟩ := written.patch
  rw [Target.GetRemoteExport, stands.images] at handler
  refine ⟨⟨written.valid, ?_, ?_⟩, written.long, ?_, definition.handlerExport, handlerExport,
    handler, ?_⟩
  · rw [written.function, written.sized]
    exact coded
  · rw [← isSlot]
    exact (fits.slot _ found).1
  · rw [written.function]
    exact original
  · rw [written.function]
    exact patched

theorem Standing.written (within : DecodesWithin decode)
    (disjoint : ∀ address, code address → ¬image address)
    (stands : Standing hookImageBase code image initial pristine hooks strays target)
    (fits : HookFunction.Fits decode calls originalFunction hookImageBase definition code image
      hooks strays target)
    (course : HookFunction.Course decode calls originalFunction hookImageBase definition target
      made after)
    (written : HookFunction.Written decode calls originalFunction hookImageBase definition target
      hook after)
    (hooks' strays' : List InstalledHook)
    (grown : ∀ other, other ∈ standing hooks' strays' ↔
      other ∈ standing hooks strays ∨ other = hook) :
    Standing.Grown hookImageBase code image initial pristine hooks' strays' after := by
  have apart := fits.unpatched written.sized_ne_zero
  have toNew : ∀ other ∈ standing hooks strays, other.SpansApart hook := by
    intro other member
    have elsewhere := apart other member
    rwa [← written.sized, ← written.function] at elsewhere
  refine ⟨?_, ?_, ?_, ?_, (congrFun course.images _).trans stands.images⟩
  · intro address isCode elsewhere
    have within' : Memory.Within code address 1 := fun target lower upper => by
      rwa [show target = address by omega]
    have outside := elsewhere hook ((grown hook).mpr (Or.inr rfl))
    have same := fits.read_code within disjoint course (by decide) within' fun _ => by
      have behind := InstalledHook.apart_of_not_covers outside
      rwa [written.function, written.sized] at behind
    refine (Memory.eq_of_read same (Nat.le_refl _) (by omega)).trans ?_
    exact stands.unpatched address isCode fun other member =>
      elsewhere other ((grown other).mpr (Or.inl member))
  · intro other member
    rcases (grown other).mp member with old | rfl
    · have stood := stands.stands other old
      exact stood.of_reads rfl (fits.read_code within disjoint course stood.nonempty
        stood.placed.patched fun _ => apart other old)
    · exact stands.new_stands fits written
  · intro first isFirst second isSecond different
    rcases (grown first).mp isFirst with old | rfl
    · rcases (grown second).mp isSecond with old' | rfl
      · exact stands.spans first old second old' different
      · exact toNew first old
    · rcases (grown second).mp isSecond with old' | rfl
      · exact Memory.Apart.symm (toNew second old')
      · exact absurd rfl different
  · intro base held
    obtain ⟨allocated, others⟩ := stands.held base held
    have other : base ≠ calls.allocation := fun same => allocated (same ▸ fits.free)
    refine ⟨by rwa [course.allocations other], fun hook' member => ?_⟩
    rcases (grown hook').mp member with old | rfl
    · exact others hook' old
    · rw [written.trampoline]
      exact other.symm

/-- The new hook is none of those that stand. -/
theorem HookFunction.Fits.fresh
    (fits : HookFunction.Fits decode calls originalFunction hookImageBase definition code image
      hooks strays target)
    (written : HookFunction.Written decode calls originalFunction hookImageBase definition target
      hook after) : hook ∉ standing hooks strays := by
  intro member
  have long := written.long
  rw [PATCH_SIZE] at long
  have apart := fits.unpatched written.sized_ne_zero hook member
  rw [← written.sized, written.function] at apart
  unfold Memory.Apart at apart
  omega

/-- A hook that is installed enters the books. -/
theorem Standing.installs (within : DecodesWithin decode)
    (disjoint : ∀ address, code address → ¬image address)
    (stands : Standing hookImageBase code image initial pristine hooks strays target)
    (fits : HookFunction.Fits decode calls originalFunction hookImageBase definition code image
      hooks strays target)
    (course : HookFunction.Course decode calls originalFunction hookImageBase definition target
      made after)
    (written : HookFunction.Written decode calls originalFunction hookImageBase definition target
      hook after)
    (slot : after.memory.read hook.trampolineSlot 8 = pointerBytes hook.trampolineAddress)
    (allocated : after.allocations hook.trampolineAddress ≠ 0) :
    Standing hookImageBase code image initial pristine (hooks ++ [hook]) strays after := by
  have kept : ∀ other ∈ hooks, _ := fun other member =>
    stands.slot_of_course within disjoint fits course member
  have fresh := fits.fresh written
  have grown := stands.written within disjoint fits course written
    (hooks ++ [hook]) strays fun other => by
      simp only [mem_standing, List.mem_append, List.mem_singleton]
      tauto
  obtain ⟨trampolineExport, isSlot, found⟩ := written.slot
  obtain ⟨_, slotApart, slotShared⟩ := fits.slot _ found
  rw [isSlot] at slotApart slotShared
  constructor
  · exact grown.unpatched
  · exact grown.stands
  · exact grown.spans
  · intro stray left patched member
    rcases List.mem_append.mp member with old | new
    · exact stands.forgotten stray left patched old
    · rw [List.mem_singleton.mp new] at left patched
      exact fresh (mem_standing.mpr (Or.inr ⟨left, patched⟩))
  · intro first isFirst second isSecond different
    rcases List.mem_append.mp isFirst with old | new
    · rcases List.mem_append.mp isSecond with old' | new'
      · exact stands.slots first old second old' different
      · rw [List.mem_singleton.mp new']
        exact (slotApart first old).symm
    · rw [List.mem_singleton] at new
      subst new
      rcases List.mem_append.mp isSecond with old' | new'
      · exact slotApart second old'
      · exact absurd (List.mem_singleton.mp new').symm different
  · intro stray left patched other member
    rcases List.mem_append.mp member with old | new
    · exact stands.shared stray left patched other old
    · rw [List.mem_singleton.mp new]
      exact (slotShared stray left).imp Eq.symm Memory.Apart.symm
  · intro other member
    rcases List.mem_append.mp member with old | new
    · exact (kept other old).1
    · rw [List.mem_singleton.mp new]
      exact slot
  · intro other member
    rcases List.mem_append.mp member with old | new
    · exact stands.addressable other old
    · rw [List.mem_singleton.mp new, written.trampoline]
      exact fits.addressable
  · rw [List.map_append, List.nodup_append]
    refine ⟨stands.trampolines, by simp, ?_⟩
    intro region member other isNew
    obtain ⟨old, inside, rfl⟩ := List.mem_map.mp member
    have isHook : other = hook.trampolineAddress := by simpa using isNew
    rw [isHook, written.trampoline]
    exact (kept old inside).2.2
  · intro other member
    rcases List.mem_append.mp member with old | new
    · exact (kept other old).2.1
    · rw [List.mem_singleton.mp new]
      exact allocated
  · exact grown.held
  · exact grown.images

/-- A hook that is left is forgotten with its patch in place. -/
theorem Standing.leaves (within : DecodesWithin decode)
    (disjoint : ∀ address, code address → ¬image address)
    (stands : Standing hookImageBase code image initial pristine hooks strays target)
    (fits : HookFunction.Fits decode calls originalFunction hookImageBase definition code image
      hooks strays target)
    (course : HookFunction.Course decode calls originalFunction hookImageBase definition target
      made after)
    (written : HookFunction.Written decode calls originalFunction hookImageBase definition target
      hook after) :
    Standing hookImageBase code image initial pristine hooks (strays ++ [hook]) after := by
  have kept : ∀ other ∈ hooks, _ := fun other member =>
    stands.slot_of_course within disjoint fits course member
  have fresh := fits.fresh written
  have nonempty : hook.originalBytes ≠ [] := written.valid.2.2.2
  have grown := stands.written within disjoint fits course written
    hooks (strays ++ [hook]) fun other => by
      simp only [mem_standing, List.mem_append, List.mem_singleton]
      constructor
      · rintro (inside | ⟨inside | rfl, patched⟩)
        · exact Or.inl (Or.inl inside)
        · exact Or.inl (Or.inr ⟨inside, patched⟩)
        · exact Or.inr rfl
      · rintro ((inside | ⟨inside, patched⟩) | rfl)
        · exact Or.inl inside
        · exact Or.inr ⟨Or.inl inside, patched⟩
        · exact Or.inr ⟨Or.inr rfl, nonempty⟩
  obtain ⟨trampolineExport, isSlot, found⟩ := written.slot
  obtain ⟨_, slotApart, _⟩ := fits.slot _ found
  rw [isSlot] at slotApart
  exact
    { unpatched := grown.unpatched
      stands := grown.stands
      spans := grown.spans
      forgotten := fun stray left patched member => by
        rcases List.mem_append.mp left with old | new
        · exact stands.forgotten stray old patched member
        · rw [List.mem_singleton.mp new] at member
          exact fresh (mem_standing.mpr (Or.inl member))
      slots := stands.slots
      shared := fun stray left patched other member => by
        rcases List.mem_append.mp left with old | new
        · exact stands.shared stray old patched other member
        · rw [List.mem_singleton.mp new]
          exact Or.inr (slotApart other member)
      slot := fun other member => (kept other member).1
      addressable := stands.addressable
      trampolines := stands.trampolines
      allocated := fun other member => (kept other member).2.1
      held := grown.held
      images := grown.images }

end Attempt

/-! ## Unloading -/

/-- Taking out a hook may write its saved bytes back and clear its slot. -/
theorem UnhookFunction.Effect.read_apart {ok : UnhookFunction.Call → Bool} {hook : InstalledHook}
    {target after : Target} {removed : Bool}
    (effect : UnhookFunction.Effect ok hook target removed after) {address count : Nat}
    (slot : Memory.Apart address count hook.trampolineSlot 8)
    (span : ok .protect = true → ok .restore = true →
      Memory.Apart address count hook.originalFunction hook.originalBytes.length) :
    after.memory.read address count = target.memory.read address count := by
  have original (protect : ok .protect = true) (restore : ok .restore = true) :
      (target.withOriginal hook).memory.read address count = target.memory.read address count :=
    Target.read_WriteProcessMemory_apart _ _ _ _ (span protect restore)
  cases effect with
  | patchStays => rfl
  | slotStays protect restore => exact original protect restore
  | removed protect restore =>
      rw [Target.VirtualFreeEx_memory, Target.withoutHook,
        Target.read_WriteProcessMemory_apart _ _ _ _ (by rw [length_pointerBytes]; exact slot),
        original protect restore]

namespace DebugSession.HandleUnloadDll

/-- What is done about one hook. -/
def remove (calls : ModuleEvent.Calls) (base : Nat) (hook : InstalledHook) (process : Target) :
    Target :=
  if hook.targetModuleBase = base then (ReleaseUnloadedHook (calls.release hook) hook process).2
  else if hook.sourceModuleBase = base then (UnhookFunction (calls.unhook hook) hook process).2
  else process

variable {calls : ModuleEvent.Calls} {base : Nat} {hooks : List InstalledHook}

theorem loop_cons_snd (hook : InstalledHook) (rest : List InstalledHook) (process : Target) :
    (loop calls base (hook :: rest) process).2 =
      (loop calls base rest (remove calls base hook process)).2 := by
  rw [loop, remove]
  split_ifs <;> rfl

theorem loop_append_snd (hooks others : List InstalledHook) (process : Target) :
    (loop calls base (hooks ++ others) process).2 =
      (loop calls base others (loop calls base hooks process).2).2 := by
  induction hooks generalizing process with
  | nil => rfl
  | cons hook rest inductionHypothesis =>
      rw [List.cons_append, loop_cons_snd, loop_cons_snd, inductionHypothesis]

/-- What is done about one hook after the other preserves what each step preserves. -/
theorem loop_induction {holds : Target → Prop}
    (preserved : ∀ hook ∈ hooks, ∀ process, holds process → holds (remove calls base hook process))
    {process : Target} (held : holds process) : holds (loop calls base hooks process).2 := by
  induction hooks generalizing process with
  | nil => exact held
  | cons hook rest inductionHypothesis =>
      rw [List.forall_mem_cons] at preserved
      rw [loop_cons_snd]
      exact inductionHypothesis preserved.2 (preserved.1 process held)

/-- A module takes this hook along, or the hook is taken out of its function. -/
def Removes (base : Nat) (hook : InstalledHook) : Prop :=
  hook.targetModuleBase = base ∨ hook.sourceModuleBase = base

variable {hook : InstalledHook} {process : Target}

theorem images_remove : (remove calls base hook process).images = process.images := by
  unfold remove
  split_ifs
  · exact images_ReleaseUnloadedHook _ _ _
  · exact images_UnhookFunction _ _ _
  · rfl

theorem allocations_remove {region : Nat}
    (other : Removes base hook → region ≠ hook.trampolineAddress) :
    (remove calls base hook process).allocations region = process.allocations region := by
  unfold remove
  split_ifs with target source
  · rw [ReleaseUnloadedHook, Target.allocations_VirtualFreeEx_of_ne _ _ _ (other (Or.inl target))]
    simp
  · unfold UnhookFunction
    dsimp only
    split_ifs
    · rfl
    · rfl
    · simp
    · simp
    · rw [Target.allocations_VirtualFreeEx_of_ne _ _ _ (other (Or.inr source))]
      simp
  · rfl

/-- The slots of the hooks that go are cleared, and saved bytes may be written back. -/
theorem read_remove {address count : Nat}
    (slot : Removes base hook → Memory.Apart address count hook.trampolineSlot 8)
    (patch : hook.targetModuleBase ≠ base → hook.sourceModuleBase = base →
      hook.WrittenBack (calls.unhook hook) →
        Memory.Apart address count hook.originalFunction hook.originalBytes.length) :
    (remove calls base hook process).memory.read address count =
      process.memory.read address count := by
  unfold remove
  split_ifs with target source
  · rw [ReleaseUnloadedHook, Target.VirtualFreeEx_memory,
      Target.read_WriteProcessMemory_apart _ _ _ _
        (by rw [length_pointerBytes]; exact slot (Or.inl target))]
  · by_cases valid : hook.Valid
    · exact (UnhookFunction_effect (calls.unhook hook) valid process).read_apart
        (slot (Or.inr source)) fun protect restore =>
          patch target source ⟨valid, protect, restore⟩
    · unfold InstalledHook.Valid at valid
      rw [UnhookFunction, if_pos (by tauto)]
  · rfl

/-- Saved bytes that are written back are there. -/
theorem read_remove_writtenBack (target : hook.targetModuleBase ≠ base)
    (source : hook.sourceModuleBase = base) (writtenBack : hook.WrittenBack (calls.unhook hook))
    (slot : Memory.Apart hook.originalFunction hook.originalBytes.length hook.trampolineSlot 8) :
    (remove calls base hook process).memory.read hook.originalFunction
      hook.originalBytes.length = hook.originalBytes := by
  obtain ⟨valid, protect, restore⟩ := writtenBack
  have original : (process.withOriginal hook).memory.read hook.originalFunction
      hook.originalBytes.length = hook.originalBytes :=
    process.memory.read_write hook.originalFunction hook.originalBytes
  rw [remove, if_neg target, if_pos source]
  have effect := UnhookFunction_effect (calls.unhook hook) valid process
  generalize (UnhookFunction (calls.unhook hook) hook process).1 = unhooked at effect
  generalize (UnhookFunction (calls.unhook hook) hook process).2 = after at effect ⊢
  cases effect with
  | patchStays stays => simp [protect, restore] at stays
  | slotStays => exact original
  | removed =>
      rw [Target.VirtualFreeEx_memory]
      refine (Target.read_WriteProcessMemory_apart _ _ _ _ ?_).trans original
      rwa [length_pointerBytes]

end DebugSession.HandleUnloadDll

section Unload

open DebugSession

variable {hookImageBase : Nat} {code image : Nat → Prop} {initial : Target} {pristine : Memory}
  {hooks strays : List InstalledHook} {target : Target} {calls : ModuleEvent.Calls}
  {base size : Nat} {hook : InstalledHook}

theorem mem_loop_fst {process : Target} :
    hook ∈ (HandleUnloadDll.loop calls base hooks process).1 ↔
      hook ∈ hooks ∧ ¬HandleUnloadDll.Removes base hook := by
  rw [HandleUnloadDll.loop_fst, List.mem_filter, HandleUnloadDll.Removes]
  simp

/-- A hook that is left when a module goes has been left before, or could not be taken out. -/
theorem stray_of_unload {stray : InstalledHook}
    (left : stray ∈ strays.map (leaveImage base) ++
      hooks.filterMap (HandleUnloadDll.stray calls base))
    (patched : stray.originalBytes ≠ []) :
    stray.targetModuleBase ≠ base ∧ (stray ∈ strays ∨
      stray ∈ hooks ∧ stray.sourceModuleBase = base ∧
        ¬stray.WrittenBack (calls.unhook stray)) := by
  rcases List.mem_append.mp left with old | new
  · obtain ⟨hook, member, rfl⟩ := List.mem_map.mp old
    unfold leaveImage at patched ⊢
    split_ifs at patched ⊢ with gone
    · exact absurd rfl patched
    · exact ⟨gone, Or.inl member⟩
  · obtain ⟨hook, member, isStray⟩ := List.mem_filterMap.mp new
    unfold HandleUnloadDll.stray at isStray
    split_ifs at isStray with target source
    · unfold ReleaseUnloadedHook.stray at isStray
      split_ifs at isStray
      cases isStray
      exact absurd rfl patched
    · unfold UnhookFunction.stray at isStray
      split_ifs at isStray with writtenBack
      · cases isStray
        exact absurd rfl patched
      · cases isStray
        exact ⟨target, Or.inr ⟨member, source, writtenBack⟩⟩

/-- The patches that stand when a module has gone stood there before. -/
theorem standing_of_unload {process : Target}
    (member : hook ∈ standing (HandleUnloadDll.loop calls base hooks process).1
      (strays.map (leaveImage base) ++ hooks.filterMap (HandleUnloadDll.stray calls base))) :
    hook ∈ standing hooks strays ∧ hook.targetModuleBase ≠ base ∧
      (hook ∈ hooks → hook.sourceModuleBase = base →
        ¬hook.WrittenBack (calls.unhook hook) ∨ hook ∈ strays ∧ hook.originalBytes ≠ []) := by
  rcases mem_standing.mp member with kept | ⟨left, patched⟩
  · obtain ⟨inside, stays⟩ := mem_loop_fst.mp kept
    exact ⟨mem_standing.mpr (Or.inl inside), fun gone => stays (Or.inl gone),
      fun _ gone => absurd (Or.inr gone) stays⟩
  · obtain ⟨target, old | ⟨inside, source, unwritten⟩⟩ := stray_of_unload left patched
    · exact ⟨mem_standing.mpr (Or.inr ⟨old, patched⟩), target, fun _ _ => Or.inr ⟨old, patched⟩⟩
    · exact ⟨mem_standing.mpr (Or.inl inside), target, fun _ _ => Or.inl unwritten⟩

theorem Standing.stood
    (stands : Standing hookImageBase code image initial pristine hooks strays target)
    (member : hook ∈ hooks) :
    hook.Stands hookImageBase code image initial pristine target.memory :=
  stands.stands hook (mem_standing.mpr (Or.inl member))

theorem Standing.slot_outside (disjoint : ∀ address, code address → ¬image address)
    (stands : Standing hookImageBase code image initial pristine hooks strays target)
    (member : hook ∈ hooks) : Memory.Outside code hook.trampolineSlot 8 :=
  (stands.stood member).placed.slot.outside fun address imaged coded =>
    disjoint address coded imaged

/-- Code that no hook gives back is what it was. -/
theorem Standing.read_unload (disjoint : ∀ address, code address → ¬image address)
    (stands : Standing hookImageBase code image initial pristine hooks strays target)
    {address count : Nat} (coded : Memory.Within code address count) (nonempty : 0 < count)
    (apart : ∀ hook ∈ hooks, hook.targetModuleBase ≠ base → hook.sourceModuleBase = base →
      hook.WrittenBack (calls.unhook hook) →
        Memory.Apart address count hook.originalFunction hook.originalBytes.length) :
    (HandleUnloadDll.loop calls base hooks (target.unmapImage base)).2.memory.read address
      count = target.memory.read address count := by
  refine @HandleUnloadDll.loop_induction calls base hooks
    (fun process => process.memory.read address count = target.memory.read address count) ?_ _ rfl
  intro hook member process same
  rw [HandleUnloadDll.read_remove (fun _ => coded.apart (stands.slot_outside disjoint member)
    nonempty (by decide)) (apart hook member)]
  exact same

/-- A hook whose bytes are written back has its function back. -/
theorem Standing.read_unload_writtenBack (disjoint : ∀ address, code address → ¬image address)
    (stands : Standing hookImageBase code image initial pristine hooks strays target)
    (member : hook ∈ hooks) (stays : hook.targetModuleBase ≠ base)
    (source : hook.sourceModuleBase = base)
    (writtenBack : hook.WrittenBack (calls.unhook hook)) :
    (HandleUnloadDll.loop calls base hooks (target.unmapImage base)).2.memory.read
      hook.originalFunction hook.originalBytes.length = hook.originalBytes := by
  obtain ⟨before, behind, split⟩ := List.append_of_mem member
  have nodup := stands.trampolines
  have slotApart : ∀ other ∈ hooks, Memory.Apart hook.originalFunction
      hook.originalBytes.length other.trampolineSlot 8 := fun other inside =>
    (stands.stood member).placed.patched.apart (stands.slot_outside disjoint inside)
      (stands.stood member).nonempty (by decide)
  rw [split, HandleUnloadDll.loop_append_snd, HandleUnloadDll.loop_cons_snd]
  refine @HandleUnloadDll.loop_induction calls base behind
    (fun process => process.memory.read hook.originalFunction hook.originalBytes.length =
      hook.originalBytes) ?_ _
    (HandleUnloadDll.read_remove_writtenBack stays source writtenBack (slotApart hook member))
  intro other isBehind process same
  have inside : other ∈ hooks := by
    rw [split]
    exact List.mem_append_right _ (List.mem_cons_of_mem _ isBehind)
  have different : hook ≠ other := by
    rintro rfl
    rw [split, List.map_append, List.map_cons, List.nodup_append, List.nodup_cons] at nodup
    exact nodup.2.1.1 (List.mem_map_of_mem isBehind)
  rw [HandleUnloadDll.read_remove (fun _ => slotApart other inside) fun _ _ _ =>
    stands.spans hook (mem_standing.mpr (Or.inl member)) other (mem_standing.mpr (Or.inl inside))
      different]
  exact same

theorem Standing.allocations_unload {region : Nat}
    (others : ∀ hook ∈ hooks, HandleUnloadDll.Removes base hook →
      region ≠ hook.trampolineAddress) :
    (HandleUnloadDll.loop calls base hooks (target.unmapImage base)).2.allocations region =
      target.allocations region := by
  refine @HandleUnloadDll.loop_induction calls base hooks
    (fun process => process.allocations region = target.allocations region) ?_ _ rfl
  intro hook member process same
  rw [HandleUnloadDll.allocations_remove (others hook member)]
  exact same

/-- A hook that stays keeps its slot. -/
theorem Standing.slot_unload (disjoint : ∀ address, code address → ¬image address)
    (stands : Standing hookImageBase code image initial pristine hooks strays target)
    (member : hook ∈ hooks) (stays : ¬HandleUnloadDll.Removes base hook) :
    (HandleUnloadDll.loop calls base hooks (target.unmapImage base)).2.memory.read
      hook.trampolineSlot 8 = pointerBytes hook.trampolineAddress := by
  refine @HandleUnloadDll.loop_induction calls base hooks
    (fun process => process.memory.read hook.trampolineSlot 8 =
      pointerBytes hook.trampolineAddress) ?_ _ (stands.slot hook member)
  intro other isOther process same
  rw [HandleUnloadDll.read_remove ?_ ?_]
  · exact same
  · intro removes
    refine stands.slots hook member other isOther ?_
    rintro rfl
    exact stays removes
  · exact fun _ _ _ => ((stands.stood isOther).placed.patched.apart
      (stands.slot_outside disjoint member) (stands.stood isOther).nonempty (by decide)).symm

/-- Apart from the patches that are left the code is pristine, where the module was
whatever has been found there. -/
theorem Standing.unpatched_unload (disjoint : ∀ address, code address → ¬image address)
    (stands : Standing hookImageBase code image initial pristine hooks strays target)
    (extent : ∀ hook ∈ standing hooks strays, hook.Extends base size) {address : Nat}
    (coded : code address)
    (uncovered : ∀ hook ∈ standing
      (HandleUnloadDll.loop calls base hooks (target.unmapImage base)).1
      (strays.map (leaveImage base) ++ hooks.filterMap (HandleUnloadDll.stray calls base)),
        ¬hook.Covers address) :
    (HandleUnloadDll.loop calls base hooks (target.unmapImage base)).2.memory address =
      pristine.overlay target.memory base size address := by
  have single : Memory.Within code address 1 := fun target lower upper => by
    rwa [show target = address by omega]
  by_cases given : ∃ hook ∈ hooks, hook.targetModuleBase ≠ base ∧ hook.sourceModuleBase = base ∧
      hook.WrittenBack (calls.unhook hook) ∧ hook.Covers address
  · obtain ⟨hook, member, stays, source, writtenBack, covers⟩ := given
    have apart := extent hook (mem_standing.mpr (Or.inl member))
    rw [InstalledHook.Extends, if_neg stays, Memory.Apart] at apart
    have outside : ¬(base ≤ address ∧ address < base + size) := by
      unfold InstalledHook.Covers at covers
      omega
    rw [Memory.overlay, if_neg outside]
    exact Memory.eq_of_read ((stands.read_unload_writtenBack disjoint member stays source
      writtenBack).trans (stands.stood member).saved) covers.1 covers.2
  · push Not at given
    have same : (HandleUnloadDll.loop calls base hooks (target.unmapImage base)).2.memory
        address = target.memory address :=
      Memory.eq_of_read (stands.read_unload disjoint single (by decide)
        fun hook member stays source writtenBack => InstalledHook.apart_of_not_covers
          (given hook member stays source writtenBack)) (Nat.le_refl _) (by omega)
    rw [same, Memory.overlay]
    split_ifs with overlaid
    · rfl
    refine stands.unpatched address coded fun hook member covers => ?_
    have stays : hook.targetModuleBase ≠ base := by
      intro gone
      have inside := extent hook member
      rw [InstalledHook.Extends, if_pos gone] at inside
      unfold InstalledHook.Covers at covers
      omega
    refine uncovered hook ?_ covers
    rcases mem_standing.mp member with inside | ⟨inside, patched⟩
    · by_cases source : hook.sourceModuleBase = base
      · refine mem_standing.mpr (Or.inr ⟨List.mem_append_right _ ?_, ?_⟩)
        · refine List.mem_filterMap.mpr ⟨hook, inside, ?_⟩
          rw [HandleUnloadDll.stray, if_neg stays, if_pos source, UnhookFunction.stray,
            if_neg fun writtenBack => given hook inside stays source writtenBack covers]
        · exact List.ne_nil_of_length_pos (stands.stood inside).nonempty
      · exact mem_standing.mpr (Or.inl (mem_loop_fst.mpr
          ⟨inside, fun removes => removes.elim stays source⟩))
    · refine mem_standing.mpr (Or.inr ⟨List.mem_append_left _ ?_, patched⟩)
      exact List.mem_map.mpr ⟨hook, inside, by rw [leaveImage, if_neg stays]⟩

/-- A module goes, with the hooks in it, and the hooks that came through it are taken out. -/
theorem Standing.unloads (disjoint : ∀ address, code address → ¬image address)
    (stands : Standing hookImageBase code image initial pristine hooks strays target)
    (elsewhere : base ≠ hookImageBase)
    (extent : ∀ hook ∈ standing hooks strays, hook.Extends base size) :
    Standing hookImageBase code image initial (pristine.overlay target.memory base size)
      (HandleUnloadDll.loop calls base hooks (target.unmapImage base)).1
      (strays.map (leaveImage base) ++ hooks.filterMap (HandleUnloadDll.stray calls base))
      (HandleUnloadDll.loop calls base hooks (target.unmapImage base)).2 := by
  have images : (HandleUnloadDll.loop calls base hooks (target.unmapImage base)).2.images =
      (target.unmapImage base).images :=
    @HandleUnloadDll.loop_induction calls base hooks
      (fun process => process.images = (target.unmapImage base).images)
      (fun hook _ process same => HandleUnloadDll.images_remove.trans same) _ rfl
  have kept : ∀ {hook : InstalledHook},
      hook ∈ (HandleUnloadDll.loop calls base hooks (target.unmapImage base)).1 →
        hook ∈ hooks ∧ ¬HandleUnloadDll.Removes base hook := mem_loop_fst.mp
  constructor
  · exact fun address coded uncovered => stands.unpatched_unload disjoint extent coded uncovered
  · intro hook member
    obtain ⟨inside, stays, unwritten⟩ := standing_of_unload member
    have stood := stands.stands hook inside
    have apart := extent hook inside
    rw [InstalledHook.Extends, if_neg stays] at apart
    refine stood.of_reads (Memory.read_overlay_apart _ _ apart)
      (stands.read_unload disjoint stood.placed.patched stood.nonempty ?_)
    intro other isOther _ source writtenBack
    refine stands.spans hook inside other (mem_standing.mpr (Or.inl isOther)) ?_
    rintro rfl
    rcases unwritten isOther source with notBack | ⟨isStray, patched⟩
    · exact notBack writtenBack
    · exact stands.forgotten hook isStray patched isOther
  · intro hook member other member' different
    exact stands.spans hook (standing_of_unload member).1 other (standing_of_unload member').1
      different
  · intro stray left patched inKept
    obtain ⟨inside, stays⟩ := kept inKept
    obtain ⟨_, old | ⟨_, source, _⟩⟩ := stray_of_unload left patched
    · exact stands.forgotten stray old patched inside
    · exact stays (Or.inr source)
  · exact fun hook member other member' => stands.slots hook (kept member).1 other (kept member').1
  · intro stray left patched hook member
    obtain ⟨inside, stays⟩ := kept member
    obtain ⟨_, old | ⟨isHook, source, _⟩⟩ := stray_of_unload left patched
    · exact stands.shared stray old patched hook inside
    · refine Or.inr (stands.slots stray isHook hook inside ?_)
      rintro rfl
      exact stays (Or.inr source)
  · exact fun hook member => stands.slot_unload disjoint (kept member).1 (kept member).2
  · exact fun hook member => stands.addressable hook (kept member).1
  · rw [HandleUnloadDll.loop_fst]
    exact stands.trampolines.sublist (List.Sublist.map _ List.filter_sublist)
  · intro hook member
    obtain ⟨inside, stays⟩ := kept member
    rw [Standing.allocations_unload fun other isOther removes same => ?_]
    · exact stands.allocated hook inside
    · have same := List.inj_on_of_nodup_map stands.trampolines inside isOther same
      exact stays (same ▸ removes)
  · intro region held
    obtain ⟨allocated, others⟩ := stands.held region held
    refine ⟨?_, fun hook member => others hook (standing_of_unload member).1⟩
    rwa [Standing.allocations_unload fun hook member _ =>
      (others hook (mem_standing.mpr (Or.inl member))).symm]
  · rw [images, Target.unmapImage]
    exact (Function.update_of_ne elsewhere.symm _ _).trans stands.images

end Unload

/-! ## All along -/

section History

variable {decode : Decoder} {hookImageBase : Nat} {code image : Nat → Prop} {initial target : Target}
  {pristine : Memory} {hooks strays : List InstalledHook}

theorem HookFunction.Written.moduleBases {calls : HookFunction.Calls} {originalFunction : Nat}
    {definition : HookDefinition} {after : Target} {hook : InstalledHook}
    (written : HookFunction.Written decode calls originalFunction hookImageBase definition target
      hook after) (source base : Nat) :
    HookFunction.Written decode calls originalFunction hookImageBase definition target
      { hook with sourceModuleBase := source, targetModuleBase := base } after :=
  { written with valid := written.valid }

/-- Whatever has happened to the hooks, the code is pristine apart from their patches. -/
theorem History.standing (within : DecodesWithin decode)
    (disjoint : ∀ address, code address → ¬image address)
    (history : History decode hookImageBase code image initial pristine hooks strays target) :
    Standing hookImageBase code image initial pristine hooks strays target := by
  induction history with
  | start =>
      constructor <;> simp [mem_standing]
  | runs _ elsewhere sameCode sameSlots sameImage inductionHypothesis =>
      exact inductionHypothesis.runs elsewhere sameCode sameSlots sameImage
  | @installs pristine hooks strays target calls originalFunction source base definition hook _ fits
      succeeds inductionHypothesis =>
      obtain ⟨newAddress, installed⟩ := HookFunction_installed succeeds
      have sized : CalculatePatchSize decode true originalFunction target ≠ 0 :=
        installed.overwrites.sized
      have elsewhere := fits.trampoline_apart sized
      rw [← installed.size] at elsewhere
      have written := HookFunction.Written.of_installed within succeeds elsewhere
      obtain ⟨trampolineExport, isSlot, found⟩ := written.slot
      refine inductionHypothesis.installs within disjoint fits
        (HookFunction_course decode calls originalFunction hookImageBase definition target)
        (written.moduleBases source base) ?_ ?_
      · refine installed.read_slot ?_
        rw [installed.size, ← isSlot]
        exact (fits.slot_apart disjoint sized found).symm
      · have after := congrArg Target.allocations installed.after
        rw [Target.withHook_allocations _ _ _ _ _ installed.overwrites.trampoline.allocated] at after
        rw [after]
        simp [installed.trampoline, TRAMPOLINE_SIZE]
  | @fails pristine hooks strays target calls originalFunction source base definition _ fits failed
      inductionHypothesis =>
      have course := HookFunction_course decode calls originalFunction hookImageBase definition
        target
      cases left : HookFunction.stray decode calls originalFunction hookImageBase definition
          target with
      | none =>
          have unwritten := HookFunction.not_overwrites_of_stray_none left failed
          simpa using inductionHypothesis.fails within disjoint fits course unwritten
      | some hook =>
          obtain ⟨_, installed, _⟩ := HookFunction.strayed_of_stray left
          have sized : CalculatePatchSize decode true originalFunction target ≠ 0 :=
            installed.overwrites.sized
          obtain ⟨trampolineExport, isSlot, found⟩ := installed.slotExport
          have elsewhere := fits.trampoline_apart sized
          have slotApart := fits.slot_apart disjoint sized found
          rw [← installed.size] at elsewhere slotApart
          rw [isSlot] at slotApart
          have written := HookFunction.Written.of_stray within left elsewhere slotApart
          exact inductionHypothesis.leaves within disjoint fits course
            (written.moduleBases source base)
  | unloads _ elsewhere extent inductionHypothesis =>
      exact inductionHypothesis.unloads disjoint elsewhere extent

end History

end ApiScope
