import ApiScope.Hook.Target
import ApiScope.Hook.Registry

/-!
# Installing and removing hooks

A hook overwrites the first instructions of a function by a jump to its
handler.  The overwritten instructions live on in a trampoline, followed by a
jump back, and the handler finds the trampoline through a slot in the hook
image.

Every function takes the outcomes of the remote calls it makes, one for each
call in its body; `DecodeInstruction64` is the decoder's answer.
-/

namespace ApiScope

def PATCH_SIZE : Nat := 14
def TRAMPOLINE_SIZE : Nat := 1024

structure DecodedInstruction where
  length : Nat
  hasRipRelativeMemory : Bool
  hasRelativeImmediate : Bool
  deriving DecidableEq, Repr

/-- `DecodeInstruction64` on the code it is given; `none` is a failure. -/
abbrev Decoder := List UInt8 → Option DecodedInstruction

structure RemoteTrampoline where
  address : Nat
  patchSize : Nat
  deriving DecidableEq, Repr

structure InstalledHook where
  canonicalName : List UInt8
  sourceModuleBase : Nat
  targetModuleBase : Nat
  originalFunction : Nat
  trampolineAddress : Nat
  trampolineSlot : Nat
  originalBytes : List UInt8
  deriving DecidableEq, Repr

/-- push imm32, mov dword [rsp+4], imm32, ret -/
def jumpCode (address : Nat) : List UInt8 :=
  0x68 :: Bytes.littleEndian 4 address ++ [0xC7, 0x44, 0x24, 0x04] ++
    Bytes.littleEndian 4 (address / 2 ^ 32) ++ [0xC3]

@[simp]
theorem length_jumpCode (address : Nat) : (jumpCode address).length = PATCH_SIZE := by
  simp [jumpCode, PATCH_SIZE]

/-- The bytes `PatchFunction` writes. -/
def patchCode (newAddress patchSize : Nat) : List UInt8 :=
  Bytes.overwrite (List.replicate patchSize 0x90) 0 (jumpCode newAddress)

@[simp]
theorem length_patchCode (newAddress patchSize : Nat) :
    (patchCode newAddress patchSize).length = patchSize := by
  simp [patchCode]

/-- The jump comes first and is padded with `nop`. -/
theorem patchCode_eq {patchSize : Nat} (long : PATCH_SIZE ≤ patchSize) (newAddress : Nat) :
    patchCode newAddress patchSize =
      jumpCode newAddress ++ List.replicate (patchSize - PATCH_SIZE) 0x90 := by
  unfold patchCode
  rw [Bytes.overwrite_eq _ _ _ (by simpa using long)]
  simp

/-- The bytes `CreateTrampoline` writes. -/
def trampolineCode (originalBytes : List UInt8) (jumpBackAddress : Nat) : List UInt8 :=
  originalBytes ++ jumpCode jumpBackAddress

/-! ## Trampolines -/

namespace CalculatePatchSize

/-- The loop over the instructions of the window.  It ends after at most
`PATCH_SIZE` rounds, since no accepted instruction is empty. -/
def loop (decode : Decoder) (buffer : List UInt8) : Nat → Nat → Nat
  | 0, totalSize => totalSize
  | rounds + 1, totalSize =>
      if totalSize < PATCH_SIZE ∧ totalSize < buffer.length then
        match decode (buffer.drop totalSize) with
        | none => 0
        | some instruction =>
            if instruction.length = 0 then 0
            else if instruction.hasRipRelativeMemory then 0
            else if instruction.hasRelativeImmediate then 0
            else loop decode buffer rounds (totalSize + instruction.length)
      else totalSize

end CalculatePatchSize

def CalculatePatchSize (decode : Decoder) (readWindow : Bool) (address : Nat)
    (target : Target) : Nat :=
  if readWindow then
    let totalSize :=
      CalculatePatchSize.loop decode (target.memory.read address 32) PATCH_SIZE 0
    if totalSize < PATCH_SIZE then 0 else totalSize
  else 0

/-- Remote calls of `CreateBypassTrampoline` and of the functions it calls. -/
inductive CreateBypassTrampoline.Call where
  | readWindow
  | readOriginal
  | writeCode
  | protect
  | flush
  | free

/-- What `VirtualAllocEx` returns, null on failure, and how the other calls end. -/
structure CreateBypassTrampoline.Calls where
  ok : CreateBypassTrampoline.Call → Bool
  allocation : Nat

def CreateTrampoline (calls : CreateBypassTrampoline.Calls)
    (originalFunction trampolineAddress patchSize : Nat) (target : Target) : Bool × Target :=
  if !calls.ok .readOriginal then (false, target)
  else
    let code := trampolineCode (target.memory.read originalFunction patchSize)
      (originalFunction + patchSize)
    if !calls.ok .writeCode then (false, target)
    else
      let target := target.WriteProcessMemory true trampolineAddress code
      (calls.ok .protect && calls.ok .flush, target)

def CreateBypassTrampoline (decode : Decoder) (calls : CreateBypassTrampoline.Calls)
    (originalFunction : Nat) (target : Target) : Option RemoteTrampoline × Target :=
  let patchSize := CalculatePatchSize decode (calls.ok .readWindow) originalFunction target
  if patchSize = 0 then (none, target)
  else if calls.allocation = 0 then (none, target)
  else
    let target := target.VirtualAllocEx calls.allocation TRAMPOLINE_SIZE
    match CreateTrampoline calls originalFunction calls.allocation patchSize target with
    | (false, target) => (none, target.VirtualFreeEx (calls.ok .free) calls.allocation)
    | (true, target) => (some ⟨calls.allocation, patchSize⟩, target)

def CreateBypassTrampolineForFunction (decode : Decoder) (calls : CreateBypassTrampoline.Calls)
    (moduleBase : Nat) (functionName : List UInt8) (target : Target) :
    Option RemoteTrampoline × Target :=
  match target.GetRemoteExport moduleBase functionName with
  | none => (none, target)
  | some remoteExport =>
      if remoteExport.address = 0 then (none, target)
      else CreateBypassTrampoline decode calls remoteExport.address target

/-! ## Hooks -/

/-- Remote calls of `PatchFunction`. -/
inductive PatchFunction.Call where
  | protect
  | write
  | reprotect
  | flush

def PatchFunction (ok : PatchFunction.Call → Bool) (originalFunction newAddress patchSize : Nat)
    (target : Target) : Bool × Target :=
  if !ok .protect then (false, target)
  else if !ok .write then (false, target)
  else
    let target :=
      target.WriteProcessMemory true originalFunction (patchCode newAddress patchSize)
    (ok .reprotect && ok .flush, target)

/-- Remote calls of `HookFunction`. -/
inductive HookFunction.Call where
  | trampoline (call : CreateBypassTrampoline.Call)
  | preserve
  | writeSlot
  | patch (call : PatchFunction.Call)
  | clearSlot
  | free

structure HookFunction.Calls where
  ok : HookFunction.Call → Bool
  allocation : Nat

def HookFunction (decode : Decoder) (calls : HookFunction.Calls)
    (originalFunction hookImageBase : Nat) (definition : HookDefinition) (target : Target) :
    Option InstalledHook × Target :=
  if originalFunction = 0 then (none, target)
  else
    match target.GetRemoteExport hookImageBase definition.handlerExport,
        target.GetRemoteExport hookImageBase definition.trampolineExport with
    | some handlerExport, some trampolineExport =>
        if handlerExport.address = 0 ∨ trampolineExport.address = 0 then (none, target)
        else
          match CreateBypassTrampoline decode ⟨calls.ok ∘ .trampoline, calls.allocation⟩
              originalFunction target with
          | (none, target) => (none, target)
          | (some trampoline, target) =>
              if !calls.ok .preserve then
                (none, target.VirtualFreeEx (calls.ok .free) trampoline.address)
              else
                let originalBytes := target.memory.read originalFunction trampoline.patchSize
                if !calls.ok .writeSlot then
                  (none, target.VirtualFreeEx (calls.ok .free) trampoline.address)
                else
                  let target := target.WriteProcessMemory true trampolineExport.address
                    (pointerBytes trampoline.address)
                  match PatchFunction (calls.ok ∘ .patch) originalFunction handlerExport.address
                      trampoline.patchSize target with
                  | (false, target) =>
                      (none, (target.WriteProcessMemory (calls.ok .clearSlot)
                        trampolineExport.address (pointerBytes 0)).VirtualFreeEx
                          (calls.ok .free) trampoline.address)
                  | (true, target) =>
                      (some
                        { canonicalName := definition.canonicalName
                          sourceModuleBase := 0
                          targetModuleBase := 0
                          originalFunction := originalFunction
                          trampolineAddress := trampoline.address
                          trampolineSlot := trampolineExport.address
                          originalBytes := originalBytes },
                        target)
    | _, _ => (none, target)

/-- Remote calls of `UnhookFunction`. -/
inductive UnhookFunction.Call where
  | protect
  | restore
  | reprotect
  | flush
  | clearSlot
  | free
  deriving DecidableEq, Repr

def UnhookFunction (ok : UnhookFunction.Call → Bool) (installedHook : InstalledHook)
    (target : Target) : Bool × Target :=
  if installedHook.originalFunction = 0 ∨ installedHook.trampolineAddress = 0 ∨
      installedHook.trampolineSlot = 0 ∨ installedHook.originalBytes = [] then
    (false, target)
  else if !ok .protect then (false, target)
  else
    let target := target.WriteProcessMemory (ok .restore) installedHook.originalFunction
      installedHook.originalBytes
    if !ok .restore || !ok .reprotect || !ok .flush then (false, target)
    else
      let target := target.WriteProcessMemory (ok .clearSlot) installedHook.trampolineSlot
        (pointerBytes 0)
      if !ok .clearSlot then (false, target)
      else (ok .free, target.VirtualFreeEx (ok .free) installedHook.trampolineAddress)

/-- Remote calls of `ReleaseUnloadedHook`. -/
inductive ReleaseUnloadedHook.Call where
  | clearSlot
  | free
  deriving DecidableEq, Repr

def ReleaseUnloadedHook (ok : ReleaseUnloadedHook.Call → Bool) (installedHook : InstalledHook)
    (target : Target) : Bool × Target :=
  let target := target.WriteProcessMemory (ok .clearSlot) installedHook.trampolineSlot
    (pointerBytes 0)
  let target := target.VirtualFreeEx (ok .free) installedHook.trampolineAddress
  (ok .clearSlot && ok .free, target)

end ApiScope
