import Mathlib.Order.Bounds.Basic
import ApiScope.Hook.Effects
import ApiScope.Library.Processor

/-!
# Executing a patch and a trampoline

The jump pushes the low half of its destination, writes the high half over the
sign extension and returns.  It leaves a trace in the eight bytes below the
stack pointer only.  A trampoline is the block of instructions that the patch
overwrites, at another place, and such a jump.
-/

namespace ApiScope

/-! ## The machine -/

/-- `registers` are all registers but the stack pointer, with the flags. -/
structure Machine (Registers : Type) where
  rsp : BitVec 64
  registers : Registers
  memory : AddressSpace

namespace Machine

variable {Registers : Type} (machine : Machine Registers)

def push (value : BitVec 64) : Machine Registers :=
  { machine with
    rsp := machine.rsp - 8
    memory := machine.memory.store (machine.rsp - 8) (Bytes.littleEndian 8 value.toNat) }

/-- A store of 32 bits four bytes above the stack pointer. -/
def storeHigh (value : BitVec 32) : Machine Registers :=
  { machine with
    memory := machine.memory.store (machine.rsp + 4) (Bytes.littleEndian 4 value.toNat) }

def top : BitVec 64 := BitVec.ofNat 64 (Bytes.ofLittleEndian (machine.memory.load machine.rsp 8))

def pop : Machine Registers := { machine with rsp := machine.rsp + 8 }

/-- The machines differ at most in the eight bytes below the stack pointer. -/
structure Undisturbed (after : Machine Registers) : Prop where
  rsp : after.rsp = machine.rsp
  registers : after.registers = machine.registers
  memory : ∀ address, 8 ≤ (address - (machine.rsp - 8)).toNat →
    after.memory address = machine.memory address

end Machine

/-- push imm32 -/
def pushImm32 (immediate : BitVec 32) : List UInt8 :=
  0x68 :: Bytes.littleEndian 4 immediate.toNat

/-- mov dword [rsp+4], imm32 -/
def movRsp4Imm32 (immediate : BitVec 32) : List UInt8 :=
  [0xC7, 0x44, 0x24, 0x04] ++ Bytes.littleEndian 4 immediate.toNat

/-- ret -/
def ret : List UInt8 := [0xC3]

/-- A processor on which the instructions of the jump mean what they do in
64-bit mode. -/
structure X86 (Registers : Type) extends Processor (Machine Registers) where
  isInstruction_push : ∀ immediate, toProcessor.IsInstruction (pushImm32 immediate)
  isInstruction_mov : ∀ immediate, toProcessor.IsInstruction (movRsp4Imm32 immediate)
  isInstruction_ret : toProcessor.IsInstruction ret
  execute_push : ∀ immediate cpu, execute (pushImm32 immediate) cpu =
    ⟨cpu.ip + 5, cpu.state.push (immediate.signExtend 64)⟩
  execute_mov : ∀ immediate cpu, execute (movRsp4Imm32 immediate) cpu =
    ⟨cpu.ip + 8, cpu.state.storeHigh immediate⟩
  execute_ret : ∀ cpu, execute ret cpu = ⟨cpu.state.top, cpu.state.pop⟩

/-! ## The jump -/

theorem jumpCode_eq (address : Nat) :
    jumpCode address = pushImm32 (BitVec.ofNat 32 address) ++
      (movRsp4Imm32 (BitVec.ofNat 32 (address / 2 ^ 32)) ++ ret) := by
  have low : Bytes.littleEndian 4 (BitVec.ofNat 32 address).toNat =
      Bytes.littleEndian 4 address := Bytes.littleEndian_mod 4 address
  have high : Bytes.littleEndian 4 (BitVec.ofNat 32 (address / 2 ^ 32)).toNat =
      Bytes.littleEndian 4 (address / 2 ^ 32) := Bytes.littleEndian_mod 4 _
  rw [jumpCode, pushImm32, movRsp4Imm32, ret, low, high]
  simp only [List.cons_append, List.append_assoc, List.nil_append]

/-- Whatever the sign extension puts above them, the low bytes are those of the
immediate. -/
theorem littleEndian_signExtend (address : Nat) :
    Bytes.littleEndian 4 ((BitVec.ofNat 32 address).signExtend 64).toNat =
      Bytes.littleEndian 4 address := by
  have low : ((BitVec.ofNat 32 address).signExtend 64).toNat % 256 ^ 4 = address % 256 ^ 4 := by
    rw [BitVec.toNat_signExtend, BitVec.toNat_setWidth, BitVec.toNat_ofNat]
    split <;> omega
  rw [← Bytes.littleEndian_mod 4 address, ← low, Bytes.littleEndian_mod]

/-- The eight bytes of an address, in the order in which the jump stores its halves. -/
theorem littleEndian_halves (address : Nat) :
    Bytes.littleEndian 8 address =
      Bytes.littleEndian 4 address ++ Bytes.littleEndian 4 (address / 2 ^ 32) :=
  Bytes.littleEndian_add 4 4 address

namespace Machine

variable {Registers : Type} (machine : Machine Registers)

/-- The machine with other bytes below the stack pointer. -/
def storeBelow (bytes : List UInt8) : Machine Registers :=
  { machine with memory := machine.memory.store (machine.rsp - 8) bytes }

theorem undisturbed_storeBelow {bytes : List UInt8} (eight : bytes.length = 8) :
    machine.Undisturbed (machine.storeBelow bytes) where
  rsp := rfl
  registers := rfl
  memory := fun address outside =>
    machine.memory.store_of_outside (by rw [eight]; exact outside)

/-- The two stores of the jump leave its destination below the stack pointer. -/
theorem storeHigh_push (address : Nat) :
    (machine.push ((BitVec.ofNat 32 address).signExtend 64)).storeHigh
        (BitVec.ofNat 32 (address / 2 ^ 32)) =
      { machine.storeBelow (Bytes.littleEndian 8 address) with rsp := machine.rsp - 8 } := by
  have pushed : Bytes.littleEndian 8 ((BitVec.ofNat 32 address).signExtend 64).toNat =
      Bytes.littleEndian 4 address ++ Bytes.littleEndian 4
        (((BitVec.ofNat 32 address).signExtend 64).toNat / 2 ^ 32) := by
    rw [littleEndian_halves, littleEndian_signExtend]
  have high : Bytes.littleEndian 4 (BitVec.ofNat 32 (address / 2 ^ 32)).toNat =
      Bytes.littleEndian 4 (address / 2 ^ 32) := Bytes.littleEndian_mod 4 _
  have stored := @AddressSpace.store_store_append machine.memory (machine.rsp - 8)
    (Bytes.littleEndian 4 address)
    (Bytes.littleEndian 4 (((BitVec.ofNat 32 address).signExtend 64).toNat / 2 ^ 32))
    (Bytes.littleEndian 4 (address / 2 ^ 32)) (by simp) (by simp)
  rw [Bytes.length_littleEndian] at stored
  rw [push, storeHigh, storeBelow, pushed, high, littleEndian_halves]
  exact congrArg (fun memory => (⟨_, _, memory⟩ : Machine Registers)) stored

/-- Returning to an address that lies below the stack pointer. -/
theorem top_storeBelow (address : Nat) :
    ({ machine.storeBelow (Bytes.littleEndian 8 address) with
        rsp := machine.rsp - 8 } : Machine Registers).top = BitVec.ofNat 64 address := by
  have loaded := @AddressSpace.load_store machine.memory (machine.rsp - 8)
    (Bytes.littleEndian 8 address) (by simp)
  rw [Bytes.length_littleEndian] at loaded
  rw [top, storeBelow, loaded, Bytes.ofLittleEndian_littleEndian]
  apply BitVec.eq_of_toNat_eq
  rw [BitVec.toNat_ofNat, BitVec.toNat_ofNat]
  exact Nat.mod_mod address (2 ^ 64)

end Machine

/-- The jump goes to its destination. -/
theorem X86.run_jumpCode {Registers : Type} (processor : X86 Registers) {code : AddressSpace}
    {ip : BitVec 64} {address : Nat} (holds : code.HoldsAt ip (jumpCode address))
    (machine : Machine Registers) :
    processor.run code 3 ⟨ip, machine⟩ =
      some ⟨BitVec.ofNat 64 address, machine.storeBelow (Bytes.littleEndian 8 address)⟩ := by
  rw [jumpCode_eq, AddressSpace.holdsAt_append, AddressSpace.holdsAt_append] at holds
  obtain ⟨atPush, atMov, atRet⟩ := holds
  have pushLength : (pushImm32 (BitVec.ofNat 32 address)).length = 5 := by simp [pushImm32]
  have movLength : (movRsp4Imm32 (BitVec.ofNat 32 (address / 2 ^ 32))).length = 8 := by
    simp [movRsp4Imm32]
  rw [pushLength] at atMov
  rw [pushLength, movLength] at atRet
  rw [Processor.run_succ_of_holdsAt (processor.isInstruction_push _) atPush,
    processor.execute_push]
  change processor.run code 2 ⟨ip + 5#64, _⟩ = _
  rw [Processor.run_succ_of_holdsAt (processor.isInstruction_mov _) atMov,
    processor.execute_mov]
  change processor.run code 1 ⟨ip + 5#64 + 8#64, _⟩ = _
  rw [Machine.storeHigh_push, Processor.run_succ_of_holdsAt processor.isInstruction_ret atRet,
    processor.execute_ret, Machine.top_storeBelow, Processor.run]
  have popped : ({ machine.storeBelow (Bytes.littleEndian 8 address) with
      rsp := machine.rsp - 8 } : Machine Registers).pop =
        machine.storeBelow (Bytes.littleEndian 8 address) := by
    rw [Machine.pop, BitVec.sub_add_cancel]
    rfl
  rw [popped]

/-! ## What is overwritten -/

namespace CalculatePatchSize

/-- The instructions that the loop accepts. -/
def instructions (decode : Decoder) (buffer : List UInt8) : Nat → Nat → List (List UInt8)
  | 0, _ => []
  | rounds + 1, totalSize =>
      if totalSize < PATCH_SIZE ∧ totalSize < buffer.length then
        match decode (buffer.drop totalSize) with
        | none => []
        | some instruction =>
            (buffer.drop totalSize).take instruction.length ::
              instructions decode buffer rounds (totalSize + instruction.length)
      else []

/-- `DecodeInstruction64` finds the lengths of a processor. -/
def Agrees {State : Type*} (decode : Decoder) (processor : Processor State) : Prop :=
  ∀ code, (decode code).map DecodedInstruction.length = processor.decode code

variable {State : Type*} {processor : Processor State} {decode : Decoder}

/-- The accepted instructions are those the bytes of the patch consist of, and
only the last one reaches the size of the jump. -/
theorem loop_instructions (agrees : Agrees decode processor) {buffer : List UInt8}
    {rounds totalSize : Nat} (inside : totalSize ≤ buffer.length)
    (accepted : PATCH_SIZE ≤ loop decode buffer rounds totalSize) :
    totalSize + (instructions decode buffer rounds totalSize).flatten.length =
        loop decode buffer rounds totalSize ∧
      (instructions decode buffer rounds totalSize).flatten <+: buffer.drop totalSize ∧
      (∀ instruction ∈ instructions decode buffer rounds totalSize,
        processor.IsInstruction instruction) ∧
      (instructions decode buffer rounds totalSize ≠ [] →
        totalSize + (instructions decode buffer rounds totalSize).dropLast.flatten.length <
          PATCH_SIZE) := by
  induction rounds generalizing totalSize with
  | zero => exact ⟨rfl, List.nil_prefix, by simp [instructions], by simp [instructions]⟩
  | succ rounds inductionHypothesis =>
      rw [loop] at accepted ⊢
      rw [instructions]
      by_cases continues : totalSize < PATCH_SIZE ∧ totalSize < buffer.length
      · rw [if_pos continues] at accepted ⊢
        rw [if_pos continues]
        have lengths := agrees (buffer.drop totalSize)
        cases decoded : decode (buffer.drop totalSize) with
        | none => simp [decoded, PATCH_SIZE] at accepted
        | some instruction =>
            simp only [decoded] at accepted ⊢
            rw [decoded, Option.map_some] at lengths
            have fits := (processor.length_le lengths.symm).2
            have size : ((buffer.drop totalSize).take instruction.length).length =
                instruction.length := List.length_take_of_le fits
            rw [List.length_drop] at fits
            split_ifs at accepted ⊢
            · exact absurd accepted (by decide)
            · exact absurd accepted (by decide)
            · exact absurd accepted (by decide)
            · obtain ⟨total, ⟨behind, isBehind⟩, each, short⟩ :=
                inductionHypothesis (by omega) accepted
              refine ⟨?_, ⟨behind, ?_⟩, ?_, fun _ => ?_⟩
              · rw [List.flatten_cons, List.length_append, size, ← Nat.add_assoc]
                exact total
              · rw [List.flatten_cons, List.append_assoc, isBehind, ← List.drop_drop,
                  List.take_append_drop]
              · exact List.forall_mem_cons.mpr ⟨Processor.isInstruction_take lengths.symm, each⟩
              · by_cases last : instructions decode buffer rounds
                    (totalSize + instruction.length) = []
                · simpa [last] using continues.1
                · rw [List.dropLast_cons_of_ne_nil last, List.flatten_cons, List.length_append,
                    size, ← Nat.add_assoc]
                  exact short last
      · rw [if_neg continues] at accepted ⊢
        rw [if_neg continues]
        exact ⟨rfl, List.nil_prefix, by simp, by simp⟩

end CalculatePatchSize

/-- The instructions that `CalculatePatchSize` accepts. -/
def acceptedInstructions (decode : Decoder) (address : Nat) (target : Target) :
    List (List UInt8) :=
  CalculatePatchSize.instructions decode (target.memory.read address 32) PATCH_SIZE 0

section Accepted

variable {State : Type*} {processor : Processor State} {decode : Decoder} {address : Nat}
  {target : Target}

theorem CalculatePatchSize_eq_loop
    (sized : CalculatePatchSize decode true address target ≠ 0) :
    CalculatePatchSize.loop decode (target.memory.read address 32) PATCH_SIZE 0 =
        CalculatePatchSize decode true address target ∧
      PATCH_SIZE ≤ CalculatePatchSize decode true address target := by
  unfold CalculatePatchSize at sized ⊢
  simp only [if_true] at sized ⊢
  split_ifs at sized ⊢ with short
  · exact absurd rfl sized
  · exact ⟨rfl, Nat.le_of_not_lt short⟩

theorem acceptedInstructions_spec (agrees : CalculatePatchSize.Agrees decode processor)
    (sized : CalculatePatchSize decode true address target ≠ 0) :
    (acceptedInstructions decode address target).flatten =
        target.memory.read address (CalculatePatchSize decode true address target) ∧
      (∀ instruction ∈ acceptedInstructions decode address target,
        processor.IsInstruction instruction) ∧
      (acceptedInstructions decode address target ≠ [] →
        (acceptedInstructions decode address target).dropLast.flatten.length < PATCH_SIZE) := by
  obtain ⟨isLoop, long⟩ := CalculatePatchSize_eq_loop sized
  obtain ⟨total, isPrefix, each, short⟩ := CalculatePatchSize.loop_instructions agrees
    (Nat.zero_le (target.memory.read address 32).length) (isLoop ▸ long)
  have isAccepted : CalculatePatchSize.instructions decode (target.memory.read address 32)
      PATCH_SIZE 0 = acceptedInstructions decode address target := rfl
  rw [isAccepted] at total isPrefix each short
  rw [Nat.zero_add, isLoop] at total
  rw [List.drop_zero] at isPrefix
  refine ⟨?_, each, fun nonempty => ?_⟩
  · have fits := isPrefix.length_le
    rw [Memory.length_read] at fits
    rw [List.prefix_iff_eq_take.mp isPrefix, Memory.take_read _ _ fits, total]
  · rw [← Nat.zero_add (_ : List UInt8).length]
    exact short nonempty

end Accepted

/-! ## The hooked function -/

section Hooked

variable {Registers : Type} (processor : X86 Registers) {decode : Decoder}

/-- The bytes `PatchFunction` writes lead to the handler. -/
theorem run_patch {newAddress patchSize : Nat} {code : AddressSpace} {ip : BitVec 64}
    (long : PATCH_SIZE ≤ patchSize) (holds : code.HoldsAt ip (patchCode newAddress patchSize))
    (machine : Machine Registers) :
    processor.run code 3 ⟨ip, machine⟩ = some ⟨BitVec.ofNat 64 newAddress,
      machine.storeBelow (Bytes.littleEndian 8 newAddress)⟩ := by
  rw [patchCode_eq long, AddressSpace.holdsAt_append] at holds
  exact processor.run_jumpCode holds.1 machine

/-- Once the original bytes are read and the code can be written, it is written. -/
theorem CreateTrampoline_of_open {calls : CreateBypassTrampoline.Calls}
    (readOriginal : calls.ok .readOriginal = true) (writeCode : calls.ok .writeCode = true)
    (originalFunction trampolineAddress patchSize : Nat) (target : Target) :
    CreateTrampoline calls originalFunction trampolineAddress patchSize target =
      (calls.ok .protect && calls.ok .flush,
        target.WriteProcessMemory true trampolineAddress
          (trampolineCode (target.memory.read originalFunction patchSize)
            (originalFunction + patchSize))) := by
  simp [CreateTrampoline, readOriginal, writeCode]

/-- When its calls up to the write succeed, `PatchFunction` writes a patch over the
function that leads to the handler.  When its calls up to the write succeed,
`CreateTrampoline` writes a trampoline that does what the overwritten instructions
do and goes on behind them.  Neither leaves more of a trace than the jump in the
eight bytes below the stack pointer.  The trampoline goes on at the first boundary
the jump, and also the whole patch, does not overwrite. -/
theorem hooked_function_preserved (agrees : CalculatePatchSize.Agrees decode processor.toProcessor)
    {originalFunction newAddress trampolineAddress : BitVec 64} {patchSize : Nat} {target : Target}
    (isSize : CalculatePatchSize decode true originalFunction.toNat target = patchSize)
    (sized : patchSize ≠ 0)
    (fallThrough : ∀ instruction ∈ acceptedInstructions decode originalFunction.toNat target,
      processor.FallsThrough instruction)
    {original : AddressSpace}
    (unpatched : original.HoldsAt originalFunction
      (target.memory.read originalFunction.toNat patchSize)) :
    (∀ (ok : PatchFunction.Call → Bool) (process : Target),
      ok .protect = true → ok .write = true → ∃ patch patched,
        PatchFunction ok originalFunction.toNat newAddress.toNat patchSize process =
            (ok .reprotect && ok .flush, patched) ∧
          patched.log = process.log ++ [.write originalFunction.toNat patch] ∧
          patched.memory.read originalFunction.toNat patchSize = patch ∧
          ∀ code : AddressSpace, code.HoldsAt originalFunction patch → ∀ machine, ∃ after,
            processor.run code 3 ⟨originalFunction, machine⟩ = some ⟨newAddress, after⟩ ∧
              machine.Undisturbed after) ∧
    (∀ calls : CreateBypassTrampoline.Calls,
      calls.ok .readOriginal = true → calls.ok .writeCode = true → ∃ trampoline written,
        CreateTrampoline calls originalFunction.toNat trampolineAddress.toNat patchSize target =
            (calls.ok .protect && calls.ok .flush, written) ∧
          written.log = target.log ++ [.write trampolineAddress.toNat trampoline] ∧
          written.memory.read trampolineAddress.toNat (patchSize + PATCH_SIZE) = trampoline ∧
          ∀ code : AddressSpace, code.HoldsAt trampolineAddress trampoline → ∀ machine,
            ∃ steps behind after,
              processor.run original steps ⟨originalFunction, machine⟩ =
                  some ⟨originalFunction + BitVec.ofNat 64 patchSize, behind⟩ ∧
                processor.run code steps ⟨trampolineAddress, machine⟩ =
                  some ⟨trampolineAddress + BitVec.ofNat 64 patchSize, behind⟩ ∧
                processor.run code (steps + 3) ⟨trampolineAddress, machine⟩ =
                  some ⟨originalFunction + BitVec.ofNat 64 patchSize, after⟩ ∧
                behind.Undisturbed after) ∧
    IsLeast {offset | processor.Boundary original originalFunction offset ∧
      patchSize ≤ offset} patchSize ∧
    IsLeast {offset | processor.Boundary original originalFunction offset ∧
      PATCH_SIZE ≤ offset} patchSize := by
  subst isSize
  obtain ⟨_, long⟩ := CalculatePatchSize_eq_loop sized
  obtain ⟨flatten, each, short⟩ := acceptedInstructions_spec agrees sized
  have size : (acceptedInstructions decode originalFunction.toNat target).flatten.length =
      CalculatePatchSize decode true originalFunction.toNat target := by
    rw [flatten, Memory.length_read]
  obtain ⟨transform, runs⟩ := Processor.run_block each fallThrough
  rw [flatten, Memory.length_read] at runs
  have loaded := unpatched
  rw [← flatten] at loaded
  have boundary := Processor.boundary_flatten each loaded
  rw [size] at boundary
  refine ⟨fun ok process protect write => ⟨_, _,
      PatchFunction_of_open _ _ protect write _ _, rfl, ?_, fun code holds machine => ?_⟩,
    fun calls readOriginal writeCode => ⟨_, _,
      CreateTrampoline_of_open readOriginal writeCode _ _ _ _, rfl, ?_,
      fun code holds machine => ?_⟩, ⟨⟨boundary, le_refl _⟩, ?_⟩, ⟨⟨boundary, long⟩, ?_⟩⟩
  · have back := process.memory.read_write originalFunction.toNat (patchCode newAddress.toNat
      (CalculatePatchSize decode true originalFunction.toNat target))
    rwa [length_patchCode] at back
  · refine ⟨machine.storeBelow (Bytes.littleEndian 8 newAddress.toNat), ?_,
      machine.undisturbed_storeBelow (Bytes.length_littleEndian _ _)⟩
    rw [run_patch processor long holds, BitVec.ofNat_toNat, BitVec.setWidth_eq]
  · have back := target.memory.read_write trampolineAddress.toNat (trampolineCode
      (target.memory.read originalFunction.toNat
        (CalculatePatchSize decode true originalFunction.toNat target))
      (originalFunction.toNat + CalculatePatchSize decode true originalFunction.toNat target))
    rwa [trampolineCode, List.length_append, Memory.length_read, length_jumpCode] at back
  · rw [trampolineCode, AddressSpace.holdsAt_append, Memory.length_read] at holds
    refine ⟨_, transform machine, (transform machine).storeBelow (Bytes.littleEndian 8
      (originalFunction.toNat + CalculatePatchSize decode true originalFunction.toNat target)),
      runs original _ unpatched machine, runs code _ holds.1 machine, ?_,
      Machine.undisturbed_storeBelow _ (Bytes.length_littleEndian _ _)⟩
    rw [Processor.run_add, runs code _ holds.1 machine, Option.bind_some,
      processor.run_jumpCode holds.2, BitVec.ofNat_add, BitVec.ofNat_toNat, BitVec.setWidth_eq]
  · exact fun offset outside => outside.2
  · intro offset outside
    rw [← size]
    exact Processor.length_flatten_le each loaded short outside.1 outside.2

end Hooked

/-! ## A small processor -/

namespace X86.Sample

/-- The jump and `nop`. -/
def decode : List UInt8 → Option Nat
  | [] => none
  | opcode :: rest =>
      if opcode = 0x90 ∨ opcode = 0xC3 then some 1
      else if opcode = 0x68 ∧ 4 ≤ rest.length then some 5
      else if opcode = 0xC7 ∧ 7 ≤ rest.length then some 8
      else none

def immediate (bytes : List UInt8) : BitVec 32 := BitVec.ofNat 32 (Bytes.ofLittleEndian bytes)

def execute (instruction : List UInt8) (cpu : Cpu (Machine Unit)) : Cpu (Machine Unit) :=
  if instruction = ret then ⟨cpu.state.top, cpu.state.pop⟩
  else
    let ip := cpu.ip + BitVec.ofNat 64 instruction.length
    if instruction.head? = some 0x68 then
      ⟨ip, cpu.state.push ((immediate (instruction.drop 1)).signExtend 64)⟩
    else if instruction.head? = some 0xC7 then
      ⟨ip, cpu.state.storeHigh (immediate (instruction.drop 4))⟩
    else ⟨ip, cpu.state⟩

theorem decode_cons {opcode : UInt8} {rest : List UInt8} {length : Nat}
    (decoded : decode (opcode :: rest) = some length) :
    length ≤ 8 ∧ ∃ more, length = more + 1 ∧ more ≤ rest.length ∧
      ∀ other, more ≤ other.length → decode (opcode :: other) = some length := by
  simp only [decode] at decoded ⊢
  split_ifs at decoded with single push mov
  · cases decoded
    exact ⟨by decide, 0, rfl, Nat.zero_le _, fun other _ => by rw [if_pos single]⟩
  · cases decoded
    exact ⟨by decide, 4, rfl, push.2, fun other long => by
      rw [if_neg single, if_pos ⟨push.1, long⟩]⟩
  · cases decoded
    refine ⟨by decide, 7, rfl, mov.2, fun other long => ?_⟩
    have noPush : ¬(opcode = 0x68 ∧ 4 ≤ other.length) := by
      rintro ⟨isPush, _⟩
      rw [isPush] at mov
      exact absurd mov.1 (by decide)
    rw [if_neg single, if_neg noPush, if_pos ⟨mov.1, long⟩]

theorem immediate_littleEndian (value : BitVec 32) :
    immediate (Bytes.littleEndian 4 value.toNat) = value := by
  apply BitVec.eq_of_toNat_eq
  rw [immediate, Bytes.ofLittleEndian_littleEndian, BitVec.toNat_ofNat]
  have small := value.isLt
  omega

def processor : X86 Unit where
  window := 15
  decode := decode
  execute := execute
  length_le := by
    intro code length decoded
    cases code with
    | nil => cases decoded
    | cons opcode rest =>
        obtain ⟨short, more, rfl, fits, _⟩ := decode_cons decoded
        exact ⟨by omega, Nat.succ_le_succ fits⟩
  decode_take := by
    intro code length decoded behind
    cases code with
    | nil => cases decoded
    | cons opcode rest =>
        obtain ⟨_, more, rfl, fits, own⟩ := decode_cons decoded
        rw [List.take_succ_cons, List.cons_append]
        exact own _ (by rw [List.length_append, List.length_take_of_le fits]; omega)
  isInstruction_push := fun value => by simp [Processor.IsInstruction, pushImm32, decode]
  isInstruction_mov := fun value => by simp [Processor.IsInstruction, movRsp4Imm32, decode]
  isInstruction_ret := rfl
  execute_push := fun value cpu => by
    simp [execute, pushImm32, ret, immediate_littleEndian]
  execute_mov := fun value cpu => by
    simp [execute, movRsp4Imm32, ret, immediate_littleEndian]
  execute_ret := fun cpu => rfl

def decoder : Decoder := fun code => (decode code).map fun length => ⟨length, false, false⟩

/-- A function that begins with `push 0x90909090`; everything else is `nop`. -/
def target : Target :=
  { memory := fun address => if address = 0x31000 then 0x68 else 0x90
    images := fun _ => none
    allocations := fun _ => 0
    log := [] }

def machine : Machine Unit := ⟨0x7FFE0000, (), fun _ => 0⟩

/-- The code of a target. -/
def code (target : Target) : AddressSpace := fun address => target.memory address.toNat

def patched : Target := (PatchFunction (fun _ => true) 0x31000 0x7FF6800AB0C0 14 target).2

def bypassed : Target := (CreateTrampoline ⟨fun _ => true, 0xE0000⟩ 0x31000 0xE0000 14 target).2

end X86.Sample

/-- A handler above four gigabytes whose address has bit 31 set.  The original
instructions move the stack pointer, in their place and in the trampoline alike. -/
theorem hooked_function_preserved_sample :
    (∃ after, X86.Sample.processor.run (X86.Sample.code X86.Sample.patched) 3
        ⟨0x31000, X86.Sample.machine⟩ = some ⟨0x7FF6800AB0C0, after⟩ ∧
      X86.Sample.machine.Undisturbed after) ∧
    ∃ steps behind after,
      X86.Sample.processor.run (X86.Sample.code X86.Sample.target) steps
          ⟨0x31000, X86.Sample.machine⟩ = some ⟨0x3100E, behind⟩ ∧
        X86.Sample.processor.run (X86.Sample.code X86.Sample.bypassed) (steps + 3)
          ⟨0xE0000, X86.Sample.machine⟩ = some ⟨0x3100E, after⟩ ∧
        behind.Undisturbed after := by
  have agrees : CalculatePatchSize.Agrees X86.Sample.decoder X86.Sample.processor.toProcessor := by
    intro code
    show Option.map _ (Option.map _ (X86.Sample.decode code)) = X86.Sample.decode code
    rw [Option.map_map]
    exact congrFun Option.map_id _
  have size : CalculatePatchSize X86.Sample.decoder true (0x31000 : BitVec 64).toNat
      X86.Sample.target = 14 := by
    decide +kernel
  have fallThrough : ∀ instruction ∈ acceptedInstructions X86.Sample.decoder
      (0x31000 : BitVec 64).toNat X86.Sample.target,
      X86.Sample.processor.FallsThrough instruction := by
    have instructions : ∀ instruction ∈ acceptedInstructions X86.Sample.decoder
        (0x31000 : BitVec 64).toNat X86.Sample.target,
        instruction = pushImm32 0x90909090 ∨ instruction = [0x90] := by
      decide +kernel
    intro instruction member
    rcases instructions instruction member with rfl | rfl
    · exact ⟨fun state => state.push ((0x90909090 : BitVec 32).signExtend 64),
        X86.Sample.processor.execute_push _⟩
    · exact ⟨id, fun cpu => rfl⟩
  have unpatched : (X86.Sample.code X86.Sample.target).HoldsAt (0x31000 : BitVec 64)
      (X86.Sample.target.memory.read (0x31000 : BitVec 64).toNat 14) := by
    unfold AddressSpace.HoldsAt
    decide +kernel
  obtain ⟨patches, bypasses, _⟩ := @hooked_function_preserved Unit X86.Sample.processor
    X86.Sample.decoder agrees 0x31000 0x7FF6800AB0C0 0xE0000 14 X86.Sample.target size
    (by decide) fallThrough _ unpatched
  constructor
  · obtain ⟨patch, patched, isPatched, _, isPatch, runs⟩ :=
      patches (fun _ => true) X86.Sample.target rfl rfl
    refine runs (X86.Sample.code X86.Sample.patched) ?_ X86.Sample.machine
    have isTarget : patched = X86.Sample.patched := (congrArg Prod.snd isPatched).symm
    rw [← isPatch, isTarget]
    unfold AddressSpace.HoldsAt
    decide +kernel
  · obtain ⟨trampoline, bypassed, isBypassed, _, isTrampoline, runs⟩ :=
      bypasses ⟨fun _ => true, 0xE0000⟩ rfl rfl
    have isTarget : bypassed = X86.Sample.bypassed := (congrArg Prod.snd isBypassed).symm
    obtain ⟨steps, behind, after, original, _, whole, undisturbed⟩ :=
      runs (X86.Sample.code X86.Sample.bypassed) (by
        rw [← isTrampoline, isTarget]
        unfold AddressSpace.HoldsAt
        decide +kernel) X86.Sample.machine
    exact ⟨steps, behind, after, original, whole, undisturbed⟩

end ApiScope
