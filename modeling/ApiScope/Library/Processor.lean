import Mathlib.Algebra.Group.Nat.Defs
import Mathlib.Data.List.GetD

/-!
# Straight-line machine code

A processor finds the length of the instruction at its instruction pointer and
executes its bytes.  Code is not changed while it is executed.  Instructions
that fall through do the same wherever they lie.
-/

/-- Bytes under 64-bit addresses, which wrap around. -/
abbrev AddressSpace := BitVec 64 → UInt8

namespace AddressSpace

variable (space : AddressSpace)

def load (address : BitVec 64) (count : Nat) : List UInt8 :=
  (List.range count).map fun index => space (address + BitVec.ofNat 64 index)

def store (address : BitVec 64) (bytes : List UInt8) : AddressSpace := fun target =>
  bytes.getD (target - address).toNat (space target)

@[simp]
theorem length_load (address : BitVec 64) (count : Nat) :
    (space.load address count).length = count := by
  simp [load]

theorem load_add (address : BitVec 64) (count more : Nat) :
    space.load address (count + more) =
      space.load address count ++ space.load (address + BitVec.ofNat 64 count) more := by
  unfold load
  rw [List.range_add, List.map_append, List.map_map]
  refine congrArg _ (List.map_congr_left fun index _ => ?_)
  rw [Function.comp_apply, BitVec.ofNat_add, BitVec.add_assoc]

/-- The offset of an address behind another one. -/
theorem toNat_add_sub (address : BitVec 64) {index : Nat} (small : index < 2 ^ 64) :
    (address + BitVec.ofNat 64 index - address).toNat = index := by
  rw [BitVec.add_comm, BitVec.add_sub_cancel, BitVec.toNat_ofNat, Nat.mod_eq_of_lt small]

theorem load_store (address : BitVec 64) {bytes : List UInt8} (short : bytes.length ≤ 2 ^ 64) :
    (space.store address bytes).load address bytes.length = bytes := by
  apply List.ext_getElem
  · simp
  · intro index _ inside
    have small : index < 2 ^ 64 := Nat.lt_of_lt_of_le inside short
    simp only [load, List.getElem_map, List.getElem_range, store, toNat_add_sub address small]
    exact List.getD_eq_getElem _ _ inside

/-- A store changes nothing outside its bytes. -/
theorem store_of_outside {address target : BitVec 64} {bytes : List UInt8}
    (outside : bytes.length ≤ (target - address).toNat) :
    space.store address bytes target = space target :=
  List.getD_eq_default _ _ outside

/-- Storing over the end of what has been stored. -/
theorem store_store_append (address : BitVec 64) {first old new : List UInt8}
    (sameLength : old.length = new.length) (short : first.length + new.length ≤ 2 ^ 64) :
    (space.store address (first ++ old)).store (address + BitVec.ofNat 64 first.length) new =
      space.store address (first ++ new) := by
  funext target
  unfold store
  by_cases before : (target - address).toNat < first.length
  · have behind : new.length ≤
        (target - (address + BitVec.ofNat 64 first.length)).toNat := by
      bv_omega
    rw [List.getD_eq_default _ _ behind, List.getD_append _ _ _ _ before,
      List.getD_append _ _ _ _ before]
  · rw [Nat.not_lt] at before
    have offset : (target - (address + BitVec.ofNat 64 first.length)).toNat =
        (target - address).toNat - first.length := by
      bv_omega
    rw [offset, List.getD_append_right _ _ _ _ before, List.getD_append_right _ _ _ _ before]
    by_cases inside : (target - address).toNat - first.length < new.length
    · rw [List.getD_eq_getElem _ _ inside, List.getD_eq_getElem _ _ inside]
    · rw [Nat.not_lt] at inside
      rw [List.getD_eq_default _ _ inside, List.getD_eq_default _ _ inside,
        List.getD_eq_default _ _ (sameLength ▸ inside)]

/-- These bytes lie at an address. -/
def HoldsAt (address : BitVec 64) (bytes : List UInt8) : Prop :=
  space.load address bytes.length = bytes

variable {space}

theorem holdsAt_append {address : BitVec 64} {first second : List UInt8} :
    space.HoldsAt address (first ++ second) ↔
      space.HoldsAt address first ∧
        space.HoldsAt (address + BitVec.ofNat 64 first.length) second := by
  unfold HoldsAt
  rw [List.length_append, load_add]
  constructor
  · intro holds
    exact List.append_inj holds (length_load _ _ _)
  · rintro ⟨isFirst, isSecond⟩
    rw [isFirst, isSecond]

/-- A window on the code begins with the bytes that lie there. -/
theorem HoldsAt.window {address : BitVec 64} {bytes : List UInt8}
    (holds : space.HoldsAt address bytes) {count : Nat} (longer : bytes.length ≤ count) :
    ∃ rest, space.load address count = bytes ++ rest := by
  obtain ⟨more, rfl⟩ := Nat.exists_eq_add_of_le longer
  exact ⟨_, by rw [load_add, holds]⟩

end AddressSpace

/-- The instruction pointer and everything else. -/
structure Cpu (State : Type*) where
  ip : BitVec 64
  state : State

/-- `decode` finds the length of the instruction some code begins with.  It reads
at most `window` bytes and nothing behind the instruction. -/
structure Processor (State : Type*) where
  window : Nat
  decode : List UInt8 → Option Nat
  execute : List UInt8 → Cpu State → Cpu State
  length_le : ∀ {code : List UInt8} {length : Nat},
    decode code = some length → length ≤ window ∧ length ≤ code.length
  decode_take : ∀ {code : List UInt8} {length : Nat},
    decode code = some length → ∀ rest, decode (code.take length ++ rest) = some length

namespace Processor

variable {State : Type*} (processor : Processor State)

def step (code : AddressSpace) (cpu : Cpu State) : Option (Cpu State) :=
  (processor.decode (code.load cpu.ip processor.window)).map fun length =>
    processor.execute (code.load cpu.ip length) cpu

def run (code : AddressSpace) : Nat → Cpu State → Option (Cpu State)
  | 0, cpu => some cpu
  | steps + 1, cpu => (processor.step code cpu).bind (run code steps)

theorem run_add (code : AddressSpace) (steps more : Nat) (cpu : Cpu State) :
    processor.run code (steps + more) cpu =
      (processor.run code steps cpu).bind (processor.run code more) := by
  induction steps generalizing cpu with
  | zero => rw [Nat.zero_add, run, Option.bind_some]
  | succ steps inductionHypothesis =>
      rw [Nat.add_right_comm, run, run, Option.bind_assoc]
      exact congrArg _ (funext inductionHypothesis)

/-- The bytes of one instruction. -/
def IsInstruction (instruction : List UInt8) : Prop :=
  processor.decode instruction = some instruction.length

variable {processor}

theorem IsInstruction.decode {instruction : List UInt8}
    (isInstruction : processor.IsInstruction instruction) (rest : List UInt8) :
    processor.decode (instruction ++ rest) = some instruction.length := by
  simpa using processor.decode_take isInstruction rest

theorem isInstruction_take {code : List UInt8} {length : Nat}
    (decoded : processor.decode code = some length) :
    processor.IsInstruction (code.take length) := by
  have own := processor.decode_take decoded []
  rw [List.append_nil] at own
  rw [IsInstruction, own, List.length_take_of_le (processor.length_le decoded).2]

/-- An instruction is recognised wherever it lies. -/
theorem IsInstruction.decode_load {instruction : List UInt8}
    (isInstruction : processor.IsInstruction instruction) {code : AddressSpace}
    {address : BitVec 64} (holds : code.HoldsAt address instruction) :
    processor.decode (code.load address processor.window) = some instruction.length := by
  obtain ⟨rest, isWindow⟩ := holds.window (processor.length_le isInstruction).1
  rw [isWindow]
  exact isInstruction.decode rest

theorem step_of_holdsAt {instruction : List UInt8}
    (isInstruction : processor.IsInstruction instruction) {code : AddressSpace} {cpu : Cpu State}
    (holds : code.HoldsAt cpu.ip instruction) :
    processor.step code cpu = some (processor.execute instruction cpu) := by
  rw [step, isInstruction.decode_load holds, Option.map_some, holds]

theorem run_succ_of_holdsAt {instruction : List UInt8}
    (isInstruction : processor.IsInstruction instruction) {code : AddressSpace}
    {address : BitVec 64} (holds : code.HoldsAt address instruction) (steps : Nat)
    (state : State) :
    processor.run code (steps + 1) ⟨address, state⟩ =
      processor.run code steps (processor.execute instruction ⟨address, state⟩) := by
  have stepped := @step_of_holdsAt _ processor _ isInstruction code ⟨address, state⟩ holds
  rw [run, stepped, Option.bind_some]

/-! ## Blocks -/

variable (processor) in
/-- The instruction transforms the state in the same way wherever it lies, and
the one behind it is next. -/
def FallsThrough (instruction : List UInt8) : Prop :=
  ∃ transform : State → State, ∀ cpu, processor.execute instruction cpu =
    ⟨cpu.ip + BitVec.ofNat 64 instruction.length, transform cpu.state⟩

/-- A block of instructions that fall through transforms the state in the same
way wherever it lies. -/
theorem run_block {instructions : List (List UInt8)}
    (decoded : ∀ instruction ∈ instructions, processor.IsInstruction instruction)
    (fallThrough : ∀ instruction ∈ instructions, processor.FallsThrough instruction) :
    ∃ transform : State → State, ∀ (code : AddressSpace) (address : BitVec 64),
      code.HoldsAt address instructions.flatten → ∀ state,
        processor.run code instructions.length ⟨address, state⟩ =
          some ⟨address + BitVec.ofNat 64 instructions.flatten.length, transform state⟩ := by
  induction instructions with
  | nil => exact ⟨id, fun code address _ state => by simp [run]⟩
  | cons instruction rest inductionHypothesis =>
      rw [List.forall_mem_cons] at decoded fallThrough
      obtain ⟨first, isFirst⟩ := fallThrough.1
      obtain ⟨others, isOthers⟩ := inductionHypothesis decoded.2 fallThrough.2
      refine ⟨others ∘ first, fun code address holds state => ?_⟩
      rw [List.flatten_cons, AddressSpace.holdsAt_append] at holds
      rw [List.length_cons, run, step_of_holdsAt decoded.1 holds.1, Option.bind_some, isFirst,
        isOthers code _ holds.2, List.flatten_cons, List.length_append, BitVec.ofNat_add,
        BitVec.add_assoc]
      rfl

/-! ## Boundaries -/

variable (processor) in
/-- Offsets at which instructions begin, when the code is read from an address on. -/
inductive Boundary (code : AddressSpace) : BitVec 64 → Nat → Prop where
  | here {address : BitVec 64} : Boundary code address 0
  | behind {address : BitVec 64} {length offset : Nat} :
      processor.decode (code.load address processor.window) = some length →
      Boundary code (address + BitVec.ofNat 64 length) offset →
      Boundary code address (length + offset)

theorem boundary_flatten {instructions : List (List UInt8)}
    (decoded : ∀ instruction ∈ instructions, processor.IsInstruction instruction)
    {code : AddressSpace} {address : BitVec 64}
    (holds : code.HoldsAt address instructions.flatten) :
    processor.Boundary code address instructions.flatten.length := by
  induction instructions generalizing address with
  | nil => exact .here
  | cons instruction rest inductionHypothesis =>
      rw [List.forall_mem_cons] at decoded
      rw [List.flatten_cons, AddressSpace.holdsAt_append] at holds
      rw [List.flatten_cons, List.length_append]
      exact .behind (decoded.1.decode_load holds.1) (inductionHypothesis decoded.2 holds.2)

/-- A block that reaches a bound only with its last instruction ends at the first
boundary from that bound on. -/
theorem length_flatten_le {instructions : List (List UInt8)}
    (decoded : ∀ instruction ∈ instructions, processor.IsInstruction instruction)
    {code : AddressSpace} {address : BitVec 64}
    (holds : code.HoldsAt address instructions.flatten) {bound : Nat}
    (before : instructions ≠ [] → instructions.dropLast.flatten.length < bound) {offset : Nat}
    (boundary : processor.Boundary code address offset) (reached : bound ≤ offset) :
    instructions.flatten.length ≤ offset := by
  induction instructions generalizing address bound offset with
  | nil => exact Nat.zero_le _
  | cons instruction rest inductionHypothesis =>
      rw [List.forall_mem_cons] at decoded
      rw [List.flatten_cons, AddressSpace.holdsAt_append] at holds
      have positive := before (by simp)
      cases boundary with
      | here => omega
      | @behind _ length offset atAddress boundary =>
          have isLength : length = instruction.length :=
            Option.some.inj (atAddress.symm.trans (decoded.1.decode_load holds.1))
          subst isLength
          rw [List.flatten_cons, List.length_append]
          refine Nat.add_le_add_left (@inductionHypothesis decoded.2 _ holds.2
            (bound - instruction.length) (fun more => ?_) offset boundary (by omega)) _
          rw [List.dropLast_cons_of_ne_nil more, List.flatten_cons, List.length_append] at positive
          omega

end Processor
