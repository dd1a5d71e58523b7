import ApiScope.Library.Forward
import ApiScope.Library.Logged
import ApiScope.Hook.Effects

/-!
# Where a patch ends

`CalculatePatchSize` over the instructions that Zydis decodes.  A patch ends where
the first instruction ends that reaches the size of the jump, and every instruction
up to there has to mean the same at another address.
-/

namespace ApiScope

open Forward Logged

/-! ## The decoder -/

inductive ZydisRegister where
  | RIP
  | EIP
  | other (index : Nat)
  deriving DecidableEq, Repr

/-- An operand by its type, with the fields that are read. -/
inductive ZydisDecodedOperand where
  | UNUSED
  | REGISTER
  | MEMORY (base : ZydisRegister)
  | POINTER
  | IMMEDIATE (is_relative : Bool)
  deriving DecidableEq, Repr

structure ZydisDecodedInstruction where
  length : Nat
  operands : List ZydisDecodedOperand
  deriving DecidableEq, Repr

/-- `ZydisDecoderInit` and `ZydisDecoderDecodeFull`; `none` is a failure. -/
structure ZydisDecoder where
  init : Bool
  decodeFull : List UInt8 → Option ZydisDecodedInstruction

/-- The assumption on Zydis. -/
def ZydisDecoder.LengthsFit (zydis : ZydisDecoder) : Prop :=
  ∀ code instruction, zydis.decodeFull code = some instruction →
    1 ≤ instruction.length ∧ instruction.length ≤ 15 ∧ instruction.length ≤ code.length

namespace DecodeInstruction64

/-- The body of the loop over the operands. -/
def operand (result : DecodedInstruction) : ZydisDecodedOperand → DecodedInstruction
  | .MEMORY base =>
      if base = .RIP ∨ base = .EIP then { result with hasRipRelativeMemory := true } else result
  | .IMMEDIATE is_relative =>
      if is_relative then { result with hasRelativeImmediate := true } else result
  | _ => result

end DecodeInstruction64

def DecodeInstruction64 (zydis : ZydisDecoder) : Decoder := fun code =>
  if code = [] then none
  else if !zydis.init then none
  else
    match zydis.decodeFull code with
    | none => none
    | some instruction =>
        some (instruction.operands.foldl DecodeInstruction64.operand
          { length := instruction.length
            hasRipRelativeMemory := false
            hasRelativeImmediate := false })

/-! ## The windows that are decoded -/

namespace CalculatePatchSize

/-- The loop with the code it hands to the decoder, `buffer + totalSize` and
`bytesRead - totalSize` of type `SIZE_T`. -/
def decodes (decode : Decoder) (buffer : List UInt8) : Nat → Nat → Logged Span Nat
  | 0, totalSize => pure totalSize
  | rounds + 1, totalSize =>
      if totalSize < PATCH_SIZE ∧ totalSize < buffer.length then do
        let codeSize := (buffer.length + 2 ^ 64 - totalSize) % 2 ^ 64
        match ← emit ⟨totalSize, codeSize⟩ (decode (Bytes.slice buffer totalSize codeSize)) with
        | none => pure 0
        | some instruction =>
            if instruction.length = 0 then pure 0
            else if instruction.hasRipRelativeMemory then pure 0
            else if instruction.hasRelativeImmediate then pure 0
            else decodes decode buffer rounds (totalSize + instruction.length)
      else pure totalSize

end CalculatePatchSize

/-! ## The first boundary -/

/-- The instruction refers to its own address. -/
def ZydisDecodedInstruction.IsRelative (instruction : ZydisDecodedInstruction) : Prop :=
  .MEMORY .RIP ∈ instruction.operands ∨ .MEMORY .EIP ∈ instruction.operands ∨
    .IMMEDIATE true ∈ instruction.operands

instance (instruction : ZydisDecodedInstruction) : Decidable instruction.IsRelative :=
  inferInstanceAs (Decidable (_ ∨ _ ∨ _))

namespace ZydisDecoder

variable (zydis : ZydisDecoder) (window : List UInt8)

/-- The instruction at an offset. -/
def instructionAt (offset : Nat) : Option ZydisDecodedInstruction :=
  if zydis.init then zydis.decodeFull (window.drop offset) else none

/-- Where the next instruction starts. -/
def next (offset : Nat) : Option Nat :=
  (zydis.instructionAt window offset).map fun instruction => offset + instruction.length

/-- The first boundary of two instructions that leaves room for the jump, behind
instructions that can be moved. -/
structure PatchEnds (boundary : Nat) : Prop where
  first : First (zydis.next window) PATCH_SIZE 0 boundary
  movable : ∀ offset < boundary, Leads (zydis.next window) 0 offset →
    ∀ instruction, zydis.instructionAt window offset = some instruction → ¬instruction.IsRelative

end ZydisDecoder

/-! ## What the decoder reports -/

section Decoded

variable {zydis : ZydisDecoder} {window : List UInt8}

namespace DecodeInstruction64

variable {operands : List ZydisDecodedOperand} {result : DecodedInstruction}

@[simp]
theorem length_foldl_operand : (operands.foldl operand result).length = result.length := by
  induction operands generalizing result with
  | nil => rfl
  | cons first rest inductionHypothesis =>
      rw [List.foldl_cons, inductionHypothesis]
      cases first <;> simp only [operand] <;> split_ifs <;> rfl

/-- A flag is set behind all operands if it was set or one of them sets it. -/
theorem flag_foldl_operand {flag : DecodedInstruction → Bool} {sets : ZydisDecodedOperand → Prop}
    (each : ∀ result first, flag (operand result first) = true ↔ flag result = true ∨ sets first) :
    flag (operands.foldl operand result) = true ↔
      flag result = true ∨ ∃ first ∈ operands, sets first := by
  induction operands generalizing result with
  | nil => simp
  | cons first rest inductionHypothesis =>
      rw [List.foldl_cons, inductionHypothesis, each, or_assoc, List.exists_mem_cons_iff]

theorem hasRipRelativeMemory_foldl_operand :
    (operands.foldl operand result).hasRipRelativeMemory = true ↔
      result.hasRipRelativeMemory = true ∨ .MEMORY .RIP ∈ operands ∨
        .MEMORY .EIP ∈ operands := by
  have either : (∃ first ∈ operands, first = .MEMORY .RIP ∨ first = .MEMORY .EIP) ↔
      .MEMORY .RIP ∈ operands ∨ .MEMORY .EIP ∈ operands := by
    simp only [and_or_left, exists_or, exists_eq_right]
  rw [← either]
  refine flag_foldl_operand fun result first => ?_
  cases first with
  | MEMORY base => cases base <;> simp [operand]
  | IMMEDIATE is_relative => cases is_relative <;> simp [operand]
  | _ => simp [operand]

theorem hasRelativeImmediate_foldl_operand :
    (operands.foldl operand result).hasRelativeImmediate = true ↔
      result.hasRelativeImmediate = true ∨ .IMMEDIATE true ∈ operands := by
  rw [← exists_eq_right (p := fun first => first ∈ operands)]
  refine flag_foldl_operand fun result first => ?_
  cases first with
  | MEMORY base => cases base <;> simp [operand]
  | IMMEDIATE is_relative => cases is_relative <;> simp [operand]
  | _ => simp [operand]

end DecodeInstruction64

/-- What the decoder reports of an instruction. -/
def ZydisDecodedInstruction.reported (instruction : ZydisDecodedInstruction) :
    DecodedInstruction :=
  instruction.operands.foldl DecodeInstruction64.operand
    { length := instruction.length
      hasRipRelativeMemory := false
      hasRelativeImmediate := false }

@[simp]
theorem ZydisDecodedInstruction.length_reported (instruction : ZydisDecodedInstruction) :
    instruction.reported.length = instruction.length :=
  DecodeInstruction64.length_foldl_operand

theorem ZydisDecodedInstruction.isRelative_iff (instruction : ZydisDecodedInstruction) :
    instruction.IsRelative ↔
      instruction.reported.hasRipRelativeMemory = true ∨
        instruction.reported.hasRelativeImmediate = true := by
  unfold IsRelative reported
  rw [DecodeInstruction64.hasRipRelativeMemory_foldl_operand,
    DecodeInstruction64.hasRelativeImmediate_foldl_operand, or_iff_right Bool.false_ne_true,
    or_iff_right Bool.false_ne_true, or_assoc]

theorem DecodeInstruction64_drop {offset : Nat} (inside : offset < window.length) :
    DecodeInstruction64 zydis (window.drop offset) =
      (zydis.instructionAt window offset).map ZydisDecodedInstruction.reported := by
  have present : window.drop offset ≠ [] := by
    intro empty
    exact absurd (List.drop_eq_nil_iff.mp empty) inside.not_ge
  rw [DecodeInstruction64, if_neg present, ZydisDecoder.instructionAt]
  cases zydis.init with
  | false => rfl
  | true =>
      cases decoded : zydis.decodeFull (window.drop offset) with
      | none => simp
      | some instruction => simp [ZydisDecodedInstruction.reported]

namespace ZydisDecoder

/-- An instruction lies in what is left of the window. -/
theorem LengthsFit.instructionAt (lengthsFit : zydis.LengthsFit) {offset : Nat}
    {instruction : ZydisDecodedInstruction}
    (decoded : zydis.instructionAt window offset = some instruction) :
    1 ≤ instruction.length ∧ instruction.length ≤ 15 ∧
      offset + instruction.length ≤ window.length := by
  unfold ZydisDecoder.instructionAt at decoded
  split_ifs at decoded
  obtain ⟨some_, short, inside⟩ := lengthsFit _ _ decoded
  rw [List.length_drop] at inside
  exact ⟨some_, short, by omega⟩

theorem next_eq_some {before after : Nat} :
    zydis.next window before = some after ↔
      ∃ instruction, zydis.instructionAt window before = some instruction ∧
        before + instruction.length = after :=
  Option.map_eq_some_iff

theorem LengthsFit.forward (lengthsFit : zydis.LengthsFit) (window : List UInt8) (before after : Nat)
    (step : zydis.next window before = some after) : before < after := by
  obtain ⟨instruction, decoded, rfl⟩ := next_eq_some.mp step
  exact Nat.lt_add_of_pos_right (lengthsFit.instructionAt decoded).1

/-- The last instruction starts in front of the size of the jump. -/
theorem PatchEnds.le (lengthsFit : zydis.LengthsFit) {boundary : Nat}
    (ends : zydis.PatchEnds window boundary) : boundary ≤ 28 ∧ boundary ≤ window.length := by
  obtain ⟨point, early, _, step⟩ :=
    ends.first.last (lengthsFit.forward window) (by decide : 0 < PATCH_SIZE)
  obtain ⟨instruction, decoded, rfl⟩ := next_eq_some.mp step
  obtain ⟨_, short, inside⟩ := lengthsFit.instructionAt decoded
  rw [PATCH_SIZE] at early
  exact ⟨by omega, inside⟩

end ZydisDecoder

/-! ## The loop -/

namespace CalculatePatchSize

/-- From an offset on, the loop finds the first boundary, unless an instruction on
the way fails or cannot be moved. -/
theorem loop_iff (lengthsFit : zydis.LengthsFit) (long : PATCH_SIZE ≤ window.length)
    {rounds totalSize boundary : Nat} (enough : PATCH_SIZE ≤ totalSize + rounds) :
    loop (DecodeInstruction64 zydis) window rounds totalSize = boundary ∧
        PATCH_SIZE ≤ boundary ↔
      First (zydis.next window) PATCH_SIZE totalSize boundary ∧
        ∀ offset < boundary, Leads (zydis.next window) totalSize offset →
          ∀ instruction, zydis.instructionAt window offset = some instruction →
            ¬instruction.IsRelative := by
  have forward := lengthsFit.forward window
  -- at or past the size of the jump, no instruction is left to look at
  have arrived {rounds totalSize : Nat} (far : PATCH_SIZE ≤ totalSize) :
      totalSize = boundary ∧ PATCH_SIZE ≤ boundary ↔
        First (zydis.next window) PATCH_SIZE totalSize boundary ∧
          ∀ offset < boundary, Leads (zydis.next window) totalSize offset →
            ∀ instruction, zydis.instructionAt window offset = some instruction →
              ¬instruction.IsRelative := by
    rw [first_iff_eq forward far]
    constructor
    · rintro ⟨rfl, _⟩
      exact ⟨rfl, fun offset before leads => absurd (leads.le forward) before.not_ge⟩
    · rintro ⟨rfl, _⟩
      exact ⟨rfl, far⟩
  induction rounds generalizing totalSize with
  | zero => exact @arrived 0 totalSize enough
  | succ rounds inductionHypothesis =>
      rw [loop]
      by_cases short : totalSize < PATCH_SIZE
      · have inside : totalSize < window.length := short.trans_le long
        have stays {value : Nat} (early : value < PATCH_SIZE) :
            ¬(value = boundary ∧ PATCH_SIZE ≤ boundary) := by
          rintro ⟨rfl, far⟩
          exact far.not_gt early
        rw [if_pos ⟨short, inside⟩, DecodeInstruction64_drop inside]
        cases decoded : zydis.instructionAt window totalSize with
        | none =>
            have failed : 0 < PATCH_SIZE := by decide
            refine iff_of_false (stays failed) fun found => ?_
            exact not_first short (Option.map_eq_none_iff.mpr decoded) found.1
        | some instruction =>
            obtain ⟨some_, _, _⟩ := lengthsFit.instructionAt decoded
            have step : zydis.next window totalSize = some (totalSize + instruction.length) :=
              ZydisDecoder.next_eq_some.mpr ⟨instruction, decoded, rfl⟩
            rw [Option.map_some]
            dsimp only
            rw [ZydisDecodedInstruction.length_reported, if_neg (by omega)]
            by_cases relative : instruction.IsRelative
            · refine iff_of_false ?_ fun found => ?_
              · rcases instruction.isRelative_iff.mp relative with memory | immediate
                · rw [if_pos memory]
                  exact stays (by decide)
                · rw [if_pos immediate, ite_self]
                  exact stays (by decide)
              · exact found.2 totalSize (short.trans_le found.1.past) .refl _ decoded relative
            · have flags := not_or.mp (instruction.isRelative_iff.not.mp relative)
              have rest := @inductionHypothesis (totalSize + instruction.length) (by omega)
              rw [if_neg flags.1, if_neg flags.2, first_step short step]
              refine rest.trans ?_
              refine and_congr_right fun first => ?_
              constructor
              · intro movable offset before leads other isOther
                rcases (leads_iff step).mp leads with rfl | leads
                · obtain rfl := Option.some.inj (decoded.symm.trans isOther)
                  exact relative
                · exact movable offset before leads other isOther
              · intro movable offset before leads
                exact movable offset before (leads.head step)
      · rw [if_neg fun continues => short continues.1]
        exact @arrived (rounds + 1) totalSize (Nat.le_of_not_lt short)

variable {decode : Decoder}

/-- The code handed to the decoder is what is left of the window. -/
theorem slice_codeSize {totalSize : Nat} (inside : totalSize < window.length)
    (addressable : window.length < 2 ^ 64) :
    (window.length + 2 ^ 64 - totalSize) % 2 ^ 64 = window.length - totalSize ∧
      Bytes.slice window totalSize (window.length - totalSize) = window.drop totalSize := by
  refine ⟨by omega, List.take_of_length_le ?_⟩
  rw [List.length_drop]

theorem value_decodes (addressable : window.length < 2 ^ 64) (rounds totalSize : Nat) :
    (decodes decode window rounds totalSize).value = loop decode window rounds totalSize := by
  induction rounds generalizing totalSize with
  | zero => rfl
  | succ rounds inductionHypothesis =>
      rw [decodes, loop]
      by_cases continues : totalSize < PATCH_SIZE ∧ totalSize < window.length
      · obtain ⟨isSize, isDrop⟩ := slice_codeSize continues.2 addressable
        rw [if_pos continues, if_pos continues, isSize]
        dsimp only
        rw [isDrop, value_bind, value_emit]
        cases decode (window.drop totalSize) with
        | none => rfl
        | some instruction =>
            dsimp only
            split_ifs
            · rfl
            · rfl
            · rfl
            · exact inductionHypothesis _
      · rw [if_neg continues, if_neg continues]
        rfl

/-- Every code handed to the decoder ends with the bytes that were read. -/
theorem all_decodes (addressable : window.length < 2 ^ 64) (rounds totalSize : Nat) :
    All (Span.Below window.length) (decodes decode window rounds totalSize) := by
  induction rounds generalizing totalSize with
  | zero => exact all_pure _
  | succ rounds inductionHypothesis =>
      rw [decodes]
      by_cases continues : totalSize < PATCH_SIZE ∧ totalSize < window.length
      · obtain ⟨isSize, isDrop⟩ := slice_codeSize continues.2 addressable
        rw [if_pos continues, isSize]
        dsimp only
        rw [isDrop, all_bind, all_emit, value_emit]
        refine ⟨?_, ?_⟩
        · apply Nat.le_of_eq
          exact Nat.add_sub_of_le continues.2.le
        · cases decode (window.drop totalSize) with
          | none => exact all_pure _
          | some instruction =>
              dsimp only
              split_ifs
              · exact all_pure _
              · exact all_pure _
              · exact all_pure _
              · exact inductionHypothesis _
      · rw [if_neg continues]
        exact all_pure _

/-- An accepted instruction is not empty, so the decoder is called at most once for
every byte of the jump. -/
theorem length_log_decodes (rounds totalSize : Nat) :
    (decodes decode window rounds totalSize).log.length ≤ PATCH_SIZE - totalSize := by
  induction rounds generalizing totalSize with
  | zero => exact Nat.zero_le _
  | succ rounds inductionHypothesis =>
      rw [decodes]
      by_cases continues : totalSize < PATCH_SIZE ∧ totalSize < window.length
      · have one : 1 ≤ PATCH_SIZE - totalSize := Nat.sub_pos_of_lt continues.1
        rw [if_pos continues]
        dsimp only
        rw [log_bind, value_emit, List.length_append]
        cases decode _ with
        | none => exact one
        | some instruction =>
            dsimp only
            split_ifs with empty
            · exact one
            · exact one
            · exact one
            · have rest := inductionHypothesis (totalSize + instruction.length)
              rw [log_emit, List.length_singleton]
              omega
      · rw [if_neg continues]
        exact Nat.zero_le _

/-- The loop has ended before its bound. -/
theorem loop_of_enough {rounds more totalSize : Nat} (enough : PATCH_SIZE ≤ totalSize + rounds)
    (enoughMore : PATCH_SIZE ≤ totalSize + more) :
    loop decode window rounds totalSize = loop decode window more totalSize := by
  induction rounds generalizing more totalSize with
  | zero =>
      cases more with
      | zero => rfl
      | succ more => rw [loop, loop, if_neg fun continues => enough.not_gt continues.1]
  | succ rounds inductionHypothesis =>
      cases more with
      | zero => rw [loop, loop, if_neg fun continues => enoughMore.not_gt continues.1]
      | succ more =>
          rw [loop, loop]
          by_cases continues : totalSize < PATCH_SIZE ∧ totalSize < window.length
          · rw [if_pos continues, if_pos continues]
            cases decode (window.drop totalSize) with
            | none => rfl
            | some instruction =>
                dsimp only
                split_ifs
                · rfl
                · rfl
                · rfl
                · exact inductionHypothesis (by omega) (by omega)
          · rw [if_neg continues, if_neg continues]

end CalculatePatchSize

/-! ## The size -/

variable {address : Nat} {target : Target}

theorem CalculatePatchSize_eq_iff (lengthsFit : zydis.LengthsFit) {readWindow : Bool}
    {patchSize : Nat} :
    CalculatePatchSize (DecodeInstruction64 zydis) readWindow address target = patchSize ∧
        patchSize ≠ 0 ↔
      readWindow = true ∧ zydis.PatchEnds (target.memory.read address 32) patchSize := by
  cases readWindow with
  | false =>
      refine iff_of_false ?_ fun found => Bool.false_ne_true found.1
      rintro ⟨rfl, present⟩
      exact present rfl
  | true =>
      have long : PATCH_SIZE ≤ (target.memory.read address 32).length := by
        rw [Memory.length_read, PATCH_SIZE]
        decide
      have found := @CalculatePatchSize.loop_iff zydis _ lengthsFit long PATCH_SIZE 0 patchSize
        (Nat.le_add_left _ _)
      rw [CalculatePatchSize, if_pos rfl, and_iff_right rfl]
      constructor
      · rintro ⟨isSize, present⟩
        dsimp only at isSize
        split_ifs at isSize with short
        · exact absurd isSize.symm present
        · obtain ⟨first, movable⟩ := found.mp ⟨isSize, isSize ▸ Nat.le_of_not_lt short⟩
          exact ⟨first, movable⟩
      · rintro ⟨first, movable⟩
        obtain ⟨isSize, far⟩ := found.mpr ⟨first, movable⟩
        dsimp only
        rw [isSize, if_neg far.not_gt]
        exact ⟨rfl, (Nat.lt_of_lt_of_le (by decide) far).ne'⟩

end Decoded

/-- The size of a patch is the first boundary that leaves room for the jump, behind
instructions that can be moved; where there is none, there is no patch. -/
theorem patchSize_iff (zydis : ZydisDecoder) (lengthsFit : zydis.LengthsFit) (readWindow : Bool)
    (address : Nat) (target : Target) :
    let window := target.memory.read address 32
    let decode := DecodeInstruction64 zydis
    let patchSize := CalculatePatchSize decode readWindow address target
    (∀ boundary, patchSize = boundary ∧ boundary ≠ 0 ↔
      readWindow = true ∧ zydis.PatchEnds window boundary) ∧
    (∀ boundary, zydis.PatchEnds window boundary →
      PATCH_SIZE ≤ boundary ∧ boundary ≤ 28 ∧ boundary + PATCH_SIZE ≤ TRAMPOLINE_SIZE) ∧
    ((¬∃ boundary, readWindow = true ∧ zydis.PatchEnds window boundary) → patchSize = 0) ∧
    ∀ rounds, PATCH_SIZE ≤ rounds →
      let run := CalculatePatchSize.decodes decode window rounds 0
      run.value = CalculatePatchSize.loop decode window PATCH_SIZE 0 ∧
        run.log.length ≤ PATCH_SIZE ∧ All (Span.Below 32) run := by
  have isLength := Memory.length_read target.memory address 32
  have addressable : (target.memory.read address 32).length < 2 ^ 64 := by
    rw [isLength]
    decide
  refine ⟨fun boundary => CalculatePatchSize_eq_iff lengthsFit, fun boundary ends => ?_,
    fun none_ => ?_, fun rounds enough => ⟨?_, ?_, ?_⟩⟩
  · have short := (ends.le lengthsFit).1
    refine ⟨ends.first.past, short, ?_⟩
    rw [PATCH_SIZE, TRAMPOLINE_SIZE]
    omega
  · by_contra present
    exact none_ ⟨_, (CalculatePatchSize_eq_iff lengthsFit).mp ⟨rfl, present⟩⟩
  · rw [CalculatePatchSize.value_decodes addressable]
    exact CalculatePatchSize.loop_of_enough (by omega) (by omega)
  · exact CalculatePatchSize.length_log_decodes rounds 0
  · have below := @CalculatePatchSize.all_decodes (target.memory.read address 32)
      (DecodeInstruction64 zydis) addressable rounds 0
    rw [isLength] at below
    exact below

namespace PatchSize.Sample

/-- `nop`, `mov rax, [rax]` and `mov rax, [rip + disp32]`. -/
def zydis : ZydisDecoder where
  init := true
  decodeFull
    | 0x90 :: _ => some ⟨1, []⟩
    | 0x48 :: 0x8B :: 0x00 :: _ => some ⟨3, [.REGISTER, .MEMORY (.other 0)]⟩
    | 0x48 :: 0x8B :: 0x05 :: _ :: _ :: _ :: _ :: _ => some ⟨7, [.REGISTER, .MEMORY .RIP]⟩
    | _ => none

theorem lengthsFit : zydis.LengthsFit := by
  intro code instruction decoded
  simp only [zydis] at decoded
  split at decoded
  all_goals cases decoded
  all_goals simp

/-- Thirteen `nop`s and a `mov rax, [rax]`. -/
def target : Target where
  memory := fun address =>
    if address = 0x3100D then 0x48
    else if address = 0x3100E then 0x8B
    else if address = 0x3100F then 0x00
    else 0x90
  images := fun _ => none
  allocations := fun _ => 0
  log := []

end PatchSize.Sample

/-- The last instruction of the patch reaches past the jump. -/
theorem patchSize_iff_sample :
    PatchSize.Sample.zydis.PatchEnds (PatchSize.Sample.target.memory.read 0x31000 32) 16 ∧
      CalculatePatchSize (DecodeInstruction64 PatchSize.Sample.zydis) true 0x31000
        PatchSize.Sample.target = 16 := by
  have size : CalculatePatchSize (DecodeInstruction64 PatchSize.Sample.zydis) true 0x31000
      PatchSize.Sample.target = 16 := by
    decide +kernel
  have found := (patchSize_iff PatchSize.Sample.zydis PatchSize.Sample.lengthsFit true 0x31000
    PatchSize.Sample.target).1 16
  exact ⟨(found.mp ⟨size, by decide⟩).2, size⟩

end ApiScope
