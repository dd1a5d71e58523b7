import ApiScope.Library.Memory
import ApiScope.Process.Exports
import Mathlib.Algebra.Order.Ring.Int
import Mathlib.Data.List.TakeWhile

/-!
# Byte loops

The comparisons and the copy of `memory_utils.cpp`, one byte at a time and from the lowest address
on.  Addresses do not wrap around, and a pointer that a loop only gives back is
left out.
-/

namespace ApiScope.MemoryUtils

open Bytes

/-- The loop runs over a number of bytes at most: nothing in the code ends it but
the bytes themselves. -/
def CustomStrCmp (memory : Memory) : Nat → Nat → Nat → Option Int
  | 0, _, _ => none
  | count + 1, left, right =>
      if memory left ≠ 0 ∧ memory left = memory right then
        CustomStrCmp memory count (left + 1) (right + 1)
      else some ((memory left).toNat - (memory right).toNat)

def CustomMemCmp (memory : Memory) : Nat → Nat → Nat → Int
  | _, _, 0 => 0
  | left, right, count + 1 =>
      if memory left ≠ memory right then (memory left).toNat - (memory right).toNat
      else CustomMemCmp memory (left + 1) (right + 1) count

def CustomMemCpy (memory : Memory) : Nat → Nat → Nat → Memory
  | _, _, 0 => memory
  | dest, src, count + 1 =>
      CustomMemCpy (memory.write dest [memory src]) (dest + 1) (src + 1) count

/-! ## Comparisons -/

variable {memory : Memory}

/-- A difference of two bytes has the sign of their order. -/
theorem difference_neg_iff (left right : UInt8) :
    (left.toNat : Int) - right.toNat < 0 ↔ left < right := by
  rw [UInt8.lt_iff_toNat_lt]
  omega

theorem difference_eq_zero_iff (left right : UInt8) :
    (left.toNat : Int) - right.toNat = 0 ↔ left = right := by
  rw [← UInt8.toNat_inj]
  omega

theorem customMemCmp_spec (left right count : Nat) :
    (CustomMemCmp memory left right count = 0 ↔
      memory.read left count = memory.read right count) ∧
    (CustomMemCmp memory left right count < 0 ↔
      memory.read left count < memory.read right count) := by
  induction count generalizing left right with
  | zero => exact ⟨iff_of_true rfl rfl, iff_of_false (lt_irrefl _) (List.not_lt_nil _)⟩
  | succ count inductionHypothesis =>
      obtain ⟨same, before⟩ := inductionHypothesis (left + 1) (right + 1)
      rw [CustomMemCmp, Memory.read, Memory.read, List.cons.injEq, List.cons_lt_cons_iff]
      by_cases equal : memory left = memory right
      · rw [if_neg (not_not.mpr equal), same, before]
        simp [equal]
      · rw [if_pos equal, difference_eq_zero_iff, difference_neg_iff]
        simp [equal]

/-- A text and the zero byte behind it stand at an address. -/
structure HoldsString (memory : Memory) (address : Nat) (text : List UInt8) : Prop where
  zeroFree : 0 ∉ text
  held : memory.read address (text.length + 1) = text ++ [0]

instance (memory : Memory) (address : Nat) (text : List UInt8) :
    Decidable (HoldsString memory address text) :=
  decidable_of_iff (0 ∉ text ∧ memory.read address (text.length + 1) = text ++ [0])
    ⟨fun ⟨zeroFree, held⟩ => ⟨zeroFree, held⟩, fun ⟨zeroFree, held⟩ => ⟨zeroFree, held⟩⟩

namespace HoldsString

variable {address : Nat} {byte : UInt8} {text : List UInt8}

theorem end_eq (holds : HoldsString memory address []) : memory address = 0 :=
  (List.cons.inj holds.held).1

theorem head_eq (holds : HoldsString memory address (byte :: text)) : memory address = byte :=
  (List.cons.inj holds.held).1

theorem head_ne (holds : HoldsString memory address (byte :: text)) : byte ≠ 0 :=
  fun zero => holds.zeroFree (zero ▸ List.mem_cons_self)

theorem tail (holds : HoldsString memory address (byte :: text)) :
    HoldsString memory (address + 1) text where
  zeroFree inside := holds.zeroFree (List.mem_cons_of_mem _ inside)
  held := (List.cons.inj holds.held).2

end HoldsString

/-- The loop over a memory compares the texts that stand there, and looks at no byte
behind the end of the shorter one. -/
theorem customStrCmp_texts {left right count : Nat} {str1 str2 : List UInt8}
    (holdsLeft : HoldsString memory left str1) (holdsRight : HoldsString memory right str2)
    (enough : min str1.length str2.length < count) :
    CustomStrCmp memory count left right = some (ApiScope.CustomStrCmp str1 str2) := by
  obtain ⟨count, rfl⟩ : ∃ rest, count = rest + 1 := ⟨count - 1, by omega⟩
  induction str1 generalizing str2 left right count with
  | nil =>
      rw [CustomStrCmp, if_neg fun more => more.1 holdsLeft.end_eq, holdsLeft.end_eq]
      cases str2 with
      | nil => simp [holdsRight.end_eq, ApiScope.CustomStrCmp]
      | cons byte str2 => simp [holdsRight.head_eq, ApiScope.CustomStrCmp]
  | cons byte str1 inductionHypothesis =>
      rw [CustomStrCmp, holdsLeft.head_eq]
      cases str2 with
      | nil =>
          rw [holdsRight.end_eq, if_neg fun more => holdsLeft.head_ne more.2]
          simp [ApiScope.CustomStrCmp]
      | cons other str2 =>
          rw [holdsRight.head_eq, ApiScope.CustomStrCmp]
          split_ifs with same
          · obtain ⟨count, rfl⟩ : ∃ rest, count = rest + 1 :=
              ⟨count - 1, by simp only [List.length_cons] at enough; omega⟩
            exact inductionHypothesis holdsLeft.tail holdsRight.tail count
              (by simp only [List.length_cons] at enough; omega)
          · rfl

theorem beforeZero_eq_self {text : List UInt8} (zeroFree : 0 ∉ text) : beforeZero text = text := by
  rw [beforeZero, List.takeWhile_eq_self_iff]
  intro byte inside
  simpa using ne_of_mem_of_not_mem inside zeroFree

theorem customStrCmp_neg_iff {str1 str2 : List UInt8} (zeroFree1 : 0 ∉ str1)
    (zeroFree2 : 0 ∉ str2) : ApiScope.CustomStrCmp str1 str2 < 0 ↔ str1 < str2 := by
  fun_induction ApiScope.CustomStrCmp str1 str2 with
  | case1 left str1 right str2 same inductionHypothesis =>
      obtain ⟨-, rfl⟩ := same
      rw [inductionHypothesis (by simp_all) (by simp_all), List.cons_lt_cons_iff]
      simp
  | case2 left str1 right str2 differ =>
      have different : left ≠ right := by
        rintro rfl
        exact differ ⟨fun zero => zeroFree1 (zero ▸ List.mem_cons_self), rfl⟩
      rw [difference_neg_iff, List.cons_lt_cons_iff]
      simp [different]
  | case3 left str1 => simp
  | case4 right str2 =>
      have positive : (0 : UInt8) < right :=
        UInt8.pos_iff_ne_zero.mpr fun zero => zeroFree2 (zero ▸ List.mem_cons_self)
      rw [UInt8.lt_iff_toNat_lt] at positive
      simpa using positive
  | case5 => simp

/-- Two strings of a memory are compared as their texts, as a whole and in the order of
unsigned bytes. -/
theorem customStrCmp_exact {left right count : Nat} {str1 str2 : List UInt8}
    (holdsLeft : HoldsString memory left str1) (holdsRight : HoldsString memory right str2)
    (enough : min str1.length str2.length < count) :
    ∃ result, CustomStrCmp memory count left right = some result ∧
      result = ApiScope.CustomStrCmp str1 str2 ∧
      (result = 0 ↔ str1 = str2) ∧ (result < 0 ↔ str1 < str2) := by
  refine ⟨_, customStrCmp_texts holdsLeft holdsRight enough, rfl, ?_,
    customStrCmp_neg_iff holdsLeft.zeroFree holdsRight.zeroFree⟩
  rw [customStrCmp_eq_zero_iff, beforeZero_eq_self holdsLeft.zeroFree,
    beforeZero_eq_self holdsRight.zeroFree]

/-- `"ab"` and `"abc"`, at 2 and at 8. -/
def twoStrings : Memory :=
  (Memory.write (fun _ => 7) 2 [97, 98, 0]).write 8 [97, 98, 99, 0]

theorem customStrCmp_exact_prefix :
    ∃ result, CustomStrCmp twoStrings 3 2 8 = some result ∧
      result = ApiScope.CustomStrCmp [97, 98] [97, 98, 99] ∧
      (result = 0 ↔ ([97, 98] : List UInt8) = [97, 98, 99]) ∧
      (result < 0 ↔ ([97, 98] : List UInt8) < [97, 98, 99]) :=
  @customStrCmp_exact twoStrings 2 8 3 [97, 98] [97, 98, 99] (by decide +kernel)
    (by decide +kernel) (by decide)

/-! ## Copies -/

/-- The byte that the loop finds for the byte `index` of a copy: where the
destination begins inside the source, the bytes in front of it come again and
again. -/
def copiedFrom (dest src index : Nat) : Nat :=
  if src < dest then src + index % (dest - src) else src + index

theorem customMemCpy_outside {dest src count target : Nat}
    (outside : target < dest ∨ dest + count ≤ target) :
    CustomMemCpy memory dest src count target = memory target := by
  induction count generalizing memory dest src with
  | zero => rfl
  | succ count inductionHypothesis =>
      rw [CustomMemCpy, inductionHypothesis (by omega)]
      exact Memory.write_of_outside memory (by simp only [List.length_singleton]; omega)

theorem copiedFrom_zero (dest src : Nat) : copiedFrom dest src 0 = src := by
  simp [copiedFrom]

/-- The next byte comes from behind the last one, or from the first one again. -/
theorem copiedFrom_succ (dest src index : Nat) :
    copiedFrom dest src (index + 1) =
      if copiedFrom (dest + 1) (src + 1) index = dest then src
      else copiedFrom (dest + 1) (src + 1) index := by
  unfold copiedFrom
  by_cases overlap : src < dest
  · obtain ⟨period, rfl⟩ := Nat.exists_eq_add_of_lt overlap
    have position : src + period + 1 - src = period + 1 := by omega
    have below : index % (period + 1) < period + 1 := Nat.mod_lt _ (Nat.succ_pos _)
    have step : (index + 1) % (period + 1) = (index % (period + 1) + 1) % (period + 1) := by
      rw [Nat.mod_add_mod]
    rw [if_pos overlap, if_pos (Nat.succ_lt_succ overlap), Nat.add_sub_add_right, position, step]
    by_cases last : index % (period + 1) = period
    · rw [if_pos (by omega), last, Nat.mod_self, Nat.add_zero]
    · rw [if_neg (by omega), Nat.mod_eq_of_lt (by omega)]
      omega
  · have behind : ¬src + 1 < dest + 1 := by omega
    rw [if_neg overlap, if_neg behind, if_neg (by omega)]
    omega

theorem customMemCpy_inside {dest src count index : Nat} (inside : index < count) :
    CustomMemCpy memory dest src count (dest + index) = memory (copiedFrom dest src index) := by
  induction count generalizing memory dest src index with
  | zero => omega
  | succ count inductionHypothesis =>
      rw [CustomMemCpy]
      cases index with
      | zero =>
          rw [customMemCpy_outside (Or.inl (by omega)), copiedFrom_zero]
          exact Memory.write_of_inside memory le_rfl (by simp)
      | succ index =>
          rw [show dest + (index + 1) = dest + 1 + index by omega,
            inductionHypothesis (by omega), copiedFrom_succ]
          split_ifs with first
          · rw [first]
            exact Memory.write_of_inside memory le_rfl (by simp)
          · exact Memory.write_of_outside memory (by simp only [List.length_singleton]; omega)

/-- Without a destination inside the source the loop is one write of what the
source held. -/
theorem customMemCpy_eq_write {dest src count : Nat}
    (whole : dest ≤ src ∨ src + count ≤ dest) :
    CustomMemCpy memory dest src count = memory.write dest (memory.read src count) := by
  funext target
  by_cases outside : target < dest ∨ dest + count ≤ target
  · rw [customMemCpy_outside outside, Memory.write_of_outside _ (by simpa using outside)]
  · obtain ⟨index, rfl⟩ : ∃ index, target = dest + index := ⟨target - dest, by omega⟩
    have inside : index < count := by omega
    have straight : copiedFrom dest src index = src + index := by
      unfold copiedFrom
      split_ifs
      · rw [Nat.mod_eq_of_lt (by omega)]
      · rfl
    rw [customMemCpy_inside inside, straight]
    apply Eq.symm
    apply Memory.write_of_inside _ (by omega)
    rw [Nat.add_sub_cancel_left, Memory.getElem?_read _ _ _ _ inside]

/-- What a copy leaves behind, for spans that may overlap. -/
theorem customMemCpy_exact (dest src count : Nat) :
    (∀ target, target < dest ∨ dest + count ≤ target →
      CustomMemCpy memory dest src count target = memory target) ∧
    (∀ index < count,
      CustomMemCpy memory dest src count (dest + index) = memory (copiedFrom dest src index)) ∧
    (dest ≤ src ∨ src + count ≤ dest →
      (CustomMemCpy memory dest src count).read dest count = memory.read src count) ∧
    (Memory.Apart dest count src count →
      CustomMemCmp (CustomMemCpy memory dest src count) dest src count = 0) := by
  refine ⟨fun _ => customMemCpy_outside, fun _ => customMemCpy_inside, fun whole => ?_,
    fun apart => ?_⟩
  all_goals have written := Memory.read_write memory dest (memory.read src count)
  all_goals rw [Memory.length_read] at written
  · rw [customMemCpy_eq_write whole, written]
  · have whole : dest ≤ src ∨ src + count ≤ dest := apart.imp_left (by omega)
    rw [(customMemCmp_spec dest src count).1, customMemCpy_eq_write whole, written]
    exact (Memory.read_write_apart memory (by simpa using apart.symm)).symm

end ApiScope.MemoryUtils
