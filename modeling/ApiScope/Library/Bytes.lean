import Mathlib.Data.List.Basic
import Mathlib.Tactic.Ring

/-!
# Byte strings: in-place writes, little-endian words, hexadecimal text

`overwrite` is a block copy into a fixed-size buffer.  The word codec is the
usual little-endian one, for any width, and hexadecimal text has two digits for
each byte.
-/

namespace Bytes

/-! ## Writing into a buffer -/

section Overwrite

variable {Item : Type*}

/-- Replace the items from an offset on by `new`.  The buffer keeps its size:
what would fall behind its end is not written. -/
def overwrite : List Item → Nat → List Item → List Item
  | [], _, _ => []
  | old :: rest, 0, [] => old :: rest
  | _ :: rest, 0, item :: new => item :: overwrite rest 0 new
  | old :: rest, offset + 1, new => old :: overwrite rest offset new

@[simp]
theorem length_overwrite (buffer : List Item) (offset : Nat) (new : List Item) :
    (overwrite buffer offset new).length = buffer.length := by
  fun_induction overwrite buffer offset new <;> simp_all

@[simp]
theorem overwrite_nil (buffer : List Item) (offset : Nat) :
    overwrite buffer offset [] = buffer := by
  induction buffer generalizing offset with
  | nil => rfl
  | cons old rest inductionHypothesis =>
      cases offset with
      | zero => rfl
      | succ offset => simp [overwrite, inductionHypothesis]

theorem overwrite_eq (buffer : List Item) (offset : Nat) (new : List Item)
    (fits : offset + new.length ≤ buffer.length) :
    overwrite buffer offset new =
      buffer.take offset ++ new ++ buffer.drop (offset + new.length) := by
  fun_induction overwrite buffer offset new with
  | case1 offset new =>
      have empty : offset = 0 ∧ new = [] := by simpa using fits
      simp [empty]
  | case2 => simp
  | case3 _ rest item new inductionHypothesis =>
      simp only [List.length_cons] at fits
      simp [inductionHypothesis (by omega)]
  | case4 old rest offset new inductionHypothesis =>
      simp only [List.length_cons] at fits
      have shifted : offset + 1 + new.length = offset + new.length + 1 := by omega
      simp [inductionHypothesis (by omega), shifted]

/-- A write keeps everything before its offset. -/
theorem take_overwrite_of_le (buffer : List Item) (offset : Nat) (new : List Item)
    {count : Nat} (before : count ≤ offset) :
    (overwrite buffer offset new).take count = buffer.take count := by
  fun_induction overwrite buffer offset new generalizing count with
  | case1 => rfl
  | case2 => rfl
  | case3 _ rest item new _ =>
      have noItems : count = 0 := by omega
      simp [noItems]
  | case4 old rest offset new inductionHypothesis =>
      cases count with
      | zero => simp
      | succ count => simp [@inductionHypothesis count (by omega)]

theorem take_overwrite_end (buffer : List Item) (offset : Nat) (new : List Item)
    (fits : offset + new.length ≤ buffer.length) :
    (overwrite buffer offset new).take (offset + new.length) = buffer.take offset ++ new := by
  rw [overwrite_eq buffer offset new fits]
  apply List.take_left'
  simp
  omega

/-- A write changes nothing outside its range. -/
theorem getElem?_overwrite_outside {buffer new : List Item} {offset index : Nat}
    (outside : index < offset ∨ offset + new.length ≤ index) :
    (overwrite buffer offset new)[index]? = buffer[index]? := by
  fun_induction overwrite buffer offset new generalizing index with
  | case1 => rfl
  | case2 => rfl
  | case3 old rest item new inductionHypothesis =>
      rw [List.length_cons] at outside
      obtain ⟨index, rfl⟩ : ∃ before, index = before + 1 := ⟨index - 1, by omega⟩
      rw [List.getElem?_cons_succ, List.getElem?_cons_succ]
      exact inductionHypothesis (by omega)
  | case4 old rest offset new inductionHypothesis =>
      cases index with
      | zero => rfl
      | succ index =>
          rw [List.getElem?_cons_succ, List.getElem?_cons_succ]
          exact inductionHypothesis (by omega)

theorem getElem?_overwrite_inside {buffer new : List Item} {offset index : Nat}
    (lower : offset ≤ index) (upper : index < offset + new.length)
    (fits : offset + new.length ≤ buffer.length) :
    (overwrite buffer offset new)[index]? = new[index - offset]? := by
  have front : (buffer.take offset).length = offset := by
    rw [List.length_take]
    omega
  rw [overwrite_eq buffer offset new fits, List.append_assoc,
    List.getElem?_append_right (by omega), front, List.getElem?_append_left (by omega)]

/-- Copying a message chunk by chunk: the part already copied grows. -/
theorem take_overwrite_chunk (buffer message : List Item) (copied count : Nat)
    (sofar : buffer.take copied = message.take copied)
    (chunk : copied + count ≤ message.length) (fits : message.length ≤ buffer.length) :
    (overwrite buffer copied ((message.drop copied).take count)).take (copied + count) =
      message.take (copied + count) := by
  have size : ((message.drop copied).take count).length = count := by
    simp
    omega
  have written := take_overwrite_end buffer copied ((message.drop copied).take count)
    (by omega)
  rw [size] at written
  rw [written, sofar, List.take_add]

end Overwrite

/-! ## Little-endian words -/

/-- The `width` low bytes of a number, least significant first. -/
def littleEndian : Nat → Nat → List UInt8
  | 0, _ => []
  | width + 1, value => UInt8.ofNat value :: littleEndian width (value / 256)

/-- The number a little-endian byte string denotes. -/
def ofLittleEndian : List UInt8 → Nat
  | [] => 0
  | byte :: rest => byte.toNat + 256 * ofLittleEndian rest

@[simp]
theorem length_littleEndian (width value : Nat) :
    (littleEndian width value).length = width := by
  induction width generalizing value with
  | zero => rfl
  | succ width inductionHypothesis => simp [littleEndian, inductionHypothesis]

theorem ofLittleEndian_lt (bytes : List UInt8) :
    ofLittleEndian bytes < 256 ^ bytes.length := by
  induction bytes with
  | nil => simp [ofLittleEndian]
  | cons byte rest inductionHypothesis =>
      have small := byte.toNat_lt
      simp only [ofLittleEndian, List.length_cons, Nat.pow_succ]
      omega

theorem ofLittleEndian_littleEndian (width value : Nat) :
    ofLittleEndian (littleEndian width value) = value % 256 ^ width := by
  induction width generalizing value with
  | zero => simp [littleEndian, ofLittleEndian, Nat.mod_one]
  | succ width inductionHypothesis =>
      simp only [littleEndian, ofLittleEndian, inductionHypothesis, UInt8.toNat_ofNat']
      have split := Nat.mod_mul (x := value) (a := 256) (b := 256 ^ width)
      rw [← Nat.pow_succ'] at split
      exact split.symm

/-- Encoding undoes decoding on byte strings of the right length. -/
theorem littleEndian_ofLittleEndian (bytes : List UInt8) :
    littleEndian bytes.length (ofLittleEndian bytes) = bytes := by
  induction bytes with
  | nil => rfl
  | cons byte rest inductionHypothesis =>
      have small := byte.toNat_lt
      have quotient : (byte.toNat + 256 * ofLittleEndian rest) / 256 = ofLittleEndian rest := by
        omega
      simp only [List.length_cons, littleEndian, ofLittleEndian, quotient, inductionHypothesis,
        List.cons.injEq, and_true]
      apply UInt8.toNat_inj.mp
      rw [UInt8.toNat_ofNat']
      omega

theorem littleEndian_ofLittleEndian_of_length {bytes : List UInt8} {width : Nat}
    (sized : bytes.length = width) : littleEndian width (ofLittleEndian bytes) = bytes := by
  rw [← sized]
  exact littleEndian_ofLittleEndian bytes

/-- Only the low bytes of the number count. -/
theorem littleEndian_mod (width value : Nat) :
    littleEndian width (value % 256 ^ width) = littleEndian width value := by
  rw [← ofLittleEndian_littleEndian]
  exact littleEndian_ofLittleEndian_of_length (length_littleEndian width value)

theorem littleEndian_add (width more value : Nat) :
    littleEndian (width + more) value =
      littleEndian width value ++ littleEndian more (value / 256 ^ width) := by
  induction width generalizing value with
  | zero => simp [littleEndian]
  | succ width inductionHypothesis =>
      rw [Nat.add_right_comm, littleEndian, inductionHypothesis, littleEndian, Nat.div_div_eq_div_mul,
        ← Nat.pow_succ', List.cons_append]

/-! ## Reading a slice -/

/-- `count` items from an offset on. -/
def slice {Item : Type*} (buffer : List Item) (offset count : Nat) : List Item :=
  (buffer.drop offset).take count

@[simp]
theorem length_slice {Item : Type*} (buffer : List Item) (offset count : Nat) :
    (slice buffer offset count).length = min count (buffer.length - offset) := by
  simp [slice]

theorem slice_add {Item : Type*} (buffer : List Item) (offset first second : Nat) :
    slice buffer offset (first + second) =
      slice buffer offset first ++ slice buffer (offset + first) second := by
  simp [slice, List.take_add, List.drop_drop]

theorem getElem?_slice {Item : Type*} {buffer : List Item} {offset count index : Nat}
    (inside : index < count) : (slice buffer offset count)[index]? = buffer[offset + index]? := by
  rw [slice, List.getElem?_take_of_lt inside, List.getElem?_drop]

/-- A slice depends on its own range only. -/
theorem slice_congr {Item : Type*} {first second : List Item} {offset count : Nat}
    (agree : ∀ index, offset ≤ index → index < offset + count → first[index]? = second[index]?) :
    slice first offset count = slice second offset count := by
  apply List.ext_getElem?
  intro index
  by_cases inside : index < count
  · rw [getElem?_slice inside, getElem?_slice inside]
    exact agree _ (by omega) (by omega)
  · rw [List.getElem?_eq_none (by simp; omega), List.getElem?_eq_none (by simp; omega)]

/-- Reading where a known piece starts gives that piece. -/
theorem slice_of_drop_eq {Item : Type*} {buffer piece rest : List Item} {offset : Nat}
    (starts : buffer.drop offset = piece ++ rest) :
    slice buffer offset piece.length = piece := by
  simp [slice, starts]

theorem drop_add_of_drop_eq {Item : Type*} {buffer piece rest : List Item} {offset : Nat}
    (starts : buffer.drop offset = piece ++ rest) :
    buffer.drop (offset + piece.length) = rest := by
  rw [← List.drop_drop, starts]
  simp

theorem drop_eq_slice_append {Item : Type*} (buffer : List Item) (offset count : Nat) :
    buffer.drop offset = slice buffer offset count ++ buffer.drop (offset + count) := by
  rw [slice, ← List.drop_drop, List.take_append_drop]

/-! ## Text before a zero byte -/

/-- The bytes in front of the first zero byte. -/
def beforeZero (bytes : List UInt8) : List UInt8 := bytes.takeWhile (· ≠ 0)

/-- Nothing behind a zero byte counts. -/
theorem beforeZero_congr {first second : List UInt8} {ending : Nat}
    (zero : first[ending]? = some 0)
    (agree : ∀ index, index ≤ ending → first[index]? = second[index]?) :
    beforeZero first = beforeZero second := by
  induction ending generalizing first second with
  | zero =>
      cases first with
      | nil => cases zero
      | cons byte first =>
          have head := agree 0 le_rfl
          cases second with
          | nil => cases head
          | cons other second =>
              cases zero
              cases head
              rfl
  | succ ending inductionHypothesis =>
      cases first with
      | nil => cases zero
      | cons byte first =>
          have head := agree 0 (Nat.zero_le _)
          cases second with
          | nil => cases head
          | cons other second =>
              cases head
              have rest := @inductionHypothesis first second (by simpa using zero)
                fun index bound => by simpa using agree (index + 1) (by omega)
              unfold beforeZero at rest ⊢
              rw [List.takeWhile_cons, List.takeWhile_cons, rest]

/-- Texts are found among others by their bytes. -/
instance lawfulText : LawfulBEq (List UInt8) := inferInstance

/-- A property of all bytes, checked code by code. -/
theorem forall_byte {holds : UInt8 → Prop} (codes : ∀ code < 256, holds (.ofNat code))
    (byte : UInt8) : holds byte := by
  have same := codes byte.toNat byte.toNat_lt
  rwa [UInt8.ofNat_toNat] at same

/-! ## Hexadecimal text -/

def hexValue (digit : Char) : Option Nat :=
  if '0' ≤ digit ∧ digit ≤ '9' then some (digit.toNat - 48)
  else if 'A' ≤ digit ∧ digit ≤ 'F' then some (digit.toNat - 55)
  else if 'a' ≤ digit ∧ digit ≤ 'f' then some (digit.toNat - 87)
  else none

def decodeHexByte (high low : Char) : Option UInt8 :=
  match hexValue high, hexValue low with
  | some high, some low => some (.ofNat (16 * high + low))
  | _, _ => none

/-- The bytes that pairs of hexadecimal digits stand for. -/
def decodeHex : List Char → Option (List UInt8)
  | [] => some []
  | high :: low :: rest =>
      match decodeHexByte high low, decodeHex rest with
      | some byte, some bytes => some (byte :: bytes)
      | _, _ => none
  | [_] => none

/-- A writer of two digits for each byte is inverted when it is on single bytes. -/
theorem decodeHex_flatMap {encode : UInt8 → List Char}
    (exact_ : ∀ byte, ∃ high low, encode byte = [high, low] ∧ decodeHexByte high low = some byte)
    (bytes : List UInt8) : decodeHex (bytes.flatMap encode) = some bytes := by
  induction bytes with
  | nil => rfl
  | cons byte rest inductionHypothesis =>
      obtain ⟨high, low, digits, decoded⟩ := exact_ byte
      rw [List.flatMap_cons, digits]
      simp [decodeHex, decoded, inductionHypothesis]

/-! ## Signed words -/

/-- The two's complement number of a little-endian byte string. -/
def twosComplement (bytes : List UInt8) : Int :=
  if 2 * ofLittleEndian bytes < 256 ^ bytes.length then ofLittleEndian bytes
  else (ofLittleEndian bytes : Int) - 256 ^ bytes.length

end Bytes
