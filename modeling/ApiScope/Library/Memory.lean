import Mathlib.Logic.Function.Basic
import Mathlib.Data.List.Basic

/-!
# A flat byte memory

A memory gives a byte to every address.  A read takes a span of bytes, a write
puts a span of bytes; the two laws of the module are that a write is seen where
it was made and nowhere else.  `Apart` is the disjointness of two spans.
-/

/-- A byte at every address. -/
def Memory : Type := Nat → UInt8

namespace Memory

/-- The spans `[address, address + count)` and `[other, other + size)` have no
byte in common. -/
def Apart (address count other size : Nat) : Prop :=
  address + count ≤ other ∨ other + size ≤ address

instance (address count other size : Nat) : Decidable (Apart address count other size) :=
  inferInstanceAs (Decidable (_ ∨ _))

theorem Apart.symm {address count other size : Nat} (apart : Apart address count other size) :
    Apart other size address count :=
  Or.symm apart

theorem Apart.mono {address count other size count' : Nat}
    (apart : Apart address count other size) (shorter : count' ≤ count) :
    Apart address count' other size := by
  rcases apart with before | behind
  · exact Or.inl (by omega)
  · exact Or.inr behind

/-- The bytes of a span, in order. -/
def read (memory : Memory) : Nat → Nat → List UInt8
  | _, 0 => []
  | address, count + 1 => memory address :: read memory (address + 1) count

/-- Put bytes from an address on. -/
def write (memory : Memory) (address : Nat) (bytes : List UInt8) : Memory :=
  fun target =>
    if target < address then memory target
    else (bytes[target - address]?).getD (memory target)

@[simp]
theorem length_read (memory : Memory) (address count : Nat) :
    (memory.read address count).length = count := by
  induction count generalizing address with
  | zero => rfl
  | succ count inductionHypothesis => simp [read, inductionHypothesis]

theorem getElem?_read (memory : Memory) (address count index : Nat) (inside : index < count) :
    (memory.read address count)[index]? = some (memory (address + index)) := by
  induction count generalizing address index with
  | zero => omega
  | succ count inductionHypothesis =>
      cases index with
      | zero => rfl
      | succ index =>
          rw [read, List.getElem?_cons_succ, inductionHypothesis (address + 1) index (by omega)]
          simp [Nat.add_comm, Nat.add_left_comm]

/-- The bytes of a span start with the bytes of a shorter one. -/
theorem read_add (memory : Memory) (address count more : Nat) :
    memory.read address (count + more) =
      memory.read address count ++ memory.read (address + count) more := by
  induction count generalizing address with
  | zero => simp [read]
  | succ count inductionHypothesis =>
      rw [Nat.succ_add, read, read, inductionHypothesis, List.cons_append]
      simp [Nat.add_comm, Nat.add_left_comm]

theorem take_read (memory : Memory) (address : Nat) {count more : Nat} (shorter : count ≤ more) :
    (memory.read address more).take count = memory.read address count := by
  obtain ⟨rest, rfl⟩ := Nat.exists_eq_add_of_le shorter
  rw [read_add, List.take_left' (length_read _ _ _)]

/-- Spans that read the same have beginnings that read the same. -/
theorem read_mono {memory memory' : Memory} {address count count' : Nat} (shorter : count' ≤ count)
    (same : memory.read address count = memory'.read address count) :
    memory.read address count' = memory'.read address count' := by
  obtain ⟨more, rfl⟩ := Nat.exists_eq_add_of_le shorter
  rw [read_add, read_add] at same
  exact (List.append_inj same (by simp)).1

/-- A span reads as one repeated byte when each of its bytes is that byte. -/
theorem read_eq_replicate {memory : Memory} {address count : Nat} {byte : UInt8}
    (same : ∀ target, address ≤ target → target < address + count → memory target = byte) :
    memory.read address count = List.replicate count byte := by
  induction count generalizing address with
  | zero => rfl
  | succ count inductionHypothesis =>
      rw [read, List.replicate_succ, same address (by omega) (by omega), inductionHypothesis]
      exact fun target lower upper => same target (by omega) (by omega)

/-- Two spans read the same when every byte does. -/
theorem read_congr {memory memory' : Memory} {address count : Nat}
    (same : ∀ target, address ≤ target → target < address + count →
      memory target = memory' target) :
    memory.read address count = memory'.read address count := by
  induction count generalizing address with
  | zero => rfl
  | succ count inductionHypothesis =>
      rw [read, read, same address (by omega) (by omega), inductionHypothesis]
      intro target lower upper
      exact same target (by omega) (by omega)

/-- Spans that read the same have the same bytes. -/
theorem eq_of_read {memory memory' : Memory} {address count target : Nat}
    (same : memory.read address count = memory'.read address count) (lower : address ≤ target)
    (upper : target < address + count) : memory target = memory' target := by
  have present := getElem?_read memory address count (target - address) (by omega)
  have present' := getElem?_read memory' address count (target - address) (by omega)
  rw [← same, present, Nat.add_sub_cancel' lower] at present'
  exact Option.some.inj present'

/-- A write leaves every address outside its span alone. -/
theorem write_of_outside (memory : Memory) {address target : Nat} {bytes : List UInt8}
    (outside : target < address ∨ address + bytes.length ≤ target) :
    memory.write address bytes target = memory target := by
  unfold write
  rcases outside with before | behind
  · rw [if_pos before]
  · rw [if_neg (by omega), List.getElem?_eq_none (by omega), Option.getD_none]

theorem write_of_inside (memory : Memory) {address target : Nat} {bytes : List UInt8} {byte : UInt8}
    (lower : address ≤ target) (present : bytes[target - address]? = some byte) :
    memory.write address bytes target = byte := by
  unfold write
  rw [if_neg (by omega), present, Option.getD_some]

@[simp]
theorem write_nil (memory : Memory) (address : Nat) : memory.write address [] = memory := by
  funext target
  simp [write]

/-- Where a byte stood already, writing nothing but that byte keeps it. -/
theorem write_of_eq (memory : Memory) {address target : Nat} {bytes : List UInt8} {byte : UInt8}
    (same : ∀ written ∈ bytes, written = byte) (held : memory target = byte) :
    memory.write address bytes target = byte := by
  unfold write
  split_ifs
  · exact held
  · cases written : bytes[target - address]? with
    | none => exact held
    | some written' => exact same written' (List.mem_of_getElem? written)

/-- A span apart from a write reads as before. -/
theorem read_write_apart (memory : Memory) {address other count : Nat} {bytes : List UInt8}
    (apart : Apart other count address bytes.length) :
    (memory.write address bytes).read other count = memory.read other count := by
  apply read_congr
  intro target lower upper
  apply write_of_outside
  unfold Apart at apart
  omega

/-- What has been written is read back. -/
theorem read_write (memory : Memory) (address : Nat) (bytes : List UInt8) :
    (memory.write address bytes).read address bytes.length = bytes := by
  apply List.ext_getElem?
  intro index
  by_cases inside : index < bytes.length
  · rw [getElem?_read _ _ _ _ inside]
    apply Eq.symm
    have present : bytes[address + index - address]? = some (bytes[index]) := by
      rw [Nat.add_sub_cancel_left, List.getElem?_eq_getElem inside]
    rw [write_of_inside memory (by omega) present, List.getElem?_eq_getElem inside]
  · rw [List.getElem?_eq_none (by simp; omega), List.getElem?_eq_none (by omega)]

/-- Writing back the bytes that stood there undoes a write. -/
theorem write_write_read (memory : Memory) (address : Nat) (bytes : List UInt8) :
    (memory.write address bytes).write address (memory.read address bytes.length) = memory := by
  funext target
  by_cases outside : target < address ∨ address + bytes.length ≤ target
  · rw [write_of_outside _ (by simpa using outside), write_of_outside _ outside]
  · have inside : target - address < bytes.length := by omega
    have original := getElem?_read memory address bytes.length (target - address) inside
    have unmoved : address + (target - address) = target := by omega
    rw [unmoved] at original
    exact write_of_inside _ (by omega) original

/-- The bytes of one span are taken from another memory. -/
def overlay (memory other : Memory) (base size : Nat) : Memory :=
  fun target => if base ≤ target ∧ target < base + size then other target else memory target

/-- A span apart from the overlaid one reads as before. -/
theorem read_overlay_apart (memory other : Memory) {base size address count : Nat}
    (apart : Apart base size address count) :
    (memory.overlay other base size).read address count = memory.read address count := by
  refine read_congr fun target lower upper => if_neg ?_
  unfold Apart at apart
  omega

/-! ## Regions -/

/-- Every byte of a span lies in a region. -/
def Within (region : Nat → Prop) (address count : Nat) : Prop :=
  ∀ target, address ≤ target → target < address + count → region target

/-- No byte of a span lies in a region. -/
def Outside (region : Nat → Prop) (address count : Nat) : Prop :=
  ∀ target, address ≤ target → target < address + count → ¬region target

/-- Two memories have the same bytes in a region. -/
def AgreeOn (region : Nat → Prop) (memory memory' : Memory) : Prop :=
  ∀ target, region target → memory target = memory' target

section Regions

variable {region other : Nat → Prop} {address count : Nat} {memory memory' memory'' : Memory}

theorem Within.mono (within : Within region address count) {count' : Nat}
    (shorter : count' ≤ count) : Within region address count' :=
  fun target lower upper => within target lower (by omega)

theorem Outside.mono (outside : Outside region address count) {count' : Nat}
    (shorter : count' ≤ count) : Outside region address count' :=
  fun target lower upper => outside target lower (by omega)

/-- What lies in one region lies outside every region disjoint from it. -/
theorem Within.outside (within : Within region address count)
    (disjoint : ∀ target, region target → ¬other target) : Outside other address count :=
  fun target lower upper => disjoint target (within target lower upper)

/-- Spans in and outside a region are apart, unless one of them is empty. -/
theorem Within.apart (within : Within region address count) {address' count' : Nat}
    (outside : Outside region address' count') (nonempty : 0 < count) (nonempty' : 0 < count') :
    Apart address count address' count' := by
  unfold Apart
  by_contra meet
  push Not at meet
  rcases Nat.le_total address address' with before | behind
  · exact outside address' (by omega) (by omega) (within address' before (by omega))
  · exact outside address behind (by omega) (within address (by omega) (by omega))

theorem AgreeOn.refl (region : Nat → Prop) (memory : Memory) : AgreeOn region memory memory :=
  fun _ _ => rfl

theorem AgreeOn.symm (agree : AgreeOn region memory memory') : AgreeOn region memory' memory :=
  fun target inside => (agree target inside).symm

theorem AgreeOn.trans (left : AgreeOn region memory memory')
    (right : AgreeOn region memory' memory'') : AgreeOn region memory memory'' :=
  fun target inside => (left target inside).trans (right target inside)

theorem AgreeOn.read (agree : AgreeOn region memory memory')
    (within : Within region address count) :
    memory.read address count = memory'.read address count :=
  read_congr fun target lower upper => agree target (within target lower upper)

theorem agreeOn_write_outside (memory : Memory) {bytes : List UInt8}
    (outside : Outside region address bytes.length) :
    AgreeOn region (memory.write address bytes) memory := by
  intro target inside
  apply write_of_outside
  by_contra spanned
  rw [not_or, Nat.not_lt, Nat.not_le] at spanned
  exact outside target spanned.1 spanned.2 inside

/-- The same write keeps an agreement. -/
theorem AgreeOn.write (agree : AgreeOn region memory memory') (address : Nat)
    (bytes : List UInt8) :
    AgreeOn region (memory.write address bytes) (memory'.write address bytes) := by
  intro target inside
  unfold Memory.write
  rw [agree target inside]

end Regions

end Memory
