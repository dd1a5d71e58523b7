import ApiScope.Library.Bytes
import ApiScope.Library.Memory

/-!
# The traced process

What the controller can see and change of the target: its memory, the images
mapped into it with the answers of `GetRemoteExport`, and the regions the
controller has allocated or mapped.  Every remote call takes its outcome as an
argument; a call that fails changes nothing.  The calls that succeeded are
kept in order.
-/

namespace ApiScope

structure RemoteExport where
  address : Nat
  forwarder : List UInt8
  deriving DecidableEq, Repr

/-- The named exports of an image. -/
abbrev ExportTable := List UInt8 → Option RemoteExport

/-- Remote calls that change the target. -/
inductive RemoteAction where
  | write (address : Nat) (bytes : List UInt8)
  | allocate (base size : Nat)
  | free (base : Nat)
  | map (base size : Nat)
  | unmap (base : Nat)
  | duplicateHandle (handle : Nat)
  | closeHandle (handle : Nat)
  deriving DecidableEq, Repr

/-- Nothing but writes to memory. -/
def OnlyWrites (actions : List RemoteAction) : Prop :=
  ∀ action ∈ actions, ∃ address bytes, action = .write address bytes

theorem OnlyWrites.append {actions others : List RemoteAction} (left : OnlyWrites actions)
    (right : OnlyWrites others) : OnlyWrites (actions ++ others) := by
  intro action member
  exact (List.mem_append.mp member).elim (left action) (right action)

/-- `process_`.  A base that holds no allocation and no view has size 0. -/
structure Target where
  memory : Memory
  images : Nat → Option ExportTable
  allocations : Nat → Nat
  log : List RemoteAction

/-- A pointer as it lies in memory. -/
def pointerBytes (address : Nat) : List UInt8 := Bytes.littleEndian 8 address

@[simp]
theorem length_pointerBytes (address : Nat) : (pointerBytes address).length = 8 :=
  Bytes.length_littleEndian 8 address

theorem pointerBytes_zero : pointerBytes 0 = List.replicate 8 0 := rfl

namespace Target

variable (target : Target)

def GetRemoteExport (base : Nat) (functionName : List UInt8) : Option RemoteExport :=
  (target.images base).bind (· functionName)

def WriteProcessMemory (succeeds : Bool) (address : Nat) (bytes : List UInt8) : Target :=
  if succeeds then
    { target with
      memory := target.memory.write address bytes
      log := target.log ++ [.write address bytes] }
  else target

/-- A null base is a failed allocation. -/
def VirtualAllocEx (base size : Nat) : Target :=
  if base ≠ 0 then
    { target with
      allocations := Function.update target.allocations base size
      log := target.log ++ [.allocate base size] }
  else target

def VirtualFreeEx (succeeds : Bool) (base : Nat) : Target :=
  if succeeds then
    { target with
      allocations := Function.update target.allocations base 0
      log := target.log ++ [.free base] }
  else target

def NtMapViewOfSection (succeeds : Bool) (base size : Nat) : Target :=
  if succeeds then
    { target with
      allocations := Function.update target.allocations base size
      log := target.log ++ [.map base size] }
  else target

def NtUnmapViewOfSection (succeeds : Bool) (base : Nat) : Target :=
  if succeeds then
    { target with
      allocations := Function.update target.allocations base 0
      log := target.log ++ [.unmap base] }
  else target

/-- `DuplicateHandle` into the target. -/
def DuplicateHandle (succeeds : Bool) (handle : Nat) : Target :=
  if succeeds then { target with log := target.log ++ [.duplicateHandle handle] } else target

/-- `DuplicateHandle` out of the target with `DUPLICATE_CLOSE_SOURCE`. -/
def CloseRemoteHandle (succeeds : Bool) (handle : Nat) : Target :=
  if succeeds then { target with log := target.log ++ [.closeHandle handle] } else target

/-- Between two states the memory has at most been written to. -/
def WrittenTo (target after : Target) : Prop :=
  after.images = target.images ∧ after.allocations = target.allocations ∧
    ∃ writes, OnlyWrites writes ∧ after.log = target.log ++ writes

theorem WrittenTo.refl (target : Target) : target.WrittenTo target :=
  ⟨rfl, rfl, [], by simp [OnlyWrites], by simp⟩

theorem WrittenTo.trans {first middle last : Target} (left : first.WrittenTo middle)
    (right : middle.WrittenTo last) : first.WrittenTo last := by
  obtain ⟨images, allocations, before, onlyBefore, isBefore⟩ := left
  obtain ⟨images', allocations', behind, onlyBehind, isBehind⟩ := right
  refine ⟨images'.trans images, allocations'.trans allocations, before ++ behind,
    onlyBefore.append onlyBehind, ?_⟩
  rw [isBehind, isBefore, List.append_assoc]

theorem writtenTo_WriteProcessMemory (succeeds : Bool) (address : Nat) (bytes : List UInt8) :
    target.WrittenTo (target.WriteProcessMemory succeeds address bytes) := by
  cases succeeds with
  | false => exact .refl target
  | true => exact ⟨rfl, rfl, _, by simp [OnlyWrites], rfl⟩

section Frame

variable (succeeds : Bool) (address base size handle : Nat) (bytes : List UInt8)

@[simp]
theorem WriteProcessMemory_images :
    (target.WriteProcessMemory succeeds address bytes).images = target.images := by
  cases succeeds <;> rfl

@[simp]
theorem WriteProcessMemory_allocations :
    (target.WriteProcessMemory succeeds address bytes).allocations = target.allocations := by
  cases succeeds <;> rfl

@[simp]
theorem VirtualAllocEx_images : (target.VirtualAllocEx base size).images = target.images := by
  unfold VirtualAllocEx
  split <;> rfl

@[simp]
theorem VirtualAllocEx_memory : (target.VirtualAllocEx base size).memory = target.memory := by
  unfold VirtualAllocEx
  split <;> rfl

@[simp]
theorem VirtualFreeEx_images : (target.VirtualFreeEx succeeds base).images = target.images := by
  cases succeeds <;> rfl

@[simp]
theorem VirtualFreeEx_memory : (target.VirtualFreeEx succeeds base).memory = target.memory := by
  cases succeeds <;> rfl

@[simp]
theorem NtMapViewOfSection_images :
    (target.NtMapViewOfSection succeeds base size).images = target.images := by
  cases succeeds <;> rfl

@[simp]
theorem NtUnmapViewOfSection_memory :
    (target.NtUnmapViewOfSection succeeds base).memory = target.memory := by
  cases succeeds <;> rfl

@[simp]
theorem NtUnmapViewOfSection_images :
    (target.NtUnmapViewOfSection succeeds base).images = target.images := by
  cases succeeds <;> rfl

@[simp]
theorem DuplicateHandle_images :
    (target.DuplicateHandle succeeds handle).images = target.images := by
  cases succeeds <;> rfl

@[simp]
theorem CloseRemoteHandle_memory :
    (target.CloseRemoteHandle succeeds handle).memory = target.memory := by
  cases succeeds <;> rfl

@[simp]
theorem CloseRemoteHandle_images :
    (target.CloseRemoteHandle succeeds handle).images = target.images := by
  cases succeeds <;> rfl

@[simp]
theorem CloseRemoteHandle_allocations :
    (target.CloseRemoteHandle succeeds handle).allocations = target.allocations := by
  cases succeeds <;> rfl

/-- A write leaves a span apart from it alone. -/
theorem read_WriteProcessMemory_apart {other count : Nat}
    (apart : Memory.Apart other count address bytes.length) :
    (target.WriteProcessMemory succeeds address bytes).memory.read other count =
      target.memory.read other count := by
  cases succeeds with
  | false => rfl
  | true => exact target.memory.read_write_apart apart

/-- Releasing one region leaves the others allocated. -/
theorem allocations_VirtualFreeEx_of_ne {other : Nat} (distinct : other ≠ base) :
    (target.VirtualFreeEx succeeds base).allocations other = target.allocations other := by
  cases succeeds with
  | false => rfl
  | true => exact Function.update_of_ne distinct _ _

theorem allocations_NtUnmapViewOfSection_of_ne {other : Nat} (distinct : other ≠ base) :
    (target.NtUnmapViewOfSection succeeds base).allocations other = target.allocations other := by
  cases succeeds with
  | false => rfl
  | true => exact Function.update_of_ne distinct _ _

end Frame

end Target

end ApiScope
