import ApiScope.Library.Logged
import ApiScope.Process.PortableExecutable

/-!
# The mapper

`ReflectiveDLLInject` of `process_manager.cpp`.  It builds the image of a DLL in a
local copy and writes the copy into the target.  The log has every access to the
file and to the copy, and every call into the operating system.
-/

namespace ApiScope

open Bytes Logged

/-- The offsets and sizes stay far below 2^64. -/
def IsRangeWithin (offset length bufferSize : Nat) : Bool :=
  offset ≤ bufferSize && length ≤ bufferSize - offset

def IMAGE_SCN_MEM_EXECUTE : Nat := 0x20000000
def IMAGE_SCN_MEM_READ : Nat := 0x40000000
def IMAGE_SCN_MEM_WRITE : Nat := 0x80000000

inductive MemoryProtection where
  | PAGE_NOACCESS
  | PAGE_READONLY
  | PAGE_READWRITE
  | PAGE_EXECUTE
  | PAGE_EXECUTE_READ
  | PAGE_EXECUTE_READWRITE
  deriving DecidableEq, Repr

def GetMemoryProtection (characteristics : Nat) : MemoryProtection :=
  let isExecutable := characteristics &&& IMAGE_SCN_MEM_EXECUTE ≠ 0
  let isReadable := characteristics &&& IMAGE_SCN_MEM_READ ≠ 0
  let isWritable := characteristics &&& IMAGE_SCN_MEM_WRITE ≠ 0
  if isExecutable ∧ isWritable then .PAGE_EXECUTE_READWRITE
  else if isExecutable ∧ ¬isWritable ∧ isReadable then .PAGE_EXECUTE_READ
  else if isExecutable ∧ ¬isWritable ∧ ¬isReadable then .PAGE_EXECUTE
  else if ¬isExecutable ∧ isWritable then .PAGE_READWRITE
  else if ¬isExecutable ∧ ¬isWritable ∧ isReadable then .PAGE_READONLY
  else .PAGE_NOACCESS

namespace ReflectiveDLLInject

/-- Where the walk over the relocations stands when it looks at an entry: the
local copy, the block it is in, and the index of the entry. -/
structure EntryState where
  image : List UInt8
  reloc : Nat
  index : Nat
  deriving DecidableEq

/-- `visit` is no access: it keeps the state in which an entry is looked at. -/
inductive Event where
  | readFile (span : Span)
  | readImage (span : Span)
  | writeImage (span : Span)
  | visit (state : EntryState)
  | virtualAllocEx (size : Nat) (base : UInt64)
  | virtualFreeEx (base : UInt64)
  | virtualAlloc (size : Nat) (allocated : Bool)
  | virtualFree
  | writeProcessMemory (base : UInt64) (bytes : List UInt8)
  | virtualProtectEx (base : UInt64) (offset size : Nat) (protection : MemoryProtection)
  | flushInstructionCache (base : UInt64) (size : Nat)
  deriving DecidableEq

/-- What the operating system answers.  An address of 0 is a failure; sections
are protected by their index. -/
structure OperatingSystem where
  virtualAllocEx : Nat → UInt64
  virtualAlloc : Nat → Bool
  writeProcessMemory : Bool
  virtualProtectEx : Nat → Bool
  flushInstructionCache : Bool

def fileWord (file : List UInt8) (offset width : Nat) : Logged Event Nat :=
  emit (.readFile ⟨offset, width⟩) (wordAt file offset width)

def imageWord (image : List UInt8) (offset width : Nat) : Logged Event Nat :=
  emit (.readImage ⟨offset, width⟩) (wordAt image offset width)

section Words

variable {buffer : List UInt8} {offset width : Nat} {fine : Event → Prop}

@[simp]
theorem value_fileWord : (fileWord buffer offset width).value = wordAt buffer offset width := rfl

@[simp]
theorem value_imageWord : (imageWord buffer offset width).value = wordAt buffer offset width := rfl

@[simp]
theorem all_fileWord : All fine (fileWord buffer offset width) ↔ fine (.readFile ⟨offset, width⟩) :=
  all_emit

@[simp]
theorem all_imageWord :
    All fine (imageWord buffer offset width) ↔ fine (.readImage ⟨offset, width⟩) :=
  all_emit

end Words

/-- `CustomMemCpy` from the file into the copy. -/
def copy (file : List UInt8) (source size destination : Nat) (image : List UInt8) :
    Logged Event (List UInt8) := do
  let bytes ← emit (.readFile ⟨source, size⟩) (slice file source size)
  emit (.writeImage ⟨destination, size⟩) (overwrite image destination bytes)

@[simp]
theorem value_copy {file image : List UInt8} {source size destination : Nat} :
    (copy file source size destination image).value =
      overwrite image destination (slice file source size) := rfl

/-- What the first checks leave of the headers.  The file never changes, so the
other fields are read where they are used. -/
structure Headers where
  ntHeaders : Nat
  firstSection : Nat
  numberOfSections : Nat
  sizeOfImage : Nat
  sizeOfHeaders : Nat
  deriving DecidableEq, Repr

/-- The checks in front of the first allocation. -/
def parseHeaders (file : List UInt8) : Logged Event (Option Headers) :=
  if file.length < sizeofImageDosHeader then pure none
  else do
    let e_magic ← fileWord file ImageDosHeader.e_magic 2
    if e_magic ≠ IMAGE_DOS_SIGNATURE.toNat then pure none
    else do
      let e_lfanew ← fileWord file ImageDosHeader.e_lfanew 4
      -- `e_lfanew` is signed
      if 2 ^ 31 ≤ e_lfanew ∨ ¬IsRangeWithin e_lfanew sizeofImageNtHeaders file.length then
        pure none
      else do
        let signature ← fileWord file (e_lfanew + ImageNtHeaders.Signature) 4
        let magic ← fileWord file (e_lfanew + ImageNtHeaders.Magic) 2
        if signature ≠ IMAGE_NT_SIGNATURE.toNat ∨
            magic ≠ IMAGE_NT_OPTIONAL_HDR64_MAGIC.toNat then pure none
        else do
          let sizeOfOptionalHeader ← fileWord file
            (e_lfanew + ImageNtHeaders.SizeOfOptionalHeader) 2
          let numberOfSections ← fileWord file (e_lfanew + ImageNtHeaders.NumberOfSections) 2
          -- `IMAGE_FIRST_SECTION`
          let firstSection := e_lfanew + ImageNtHeaders.OptionalHeader + sizeOfOptionalHeader
          if ¬IsRangeWithin firstSection (numberOfSections * sizeofImageSectionHeader)
              file.length then pure none
          else do
            let sizeOfImage ← fileWord file (e_lfanew + ImageNtHeaders.SizeOfImage) 4
            let sizeOfHeaders ← fileWord file (e_lfanew + ImageNtHeaders.SizeOfHeaders) 4
            if sizeOfImage = 0 ∨ file.length < sizeOfHeaders ∨ sizeOfImage < sizeOfHeaders then
              pure none
            else
              pure (some ⟨e_lfanew, firstSection, numberOfSections, sizeOfImage, sizeOfHeaders⟩)

/-- The header of a section. -/
def Headers.sectionAt (headers : Headers) (index : Nat) : Nat :=
  headers.firstSection + index * sizeofImageSectionHeader

/-- The loop of step 5. -/
def copySections (file : List UInt8) (headers : Headers) :
    Nat → Nat → List UInt8 → Logged Event (Option (List UInt8))
  | 0, _, image => pure (some image)
  | remaining + 1, index, image => do
      let pointerToRawData ← fileWord file
        (headers.sectionAt index + ImageSectionHeader.PointerToRawData) 4
      let sizeOfRawData ← fileWord file
        (headers.sectionAt index + ImageSectionHeader.SizeOfRawData) 4
      let virtualAddress ← fileWord file
        (headers.sectionAt index + ImageSectionHeader.VirtualAddress) 4
      if ¬IsRangeWithin pointerToRawData sizeOfRawData file.length ∨
          ¬IsRangeWithin virtualAddress sizeOfRawData headers.sizeOfImage then pure none
      else do
        let image ← copy file pointerToRawData sizeOfRawData virtualAddress image
        copySections file headers remaining (index + 1) image

/-- The loop over the entries of the block at `reloc`. -/
def relocateEntries (delta sizeOfImage reloc : Nat) :
    Nat → Nat → List UInt8 → Logged Event (Option (List UInt8))
  | 0, _, image => pure (some image)
  | remaining + 1, index, image => do
      emit (.visit ⟨image, reloc, index⟩) ()
      let relocData ← imageWord image (reloc + sizeofImageBaseRelocation + index * 2) 2
      if relocData / 4096 = IMAGE_REL_BASED_DIR64 then do
        let virtualAddress ← imageWord image reloc 4
        let offset := relocData % 4096
        -- the sum of two `DWORD`s
        if ¬IsRangeWithin ((virtualAddress + offset) % 2 ^ 32) 8 sizeOfImage then pure none
        else do
          -- the sum of a pointer and two `DWORD`s
          let patchAddr := virtualAddress + offset
          let word ← imageWord image patchAddr 8
          let image ← emit (.writeImage ⟨patchAddr, 8⟩)
            (overwrite image patchAddr (littleEndian 8 ((word + delta) % 2 ^ 64)))
          relocateEntries delta sizeOfImage reloc remaining (index + 1) image
      else relocateEntries delta sizeOfImage reloc remaining (index + 1) image

/-- How the walk over the relocations ends.  It never is `unfinished`
(`walk_ends`). -/
inductive Walk where
  | finished (image : List UInt8)
  | invalid
  | unfinished
  deriving DecidableEq

/-- The loop over the blocks, for a number of passes.  A fixup may change the block
that lists it, so its size is read again behind its entries. -/
def relocateBlocks (delta sizeOfImage relocationEnd : Nat) :
    Nat → Nat → List UInt8 → Logged Event Walk
  | 0, _, _ => pure .unfinished
  | passes + 1, reloc, image =>
      if reloc + sizeofImageBaseRelocation ≤ relocationEnd then do
        let virtualAddress ← imageWord image reloc 4
        if virtualAddress = 0 then pure (.finished image)
        else do
          let sizeOfBlock ← imageWord image (reloc + 4) 4
          if sizeOfBlock < sizeofImageBaseRelocation ∨ relocationEnd < reloc + sizeOfBlock then
            pure .invalid
          else do
            let count := (sizeOfBlock - sizeofImageBaseRelocation) / 2
            match ← relocateEntries delta sizeOfImage reloc count 0 image with
            | none => pure .invalid
            | some image => do
                let sizeOfBlock ← imageWord image (reloc + 4) 4
                relocateBlocks delta sizeOfImage relocationEnd passes (reloc + sizeOfBlock) image
      else pure (.finished image)

/-- What is added to every fixup. -/
def baseDelta (remoteDllBase : UInt64) (imageBase : Nat) : Nat :=
  (remoteDllBase.toNat + (2 ^ 64 - imageBase)) % 2 ^ 64

/-- Step 6.  No pass but the last leaves the walk where it was. -/
def relocate (file : List UInt8) (headers : Headers) (remoteDllBase : UInt64)
    (image : List UInt8) : Logged Event Walk := do
  let imageBase ← fileWord file (headers.ntHeaders + ImageNtHeaders.ImageBase) 8
  let delta := baseDelta remoteDllBase imageBase
  let directory := headers.ntHeaders + ImageNtHeaders.relocationDirectory
  let virtualAddress ← fileWord file directory 4
  let size ← fileWord file (directory + 4) 4
  if delta ≠ 0 ∧ size ≠ 0 then
    if ¬IsRangeWithin virtualAddress size headers.sizeOfImage then pure .invalid
    else
      relocateBlocks delta headers.sizeOfImage (virtualAddress + size) (size + 2) virtualAddress
        image
  else pure (.finished image)

/-- The loop of step 8. -/
def protectSections (system : OperatingSystem) (file : List UInt8) (headers : Headers)
    (remoteDllBase : UInt64) : Nat → Nat → Logged Event Bool
  | 0, _ => pure true
  | remaining + 1, index => do
      let characteristics ← fileWord file
        (headers.sectionAt index + ImageSectionHeader.Characteristics) 4
      let virtualSize ← fileWord file
        (headers.sectionAt index + ImageSectionHeader.VirtualSize) 4
      if 0 < virtualSize then do
        let virtualAddress ← fileWord file
          (headers.sectionAt index + ImageSectionHeader.VirtualAddress) 4
        if ¬IsRangeWithin virtualAddress virtualSize headers.sizeOfImage then pure false
        else do
          let protected_ ← emit
            (.virtualProtectEx remoteDllBase virtualAddress virtualSize
              (GetMemoryProtection characteristics)) (system.virtualProtectEx index)
          if protected_ then
            protectSections system file headers remoteDllBase remaining (index + 1)
          else pure false
      else protectSections system file headers remoteDllBase remaining (index + 1)

/-- A failure behind both allocations. -/
def fail (remoteDllBase : UInt64) : Logged Event (Option UInt64) := do
  emit .virtualFree ()
  emit (.virtualFreeEx remoteDllBase) ()
  pure none

/-- Steps 7 to 10. -/
def finish (system : OperatingSystem) (file : List UInt8) (headers : Headers)
    (remoteDllBase : UInt64) (image : List UInt8) : Logged Event (Option UInt64) := do
  let written ← emit (.writeProcessMemory remoteDllBase image) system.writeProcessMemory
  if ¬written then fail remoteDllBase
  else do
    let protected_ ← protectSections system file headers remoteDllBase headers.numberOfSections 0
    if ¬protected_ then fail remoteDllBase
    else do
      let flushed ← emit (.flushInstructionCache remoteDllBase headers.sizeOfImage)
        system.flushInstructionCache
      if ¬flushed then fail remoteDllBase
      else do
        emit .virtualFree ()
        pure (some remoteDllBase)

end ReflectiveDLLInject

open ReflectiveDLLInject in
def ReflectiveDLLInject (system : OperatingSystem) (file : List UInt8) :
    Logged Event (Option UInt64) := do
  match ← parseHeaders file with
  | none => pure none
  | some headers => do
      let remoteDllBase ← emit
        (.virtualAllocEx headers.sizeOfImage (system.virtualAllocEx headers.sizeOfImage))
        (system.virtualAllocEx headers.sizeOfImage)
      if remoteDllBase = 0 then pure none
      else do
        let allocated ← emit
          (.virtualAlloc headers.sizeOfImage (system.virtualAlloc headers.sizeOfImage))
          (system.virtualAlloc headers.sizeOfImage)
        if ¬allocated then do
          emit (.virtualFreeEx remoteDllBase) ()
          pure none
        else do
          let image ← copy file 0 headers.sizeOfHeaders 0 (List.replicate headers.sizeOfImage 0)
          match ← copySections file headers headers.numberOfSections 0 image with
          | none => fail remoteDllBase
          | some image =>
              match ← relocate file headers remoteDllBase image with
              | .finished image => finish system file headers remoteDllBase image
              | .invalid | .unfinished => fail remoteDllBase

end ApiScope
