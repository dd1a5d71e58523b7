import ApiScope.Hook.Target
import ApiScope.Process.PortableExecutable

/-!
# The export lookup

`GetRemoteExport` and `GetRemoteModuleName` of `process_manager.cpp` over the memory
of the target, and the exports of an image as its tables list them.  Texts are read
with 256 bytes each, so a text in the last bytes of an image is not read at all.
-/

namespace ApiScope

open Bytes

/-! ## The code -/

/-- `memory_utils.cpp`.  A string ends at its first zero byte or with its list. -/
def CustomStrCmp : List UInt8 → List UInt8 → Int
  | left :: str1, right :: str2 =>
      if left ≠ 0 ∧ left = right then CustomStrCmp str1 str2
      else (left.toNat : Int) - right.toNat
  | left :: _, [] => left.toNat
  | [], right :: _ => -right.toNat
  | [], [] => 0

/-- A read that meets an unreadable byte fails. -/
def ReadProcessMemory (memory : Nat → Option UInt8) : Nat → Nat → Option (List UInt8)
  | _, 0 => some []
  | address, count + 1 => do
      let byte ← memory address
      let bytes ← ReadProcessMemory memory (address + 1) count
      pure (byte :: bytes)

/-- A pointer plus a `LONG`. -/
def addSigned (base offset : Nat) : Nat :=
  if offset < 2 ^ 31 then base + offset else (base + offset + (2 ^ 64 - 2 ^ 32)) % 2 ^ 64

namespace GetRemoteExport

/-- What is read in front of the loop. -/
structure ExportTables where
  virtualAddress : Nat
  size : Nat
  numberOfFunctions : Nat
  numberOfNames : Nat
  addressOfFunctions : List UInt8
  addressOfNames : List UInt8
  addressOfNameOrdinals : List UInt8
  deriving DecidableEq

def readTables (memory : Nat → Option UInt8) (dllBase : Nat) : Option ExportTables := do
  let dosHeader ← ReadProcessMemory memory dllBase sizeofImageDosHeader
  if wordAt dosHeader ImageDosHeader.e_magic 2 ≠ IMAGE_DOS_SIGNATURE.toNat then none
  else do
    let ntHeaders ← ReadProcessMemory memory
      (addSigned dllBase (wordAt dosHeader ImageDosHeader.e_lfanew 4)) sizeofImageNtHeaders
    if wordAt ntHeaders ImageNtHeaders.Signature 4 ≠ IMAGE_NT_SIGNATURE.toNat then none
    else do
      let virtualAddress := wordAt ntHeaders ImageNtHeaders.exportDirectory 4
      let size := wordAt ntHeaders (ImageNtHeaders.exportDirectory + 4) 4
      if virtualAddress = 0 then none
      else do
        let exportDir ← ReadProcessMemory memory (dllBase + virtualAddress)
          sizeofImageExportDirectory
        let numberOfFunctions := wordAt exportDir ImageExportDirectory.NumberOfFunctions 4
        let numberOfNames := wordAt exportDir ImageExportDirectory.NumberOfNames 4
        let addressOfFunctions ← ReadProcessMemory memory
          (dllBase + wordAt exportDir ImageExportDirectory.AddressOfFunctions 4)
          (numberOfFunctions * 4)
        let addressOfNames ← ReadProcessMemory memory
          (dllBase + wordAt exportDir ImageExportDirectory.AddressOfNames 4)
          (numberOfNames * 4)
        let addressOfNameOrdinals ← ReadProcessMemory memory
          (dllBase + wordAt exportDir ImageExportDirectory.AddressOfNameOrdinals 4)
          (numberOfNames * 2)
        pure ⟨virtualAddress, size, numberOfFunctions, numberOfNames, addressOfFunctions,
          addressOfNames, addressOfNameOrdinals⟩

/-- A buffer of 256 characters, the last of which is set to zero. -/
def readText (memory : Nat → Option UInt8) (address : Nat) : Option (List UInt8) := do
  let text ← ReadProcessMemory memory address 256
  pure (overwrite text 255 [0])

/-- The export behind a name. -/
def resolve (memory : Nat → Option UInt8) (dllBase : Nat) (tables : ExportTables) (index : Nat) :
    Option RemoteExport :=
  let ordinal := wordAt tables.addressOfNameOrdinals (index * 2) 2
  if tables.numberOfFunctions ≤ ordinal then none
  else
    let functionRVA := wordAt tables.addressOfFunctions (ordinal * 4) 4
    -- the end of the directory is the sum of two `DWORD`s
    if tables.virtualAddress ≤ functionRVA ∧
        functionRVA < (tables.virtualAddress + tables.size) % 2 ^ 32 then do
      let forwarder ← readText memory (dllBase + functionRVA)
      pure ⟨0, beforeZero forwarder⟩
    else some ⟨dllBase + functionRVA, []⟩

/-- The loop over the names.  A name that cannot be read is passed over. -/
def findExport (memory : Nat → Option UInt8) (dllBase : Nat) (tables : ExportTables)
    (functionName : List UInt8) : Nat → Nat → Option RemoteExport
  | 0, _ => none
  | remaining + 1, index =>
      match readText memory (dllBase + wordAt tables.addressOfNames (index * 4) 4) with
      | none => findExport memory dllBase tables functionName remaining (index + 1)
      | some currentFunctionName =>
          if CustomStrCmp currentFunctionName functionName = 0 then
            resolve memory dllBase tables index
          else findExport memory dllBase tables functionName remaining (index + 1)

end GetRemoteExport

open GetRemoteExport in
def GetRemoteExport (memory : Nat → Option UInt8) (dllBase : Nat) (functionName : List UInt8) :
    Option RemoteExport := do
  let tables ← readTables memory dllBase
  findExport memory dllBase tables functionName tables.numberOfNames 0

open GetRemoteExport in
/-- The name in the export directory; empty where there is none or it cannot be read. -/
def GetRemoteModuleName (memory : Nat → Option UInt8) (dllBase : Nat) : List UInt8 :=
  let moduleName : Option (List UInt8) := do
    let dosHeader ← ReadProcessMemory memory dllBase sizeofImageDosHeader
    if wordAt dosHeader ImageDosHeader.e_magic 2 ≠ IMAGE_DOS_SIGNATURE.toNat then none
    else do
      let ntHeaders ← ReadProcessMemory memory
        (addSigned dllBase (wordAt dosHeader ImageDosHeader.e_lfanew 4)) sizeofImageNtHeaders
      if wordAt ntHeaders ImageNtHeaders.Signature 4 ≠ IMAGE_NT_SIGNATURE.toNat then none
      else do
        let virtualAddress := wordAt ntHeaders ImageNtHeaders.exportDirectory 4
        if virtualAddress = 0 then none
        else do
          let exports ← ReadProcessMemory memory (dllBase + virtualAddress)
            sizeofImageExportDirectory
          let name := wordAt exports ImageExportDirectory.Name 4
          if name = 0 then none else readText memory (dllBase + name)
  beforeZero (moduleName.getD [])

/-! ## The exports of an image -/

namespace RemoteImage

/-- Exactly the image is readable. -/
def mapped (image : List UInt8) (base : Nat) : Nat → Option UInt8 := fun address =>
  if base ≤ address then image[address - base]? else none

variable (image : List UInt8)

def ntHeaders : Nat := wordAt image ImageDosHeader.e_lfanew 4

def exportStart : Nat := wordAt image (ntHeaders image + ImageNtHeaders.exportDirectory) 4

def exportSize : Nat := wordAt image (ntHeaders image + ImageNtHeaders.exportDirectory + 4) 4

/-- A field of the export directory. -/
def directoryField (field : Nat) : Nat := wordAt image (exportStart image + field) 4

def numberOfFunctions : Nat := directoryField image ImageExportDirectory.NumberOfFunctions

def numberOfNames : Nat := directoryField image ImageExportDirectory.NumberOfNames

def functions : Nat := directoryField image ImageExportDirectory.AddressOfFunctions

def names : Nat := directoryField image ImageExportDirectory.AddressOfNames

def ordinals : Nat := directoryField image ImageExportDirectory.AddressOfNameOrdinals

/-- The text at an offset. -/
def text (offset : Nat) : List UInt8 := beforeZero (image.drop offset)

def nameOffset (index : Nat) : Nat := wordAt image (names image + index * 4) 4

def name (index : Nat) : List UInt8 := text image (nameOffset image index)

def ordinal (index : Nat) : Nat := wordAt image (ordinals image + index * 2) 2

def functionRVA (index : Nat) : Nat := wordAt image (functions image + ordinal image index * 4) 4

/-- The function lies in the export directory. -/
def Forwarded (index : Nat) : Prop :=
  exportStart image ≤ functionRVA image index ∧
    functionRVA image index < exportStart image + exportSize image

instance (index : Nat) : Decidable (Forwarded image index) :=
  inferInstanceAs (Decidable (_ ∧ _))

/-- What a name stands for. -/
def exportAt (base index : Nat) : RemoteExport :=
  if Forwarded image index then ⟨0, text image (functionRVA image index)⟩
  else ⟨base + functionRVA image index, []⟩

/-- A text of less than 256 characters ends in the image. -/
def Terminated (offset : Nat) : Prop := ∃ length < 256, image[offset + length]? = some 0

structure WellFormed : Prop where
  sizeOfImage : wordAt image (ntHeaders image + ImageNtHeaders.SizeOfImage) 4 = image.length
  e_magic : wordAt image ImageDosHeader.e_magic 2 = IMAGE_DOS_SIGNATURE.toNat
  e_lfanew : ntHeaders image < 2 ^ 31
  ntHeaders_inside : ntHeaders image + sizeofImageNtHeaders ≤ image.length
  signature : wordAt image (ntHeaders image + ImageNtHeaders.Signature) 4 =
    IMAGE_NT_SIGNATURE.toNat
  exports : exportStart image ≠ 0
  directory_inside : exportStart image + sizeofImageExportDirectory ≤ image.length
  exports_inside : exportStart image + exportSize image ≤ image.length
  functions_inside : functions image + numberOfFunctions image * 4 ≤ image.length
  names_inside : names image + numberOfNames image * 4 ≤ image.length
  ordinals_inside : ordinals image + numberOfNames image * 2 ≤ image.length
  ordinals_bounded : ∀ index < numberOfNames image, ordinal image index < numberOfFunctions image
  names_terminated : ∀ index < numberOfNames image, Terminated image (nameOffset image index)
  forwarders_terminated : ∀ index < numberOfNames image, Forwarded image index →
    Terminated image (functionRVA image index)

/-- The first name of its kind. -/
def IsFirst (wanted : Nat → Prop) (index : Nat) : Prop :=
  index < numberOfNames image ∧ wanted index ∧ ∀ earlier < index, ¬wanted earlier

/-- What a lookup is for. -/
structure IsExact (base : Nat) (functionName : List UInt8) (result : Option RemoteExport) : Prop where
  listed : result.isSome ↔ ∃ index < numberOfNames image, name image index = beforeZero functionName
  first : ∀ index, IsFirst image (fun index => name image index = beforeZero functionName) index →
    result = some (exportAt image base index)

/-- The read of 256 bytes does not leave the image. -/
def Readable (offset : Nat) : Prop := offset + 256 ≤ image.length

instance (offset : Nat) : Decidable (Readable image offset) := inferInstanceAs (Decidable (_ ≤ _))

/-- The first name that can be read stands for what the first name stands for, and
its forwarder can be read. -/
def Reachable (base : Nat) (functionName : List UInt8) : Prop :=
  ∀ first, IsFirst image (fun index => name image index = beforeZero functionName) first →
    ∃ index,
      IsFirst image (fun index => Readable image (nameOffset image index) ∧
        name image index = beforeZero functionName) index ∧
      exportAt image base index = exportAt image base first ∧
      (Forwarded image index → Readable image (functionRVA image index))

end RemoteImage

/-! ## Strings -/

@[simp]
theorem beforeZero_nil : beforeZero [] = [] := rfl

theorem beforeZero_cons (byte : UInt8) (bytes : List UInt8) :
    beforeZero (byte :: bytes) = if byte = 0 then [] else byte :: beforeZero bytes := by
  unfold beforeZero
  by_cases ends : byte = 0
  · rw [if_pos ends, List.takeWhile_cons_of_neg (by simpa using ends)]
  · rw [if_neg ends, List.takeWhile_cons_of_pos (by simpa using ends)]

theorem customStrCmp_eq_zero_iff (str1 str2 : List UInt8) :
    CustomStrCmp str1 str2 = 0 ↔ beforeZero str1 = beforeZero str2 := by
  fun_induction CustomStrCmp str1 str2 with
  | case1 left str1 right str2 same inductionHypothesis =>
      obtain ⟨more, rfl⟩ := same
      rw [inductionHypothesis, beforeZero_cons, beforeZero_cons, if_neg more, if_neg more,
        List.cons.injEq, and_iff_right rfl]
  | case2 left str1 right str2 differ =>
      have equal : (left.toNat : Int) - right.toNat = 0 ↔ left = right := by
        rw [← UInt8.toNat_inj]
        omega
      rw [equal, beforeZero_cons, beforeZero_cons]
      by_cases leftEnds : left = 0
      · by_cases rightEnds : right = 0
        · simp [leftEnds, rightEnds]
        · simp [leftEnds, rightEnds, eq_comm]
      · have different : left ≠ right := fun same => differ ⟨leftEnds, same⟩
        by_cases rightEnds : right = 0
        · simp [leftEnds, rightEnds]
        · simp [leftEnds, rightEnds, different]
  | case3 left str1 =>
      rw [beforeZero_cons, beforeZero_nil, Int.natCast_eq_zero, ← UInt8.toNat_zero,
        UInt8.toNat_inj]
      by_cases ends : left = 0 <;> simp [ends]
  | case4 right str2 =>
      rw [beforeZero_cons, beforeZero_nil, Int.neg_eq_zero, Int.natCast_eq_zero,
        ← UInt8.toNat_zero, UInt8.toNat_inj]
      by_cases ends : right = 0 <;> simp [ends]
  | case5 => exact iff_of_true rfl rfl

/-! ## Reads of an image -/

namespace RemoteImage

variable {image : List UInt8} {base : Nat}

theorem mapped_add (offset : Nat) : mapped image base (base + offset) = image[offset]? := by
  rw [mapped, if_pos (Nat.le_add_right _ _), Nat.add_sub_cancel_left]

theorem read_inside {offset count : Nat} (inside : offset + count ≤ image.length) :
    ReadProcessMemory (mapped image base) (base + offset) count =
      some (slice image offset count) := by
  induction count generalizing offset with
  | zero => simp [ReadProcessMemory, slice]
  | succ count inductionHypothesis =>
      have present : offset < image.length := by omega
      rw [ReadProcessMemory, mapped_add, List.getElem?_eq_getElem present, Nat.add_assoc,
        inductionHypothesis (by omega)]
      have next : slice image offset (count + 1) = image[offset] :: slice image (offset + 1) count := by
        rw [slice, List.drop_eq_getElem_cons present, List.take_succ_cons, slice]
      rw [next]
      rfl

theorem read_outside {offset count : Nat} (some_ : 0 < count)
    (outside : image.length < offset + count) :
    ReadProcessMemory (mapped image base) (base + offset) count = none := by
  induction count generalizing offset with
  | zero => exact absurd some_ (Nat.lt_irrefl 0)
  | succ count inductionHypothesis =>
      rw [ReadProcessMemory, mapped_add]
      by_cases present : offset < image.length
      · rw [List.getElem?_eq_getElem present, Nat.add_assoc,
          inductionHypothesis (by omega) (by omega)]
        rfl
      · rw [List.getElem?_eq_none (by omega)]
        rfl

theorem wordAt_slice {offset count field width : Nat} (inside : field + width ≤ count) :
    wordAt (slice image offset count) field width = wordAt image (offset + field) width := by
  rw [slice, wordAt_take _ _ _ _ inside, wordAt, wordAt, slice, slice, List.drop_drop]

/-- The last byte of the buffer is one of the text or the zero behind it. -/
theorem beforeZero_buffer {offset : Nat} (terminated : Terminated image offset) :
    beforeZero (overwrite (slice image offset 256) 255 [0]) = text image offset := by
  obtain ⟨length, short, zero⟩ := terminated
  have inside : offset + length < image.length := by
    by_contra outside
    rw [List.getElem?_eq_none (by omega)] at zero
    cases zero
  have agree : ∀ index, index ≤ length →
      (image.drop offset)[index]? = (overwrite (slice image offset 256) 255 [0])[index]? := by
    intro index bound
    rw [List.getElem?_drop]
    by_cases last : index < 255
    · rw [getElem?_overwrite_outside (Or.inl last), getElem?_slice (by omega)]
    · obtain rfl : index = 255 := by omega
      obtain rfl : length = 255 := by omega
      rw [getElem?_overwrite_inside le_rfl (by decide) (by simp; omega), zero]
      rfl
  exact (beforeZero_congr (by rw [List.getElem?_drop, zero]) agree).symm

theorem readText_readable {offset : Nat} (readable : Readable image offset) :
    GetRemoteExport.readText (mapped image base) (base + offset) =
      some (overwrite (slice image offset 256) 255 [0]) := by
  rw [GetRemoteExport.readText, read_inside readable]
  rfl

theorem readText_unreadable {offset : Nat} (unreadable : ¬Readable image offset) :
    GetRemoteExport.readText (mapped image base) (base + offset) = none := by
  rw [GetRemoteExport.readText, read_outside (by decide) (not_le.mp unreadable)]
  rfl

/-! ## The lookup -/

open GetRemoteExport

/-- What is read in front of the loop. -/
def exportTables (image : List UInt8) : ExportTables where
  virtualAddress := exportStart image
  size := exportSize image
  numberOfFunctions := numberOfFunctions image
  numberOfNames := numberOfNames image
  addressOfFunctions := slice image (functions image) (numberOfFunctions image * 4)
  addressOfNames := slice image (names image) (numberOfNames image * 4)
  addressOfNameOrdinals := slice image (ordinals image) (numberOfNames image * 2)

theorem read_dosHeader (wellFormed : WellFormed image) :
    ReadProcessMemory (mapped image base) base sizeofImageDosHeader =
      some (slice image 0 sizeofImageDosHeader) := by
  have ntSize : sizeofImageNtHeaders = 264 := rfl
  have inside := wellFormed.ntHeaders_inside
  exact @read_inside image base 0 _ (by rw [sizeofImageDosHeader]; omega)

theorem addSigned_ntHeaders (wellFormed : WellFormed image) :
    addSigned base (ntHeaders image) = base + ntHeaders image := if_pos wellFormed.e_lfanew

theorem word_e_lfanew : wordAt image ImageDosHeader.e_lfanew 4 = ntHeaders image := rfl

theorem word_exportDirectory :
    wordAt image (ntHeaders image + ImageNtHeaders.exportDirectory) 4 = exportStart image := rfl

theorem readTables_eq (wellFormed : WellFormed image) :
    readTables (mapped image base) base = some (exportTables image) := by
  have field : ∀ field, field + 4 ≤ sizeofImageExportDirectory →
      wordAt (slice image (exportStart image) sizeofImageExportDirectory) field 4 =
        directoryField image field := fun _ within => wordAt_slice within
  simp only [readTables, Option.bind_eq_bind]
  rw [read_dosHeader wellFormed, Option.bind_some, wordAt_slice (by decide), Nat.zero_add,
    wellFormed.e_magic, if_neg (not_not.mpr rfl), wordAt_slice (by decide), Nat.zero_add,
    word_e_lfanew, addSigned_ntHeaders wellFormed,
    read_inside wellFormed.ntHeaders_inside, Option.bind_some, wordAt_slice (by decide),
    wellFormed.signature, if_neg (not_not.mpr rfl), wordAt_slice (by decide),
    wordAt_slice (by decide), word_exportDirectory, if_neg wellFormed.exports,
    read_inside wellFormed.directory_inside, Option.bind_some, field _ (by decide),
    field _ (by decide), field _ (by decide), field _ (by decide), field _ (by decide)]
  change (ReadProcessMemory _ (base + functions image) (numberOfFunctions image * 4)).bind _ = _
  rw [read_inside wellFormed.functions_inside, Option.bind_some]
  change (ReadProcessMemory _ (base + names image) (numberOfNames image * 4)).bind _ = _
  rw [read_inside wellFormed.names_inside, Option.bind_some]
  change (ReadProcessMemory _ (base + ordinals image) (numberOfNames image * 2)).bind _ = _
  rw [read_inside wellFormed.ordinals_inside]
  rfl

/-- The name of an image is read if the image has room for the read of 256 bytes. -/
theorem getRemoteModuleName_eq (wellFormed : WellFormed image)
    (named : directoryField image ImageExportDirectory.Name ≠ 0)
    (terminated : Terminated image (directoryField image ImageExportDirectory.Name)) :
    GetRemoteModuleName (mapped image base) base =
      if Readable image (directoryField image ImageExportDirectory.Name) then
        text image (directoryField image ImageExportDirectory.Name)
      else [] := by
  have name : wordAt (slice image (exportStart image) sizeofImageExportDirectory)
      ImageExportDirectory.Name 4 = directoryField image ImageExportDirectory.Name :=
    wordAt_slice (by decide)
  simp only [GetRemoteModuleName, Option.bind_eq_bind]
  rw [read_dosHeader wellFormed, Option.bind_some, wordAt_slice (by decide), Nat.zero_add,
    wellFormed.e_magic, if_neg (not_not.mpr rfl), wordAt_slice (by decide), Nat.zero_add,
    word_e_lfanew, addSigned_ntHeaders wellFormed,
    read_inside wellFormed.ntHeaders_inside, Option.bind_some, wordAt_slice (by decide),
    wellFormed.signature, if_neg (not_not.mpr rfl), wordAt_slice (by decide), word_exportDirectory,
    if_neg wellFormed.exports, read_inside wellFormed.directory_inside, Option.bind_some, name,
    if_neg named]
  split_ifs with readable
  · rw [readText_readable readable, Option.getD_some, beforeZero_buffer terminated]
  · rw [readText_unreadable readable]
    rfl

section Lookup

variable {functionName : List UInt8} {index : Nat}

/-- What `resolve` reads of the tables, and the export that it makes of it. -/
theorem resolve_eq (wellFormed : WellFormed image) (bound : index < numberOfNames image) :
    resolve (mapped image base) base (exportTables image) index =
      if Forwarded image index then
        (readText (mapped image base) (base + functionRVA image index)).bind fun forwarder =>
          some ⟨0, beforeZero forwarder⟩
      else some ⟨base + functionRVA image index, []⟩ := by
  have bounded := wellFormed.ordinals_bounded index bound
  have isOrdinal : wordAt (exportTables image).addressOfNameOrdinals (index * 2) 2 =
      ordinal image index := wordAt_slice (by omega)
  have isFunction : wordAt (exportTables image).addressOfFunctions (ordinal image index * 4) 4 =
      functionRVA image index := wordAt_slice (by omega)
  have unwrapped : ((exportTables image).virtualAddress + (exportTables image).size) % 2 ^ 32 =
      exportStart image + exportSize image := by
    have small := wordAt_lt image (ntHeaders image + ImageNtHeaders.SizeOfImage) 4
    rw [wellFormed.sizeOfImage] at small
    have inside := wellFormed.exports_inside
    have sum : exportStart image + exportSize image < 2 ^ 32 := by omega
    exact Nat.mod_eq_of_lt sum
  have few : ¬(exportTables image).numberOfFunctions ≤ ordinal image index := not_le.mpr bounded
  unfold resolve
  dsimp only
  rw [isOrdinal, if_neg few, isFunction, unwrapped]
  rfl

theorem resolve_readable (wellFormed : WellFormed image) (bound : index < numberOfNames image)
    (readable : Forwarded image index → Readable image (functionRVA image index)) :
    resolve (mapped image base) base (exportTables image) index =
      some (exportAt image base index) := by
  rw [resolve_eq wellFormed bound, exportAt]
  split_ifs with forwarded
  · rw [readText_readable (readable forwarded), Option.bind_some,
      beforeZero_buffer (wellFormed.forwarders_terminated index bound forwarded)]
  · rfl

theorem resolve_unreadable (wellFormed : WellFormed image) (bound : index < numberOfNames image)
    (forwarded : Forwarded image index)
    (unreadable : ¬Readable image (functionRVA image index)) :
    resolve (mapped image base) base (exportTables image) index = none := by
  rw [resolve_eq wellFormed bound, if_pos forwarded, readText_unreadable unreadable,
    Option.bind_none]

/-- The loop takes the first name that it can read and that is the wanted one. -/
theorem findExport_eq (wellFormed : WellFormed image) {remaining : Nat}
    (bound : index + remaining ≤ numberOfNames image) :
    findExport (mapped image base) base (exportTables image) functionName remaining index =
      ((List.range' index remaining).find? fun index =>
        Readable image (nameOffset image index) ∧
          name image index = beforeZero functionName).bind
        (resolve (mapped image base) base (exportTables image)) := by
  induction remaining generalizing index with
  | zero => rfl
  | succ remaining inductionHypothesis =>
      have isOffset : wordAt (exportTables image).addressOfNames (index * 4) 4 =
          nameOffset image index := wordAt_slice (by omega)
      rw [findExport, isOffset, List.range'_succ, inductionHypothesis (by omega)]
      by_cases readable : Readable image (nameOffset image index)
      · have isName := beforeZero_buffer (wellFormed.names_terminated index (by omega))
        rw [readText_readable readable]
        dsimp only
        have same := customStrCmp_eq_zero_iff
          (overwrite (slice image (nameOffset image index) 256) 255 [0]) functionName
        rw [isName] at same
        by_cases wanted : name image index = beforeZero functionName
        · rw [if_pos (same.mpr wanted), List.find?_cons_of_pos (by simpa using ⟨readable, wanted⟩),
            Option.bind_some]
        · rw [if_neg (fun zero => wanted (same.mp zero)),
            List.find?_cons_of_neg (by simpa using fun _ => wanted)]
      · rw [readText_unreadable readable,
          List.find?_cons_of_neg (by simpa using fun reads => absurd reads readable)]

theorem isFirst_iff {wanted : Nat → Prop} [DecidablePred wanted] :
    ((List.range' 0 (numberOfNames image)).find? fun index => wanted index) = some index ↔
      IsFirst image wanted index := by
  rw [List.find?_range'_eq_some]
  simp only [decide_eq_true_eq, List.mem_range'_1, Nat.zero_le, true_and, Nat.zero_add,
    true_implies, Bool.not_eq_true', decide_eq_false_iff_not, IsFirst]
  tauto

/-- A name that is listed is listed for a first time. -/
theorem exists_first {wanted : Nat → Prop} [DecidablePred wanted]
    (listed : ∃ index < numberOfNames image, wanted index) :
    ∃ index, IsFirst image wanted index :=
  ⟨Nat.find listed, (Nat.find_spec listed).1, (Nat.find_spec listed).2, fun _ before held =>
    Nat.find_min listed before ⟨before.trans (Nat.find_spec listed).1, held⟩⟩

/-- The names that a lookup can take. -/
def Hit (image functionName : List UInt8) (index : Nat) : Prop :=
  Readable image (nameOffset image index) ∧ name image index = beforeZero functionName

instance (image functionName : List UInt8) : DecidablePred (Hit image functionName) := fun _ =>
  inferInstanceAs (Decidable (_ ∧ _))

theorem getRemoteExport_eq (wellFormed : WellFormed image) :
    GetRemoteExport (mapped image base) base functionName =
      ((List.range' 0 (numberOfNames image)).find? fun index => Hit image functionName index).bind
        (resolve (mapped image base) base (exportTables image)) := by
  rw [GetRemoteExport, readTables_eq wellFormed]
  exact findExport_eq wellFormed (Nat.zero_add _).le

theorem getRemoteExport_of_hit (wellFormed : WellFormed image)
    (hit : IsFirst image (Hit image functionName) index) :
    GetRemoteExport (mapped image base) base functionName =
      resolve (mapped image base) base (exportTables image) index := by
  rw [getRemoteExport_eq wellFormed, isFirst_iff.mpr hit, Option.bind_some]

/-- A result comes from the first name that can be taken. -/
theorem exists_hit (wellFormed : WellFormed image) {result : RemoteExport}
    (found : GetRemoteExport (mapped image base) base functionName = some result) :
    ∃ index, IsFirst image (Hit image functionName) index ∧
      (Forwarded image index → Readable image (functionRVA image index)) ∧
      result = exportAt image base index := by
  rw [getRemoteExport_eq wellFormed, Option.bind_eq_some_iff] at found
  obtain ⟨index, taken, resolved⟩ := found
  have hit := isFirst_iff.mp taken
  by_cases readable : Forwarded image index → Readable image (functionRVA image index)
  · rw [resolve_readable wellFormed hit.1 readable, Option.some.injEq] at resolved
    exact ⟨index, hit, readable, resolved.symm⟩
  · rw [Classical.not_imp] at readable
    rw [resolve_unreadable wellFormed hit.1 readable.1 readable.2] at resolved
    cases resolved

/-- The lookup is exact for a name if the image has room for the reads of 256 bytes. -/
theorem isExact_iff (wellFormed : WellFormed image) (base : Nat) (functionName : List UInt8) :
    IsExact image base functionName (GetRemoteExport (mapped image base) base functionName) ↔
      Reachable image base functionName := by
  constructor
  · intro exact_ first isFirst
    obtain ⟨index, hit, readable, same⟩ := exists_hit wellFormed (exact_.first first isFirst)
    exact ⟨index, hit, same.symm, readable⟩
  · intro reachable
    have found : ∀ first,
        IsFirst image (fun index => name image index = beforeZero functionName) first →
        GetRemoteExport (mapped image base) base functionName =
          some (exportAt image base first) := by
      intro first isFirst
      obtain ⟨index, hit, same, readable⟩ := reachable first isFirst
      rw [getRemoteExport_of_hit wellFormed hit, resolve_readable wellFormed hit.1 readable, same]
    refine ⟨⟨fun some_ => ?_, fun listed => ?_⟩, found⟩
    · obtain ⟨result, isResult⟩ := Option.isSome_iff_exists.mp some_
      obtain ⟨index, hit, _⟩ := exists_hit wellFormed isResult
      exact ⟨index, hit.1, hit.2.1.2⟩
    · obtain ⟨first, isFirst⟩ := exists_first listed
      rw [found first isFirst, Option.isSome_some]

end Lookup

/-- An image of one page with an export `f`, whose name lies here. -/
def page (nameAt : Nat) : List UInt8 :=
  fileOfWords 4096 0 [(ImageDosHeader.e_magic, 2, IMAGE_DOS_SIGNATURE.toNat),
    (ImageDosHeader.e_lfanew, 4, 64),
    (64 + ImageNtHeaders.Signature, 4, IMAGE_NT_SIGNATURE.toNat),
    (64 + ImageNtHeaders.SizeOfImage, 4, 4096),
    (64 + ImageNtHeaders.exportDirectory, 4, 1024),
    (64 + ImageNtHeaders.exportDirectory + 4, 4, 64),
    (1024 + ImageExportDirectory.NumberOfFunctions, 4, 1),
    (1024 + ImageExportDirectory.NumberOfNames, 4, 1),
    (1024 + ImageExportDirectory.AddressOfFunctions, 4, 1064),
    (1024 + ImageExportDirectory.AddressOfNames, 4, 1068),
    (1024 + ImageExportDirectory.AddressOfNameOrdinals, 4, 1072),
    (1064, 4, 2048), (1068, 4, nameAt), (1072, 2, 0), (nameAt, 1, 0x66)]

/-- The name lies in the last bytes of the page. -/
def lateName : List UInt8 := page 4000

/-- The name has 256 bytes of the page behind it. -/
def earlyName : List UInt8 := page 3000

section Page

variable {nameAt : Nat} (either : nameAt = 3000 ∨ nameAt = 4000)
include either

theorem length_page : (page nameAt).length = 4096 := by
  rcases either with rfl | rfl <;> decide +kernel

theorem numberOfNames_page : numberOfNames (page nameAt) = 1 := by
  rcases either with rfl | rfl <;> decide +kernel

theorem wellFormed_page : WellFormed (page nameAt) := by
  have length := length_page either
  have names := numberOfNames_page either
  rcases either with rfl | rfl <;> exact {
    sizeOfImage := by rw [length]; decide +kernel
    e_magic := by decide +kernel
    e_lfanew := by decide +kernel
    ntHeaders_inside := by rw [length]; decide +kernel
    signature := by decide +kernel
    exports := by decide +kernel
    directory_inside := by rw [length]; decide +kernel
    exports_inside := by rw [length]; decide +kernel
    functions_inside := by rw [length]; decide +kernel
    names_inside := by rw [length, names]; decide +kernel
    ordinals_inside := by rw [length, names]; decide +kernel
    ordinals_bounded := by
      rw [names]
      intro index bound
      obtain rfl : index = 0 := Nat.lt_one_iff.mp bound
      decide +kernel
    names_terminated := by
      rw [names]
      intro index bound
      obtain rfl : index = 0 := Nat.lt_one_iff.mp bound
      exact ⟨1, by decide, by decide +kernel⟩
    forwarders_terminated := by
      rw [names]
      intro index bound forwarded
      obtain rfl : index = 0 := Nat.lt_one_iff.mp bound
      exact absurd forwarded (by decide +kernel) }

end Page

theorem wellFormed_lateName : WellFormed lateName := wellFormed_page (.inr rfl)

theorem wellFormed_earlyName : WellFormed earlyName := wellFormed_page (.inl rfl)

/-- The export is listed and not found. -/
theorem not_isExact_lateName :
    WellFormed lateName ∧
      ¬IsExact lateName 0x10000 [0x66]
        (GetRemoteExport (mapped lateName 0x10000) 0x10000 [0x66]) := by
  refine ⟨wellFormed_lateName, fun exact_ => ?_⟩
  have names : numberOfNames lateName = 1 := numberOfNames_page (.inr rfl)
  have listed : ∃ index < numberOfNames lateName, name lateName index = beforeZero [0x66] :=
    ⟨0, names ▸ Nat.one_pos, by decide +kernel⟩
  have late : ¬Readable lateName (nameOffset lateName 0) := by decide +kernel
  obtain ⟨result, found⟩ := Option.isSome_iff_exists.mp (exact_.listed.mpr listed)
  obtain ⟨index, ⟨bound, hit, _⟩, _⟩ := exists_hit wellFormed_lateName found
  rw [names] at bound
  obtain rfl : index = 0 := Nat.lt_one_iff.mp bound
  exact late hit.1

/-- Both sides fail for the late name, and both hold for the early one. -/
theorem isExact_iff_sample :
    (¬IsExact lateName 0x10000 [0x66]
        (GetRemoteExport (mapped lateName 0x10000) 0x10000 [0x66]) ∧
      ¬Reachable lateName 0x10000 [0x66]) ∧
    IsExact earlyName 0x10000 [0x66]
        (GetRemoteExport (mapped earlyName 0x10000) 0x10000 [0x66]) ∧
      Reachable earlyName 0x10000 [0x66] := by
  constructor
  · have names : numberOfNames lateName = 1 := numberOfNames_page (.inr rfl)
    have unreachable : ¬Reachable lateName 0x10000 [0x66] := by
      intro reachable
      obtain ⟨index, ⟨bound, hit, _⟩, _⟩ := reachable 0
        ⟨names ▸ Nat.one_pos, by decide +kernel, fun earlier below => absurd below earlier.not_lt_zero⟩
      rw [names] at bound
      obtain rfl : index = 0 := Nat.lt_one_iff.mp bound
      exact absurd hit.1 (by decide +kernel)
    exact ⟨(isExact_iff wellFormed_lateName 0x10000 [0x66]).not.mpr unreachable, unreachable⟩
  · have names : numberOfNames earlyName = 1 := numberOfNames_page (.inl rfl)
    have reachable : Reachable earlyName 0x10000 [0x66] := by
      rintro first ⟨bound, named, _⟩
      rw [names] at bound
      obtain rfl : first = 0 := Nat.lt_one_iff.mp bound
      refine ⟨0, ⟨names ▸ Nat.one_pos, ⟨by decide +kernel, named⟩, ?_⟩, rfl, ?_⟩
      · exact fun earlier below => absurd below earlier.not_lt_zero
      · exact fun forwarded => absurd forwarded (by decide +kernel)
    exact ⟨(isExact_iff wellFormed_earlyName 0x10000 [0x66]).mpr reachable, reachable⟩

end RemoteImage

end ApiScope
