import ApiScope.Process.Mapper

/-!
# Where the mapper reads and writes

Every range is checked before it is used, and only the check of a fixup is made on
another sum than the one that is used: the check adds in 32 bits.
-/

namespace ApiScope

open Bytes Logged

namespace ReflectiveDLLInject

/-! ## Bounds -/

/-- `SizeOfImage` -/
def imageSize (file : List UInt8) : Nat :=
  wordAt file (wordAt file ImageDosHeader.e_lfanew 4 + ImageNtHeaders.SizeOfImage) 4

/-- An access lies in its buffer. -/
def InBounds (fileSize imageSize : Nat) : Event → Prop
  | .readFile span => span.Below fileSize
  | .readImage span | .writeImage span => span.Below imageSize
  | _ => True

/-- The 32-bit sum of a fixup that passes the check is the sum. -/
def EntryState.Fits (imageSize : Nat) (state : EntryState) : Prop :=
  let relocData :=
    wordAt state.image (state.reloc + sizeofImageBaseRelocation + state.index * 2) 2
  let virtualAddress := wordAt state.image state.reloc 4
  relocData / 4096 = IMAGE_REL_BASED_DIR64 →
    virtualAddress + relocData % 4096 < 2 ^ 32 ∨
      ¬IsRangeWithin ((virtualAddress + relocData % 4096) % 2 ^ 32) 8 imageSize

def Fits (imageSize : Nat) : Event → Prop
  | .visit state => state.Fits imageSize
  | _ => True

instance (fileSize imageSize : Nat) : DecidablePred (InBounds fileSize imageSize) := fun event => by
  cases event <;> unfold InBounds <;> infer_instance

theorem isRangeWithin_iff {offset length bufferSize : Nat} :
    IsRangeWithin offset length bufferSize = true ↔ offset + length ≤ bufferSize := by
  simp only [IsRangeWithin, Bool.and_eq_true, decide_eq_true_eq]
  omega

/-! ## The headers -/

/-- What the first checks leave true. -/
structure Headers.Valid (file : List UInt8) (headers : Headers) : Prop where
  ntHeaders : headers.ntHeaders = wordAt file ImageDosHeader.e_lfanew 4
  ntHeaders_inside : headers.ntHeaders + sizeofImageNtHeaders ≤ file.length
  firstSection : headers.firstSection = headers.ntHeaders + ImageNtHeaders.OptionalHeader +
    wordAt file (headers.ntHeaders + ImageNtHeaders.SizeOfOptionalHeader) 2
  numberOfSections :
    headers.numberOfSections = wordAt file (headers.ntHeaders + ImageNtHeaders.NumberOfSections) 2
  sections_inside :
    headers.firstSection + headers.numberOfSections * sizeofImageSectionHeader ≤ file.length
  sizeOfImage : headers.sizeOfImage = imageSize file
  sizeOfHeaders :
    headers.sizeOfHeaders = wordAt file (headers.ntHeaders + ImageNtHeaders.SizeOfHeaders) 4
  sizeOfHeaders_le_file : headers.sizeOfHeaders ≤ file.length
  sizeOfHeaders_le_image : headers.sizeOfHeaders ≤ headers.sizeOfImage

theorem parseHeaders_valid {file : List UInt8} {headers : Headers}
    (parsed : (parseHeaders file).value = some headers) : headers.Valid file := by
  unfold parseHeaders at parsed
  split_ifs at parsed with short
  rw [value_bind, value_fileWord] at parsed
  split_ifs at parsed
  rw [value_bind, value_fileWord] at parsed
  split_ifs at parsed with noHeaders
  rw [value_bind, value_fileWord, value_bind, value_fileWord] at parsed
  split_ifs at parsed
  rw [value_bind, value_fileWord, value_bind, value_fileWord] at parsed
  dsimp only at parsed
  split_ifs at parsed with noSections
  rw [value_bind, value_fileWord, value_bind, value_fileWord] at parsed
  split_ifs at parsed with badSize
  cases parsed
  simp only [not_or, not_not, isRangeWithin_iff, not_lt] at noHeaders noSections badSize
  exact ⟨rfl, noHeaders.2, rfl, rfl, noSections, rfl, rfl, badSize.2.1, badSize.2.2⟩

/-- An event that is in bounds and no visit. -/
def Plain (fileSize imageSize : Nat) (event : Event) : Prop :=
  InBounds fileSize imageSize event ∧ Fits imageSize event

theorem plain_readFile {fileSize imageSize offset count : Nat} (inside : offset + count ≤ fileSize) :
    Plain fileSize imageSize (.readFile ⟨offset, count⟩) :=
  ⟨inside, trivial⟩

theorem plain_readImage {fileSize imageSize offset count : Nat}
    (inside : offset + count ≤ imageSize) :
    Plain fileSize imageSize (.readImage ⟨offset, count⟩) :=
  ⟨inside, trivial⟩

theorem plain_writeImage {fileSize imageSize offset count : Nat}
    (inside : offset + count ≤ imageSize) :
    Plain fileSize imageSize (.writeImage ⟨offset, count⟩) :=
  ⟨inside, trivial⟩

/-- Fields are read only inside ranges that have been checked. -/
theorem all_parseHeaders {file : List UInt8} {imageSize : Nat} :
    All (Plain file.length imageSize) (parseHeaders file) := by
  have dosSize : sizeofImageDosHeader = 64 := rfl
  have ntSize : sizeofImageNtHeaders = 264 := rfl
  have read : ∀ offset count, offset + count ≤ file.length →
      Plain file.length imageSize (.readFile ⟨offset, count⟩) := fun _ _ inside =>
    plain_readFile inside
  unfold parseHeaders
  split_ifs with short
  · exact all_pure _
  refine all_bind.mpr ⟨all_fileWord.mpr (read _ _ ?_), ?_⟩
  · simp only [ImageDosHeader.e_magic]
    omega
  split_ifs
  · exact all_pure _
  refine all_bind.mpr ⟨all_fileWord.mpr (read _ _ ?_), ?_⟩
  · simp only [ImageDosHeader.e_lfanew]
    omega
  rw [value_fileWord]
  generalize wordAt file ImageDosHeader.e_lfanew 4 = e_lfanew
  split_ifs with noHeaders
  · exact all_pure _
  simp only [not_or, not_not, isRangeWithin_iff] at noHeaders
  have inHeaders : ∀ field count, field + count ≤ sizeofImageNtHeaders →
      All (Plain file.length imageSize) (fileWord file (e_lfanew + field) count) :=
    fun field count inside => all_fileWord.mpr (read _ _ (by omega))
  refine all_bind.mpr ⟨inHeaders _ _ (by decide), all_bind.mpr ⟨inHeaders _ _ (by decide), ?_⟩⟩
  split_ifs
  · exact all_pure _
  refine all_bind.mpr ⟨inHeaders _ _ (by decide), all_bind.mpr ⟨inHeaders _ _ (by decide), ?_⟩⟩
  dsimp only
  split_ifs
  · refine all_bind.mpr ⟨inHeaders _ _ (by decide), all_bind.mpr ⟨inHeaders _ _ (by decide), ?_⟩⟩
    split_ifs
    · exact all_pure _
    · exact all_pure _
  · exact all_pure _

section Sections

variable {file : List UInt8} {headers : Headers}

/-- The fields of a section header lie in the file. -/
theorem Headers.Valid.field (valid : headers.Valid file) {index field count : Nat}
    (bound : index < headers.numberOfSections) (inside : field + count ≤ sizeofImageSectionHeader) :
    headers.sectionAt index + field + count ≤ file.length := by
  have sections := valid.sections_inside
  have before : (index + 1) * sizeofImageSectionHeader ≤
      headers.numberOfSections * sizeofImageSectionHeader := Nat.mul_le_mul_right _ bound
  rw [Nat.add_mul, Nat.one_mul] at before
  unfold Headers.sectionAt
  omega

theorem all_copy {source size destination : Nat} {image : List UInt8} {imageSize : Nat}
    (inFile : source + size ≤ file.length) (inImage : destination + size ≤ imageSize) :
    All (Plain file.length imageSize) (copy file source size destination image) :=
  all_bind.mpr ⟨all_emit.mpr (plain_readFile inFile), all_emit.mpr (plain_writeImage inImage)⟩

theorem all_copySections (valid : headers.Valid file) {remaining index : Nat} {image : List UInt8}
    (bound : index + remaining ≤ headers.numberOfSections) :
    All (Plain file.length headers.sizeOfImage)
      (copySections file headers remaining index image) := by
  induction remaining generalizing index image with
  | zero => exact all_pure _
  | succ remaining inductionHypothesis =>
      have field : ∀ field count, field + count ≤ sizeofImageSectionHeader →
          All (Plain file.length headers.sizeOfImage)
            (fileWord file (headers.sectionAt index + field) count) :=
        fun field count inside => all_fileWord.mpr (plain_readFile (valid.field (by omega) inside))
      refine all_bind.mpr ⟨field _ _ (by decide), all_bind.mpr ⟨field _ _ (by decide),
        all_bind.mpr ⟨field _ _ (by decide), ?_⟩⟩⟩
      split_ifs with outside
      · exact all_pure _
      · simp only [not_or, not_not, isRangeWithin_iff] at outside
        exact all_bind.mpr ⟨all_copy outside.1 outside.2, inductionHypothesis (by omega)⟩

theorem all_protectSections (valid : headers.Valid file) {system : OperatingSystem}
    {remoteDllBase : UInt64} {remaining index : Nat}
    (bound : index + remaining ≤ headers.numberOfSections) :
    All (Plain file.length headers.sizeOfImage)
      (protectSections system file headers remoteDllBase remaining index) := by
  induction remaining generalizing index with
  | zero => exact all_pure _
  | succ remaining inductionHypothesis =>
      have later := @inductionHypothesis (index + 1) (by omega)
      have field : ∀ field count, field + count ≤ sizeofImageSectionHeader →
          All (Plain file.length headers.sizeOfImage)
            (fileWord file (headers.sectionAt index + field) count) :=
        fun field count inside => all_fileWord.mpr (plain_readFile (valid.field (by omega) inside))
      refine all_bind.mpr ⟨field _ _ (by decide), all_bind.mpr ⟨field _ _ (by decide), ?_⟩⟩
      split_ifs
      · refine all_bind.mpr ⟨field _ _ (by decide), ?_⟩
        split_ifs
        · refine all_bind.mpr ⟨all_emit.mpr ⟨trivial, trivial⟩, ?_⟩
          split_ifs
          · exact later
          · exact all_pure _
        · exact all_pure _
      · exact later

end Sections

/-! ## The relocations -/

/-- A computation stays in bounds exactly if every visit fits. -/
def Exact {Result : Type} (fileSize imageSize : Nat) (computation : Logged Event Result) : Prop :=
  All (InBounds fileSize imageSize) computation ↔ All (Fits imageSize) computation

section Exact

variable {First Second : Type} {fileSize imageSize : Nat}

theorem Exact.of_plain {computation : Logged Event First}
    (plain : All (Plain fileSize imageSize) computation) :
    Exact fileSize imageSize computation :=
  iff_of_true (plain.mono fun _ => And.left) (plain.mono fun _ => And.right)

theorem Exact.bind {computation : Logged Event First} {next : First → Logged Event Second}
    (first : Exact fileSize imageSize computation)
    (second : Exact fileSize imageSize (next computation.value)) :
    Exact fileSize imageSize (computation >>= next) := by
  unfold Exact
  rw [all_bind, all_bind]
  exact and_congr first second

end Exact

section Relocations

variable {fileSize imageSize delta : Nat}

/-- A fixup that passes the check lies in the image exactly if the two sums agree. -/
theorem inside_iff_of_checked {target : Nat} (small : imageSize < 2 ^ 32)
    (checked : target % 2 ^ 32 + 8 ≤ imageSize) :
    target + 8 ≤ imageSize ↔ target < 2 ^ 32 := by
  constructor
  · intro inside
    omega
  · intro unwrapped
    rwa [Nat.mod_eq_of_lt unwrapped] at checked

theorem exact_relocateEntries (small : imageSize < 2 ^ 32) {reloc remaining index : Nat}
    {image : List UInt8}
    (inside : reloc + sizeofImageBaseRelocation + (index + remaining) * 2 ≤ imageSize) :
    Exact fileSize imageSize (relocateEntries delta imageSize reloc remaining index image) := by
  induction remaining generalizing index image with
  | zero => exact .of_plain (all_pure _)
  | succ remaining inductionHypothesis =>
      have headerSize : sizeofImageBaseRelocation = 8 := rfl
      have later := fun image => @inductionHypothesis (index + 1) image (by omega)
      unfold Exact at later
      have entryInside : reloc + sizeofImageBaseRelocation + index * 2 + 2 ≤ imageSize := by omega
      have pageInside : reloc + 4 ≤ imageSize := by omega
      obtain ⟨target, isTarget⟩ : ∃ target, wordAt image reloc 4 +
          wordAt image (reloc + sizeofImageBaseRelocation + index * 2) 2 % 4096 = target :=
        ⟨_, rfl⟩
      have fits : (EntryState.mk image reloc index).Fits imageSize ↔
          (wordAt image (reloc + sizeofImageBaseRelocation + index * 2) 2 / 4096 =
              IMAGE_REL_BASED_DIR64 →
            target < 2 ^ 32 ∨ ¬IsRangeWithin (target % 2 ^ 32) 8 imageSize) := by
        rw [← isTarget]
        exact Iff.rfl
      unfold Exact
      simp only [relocateEntries, all_bind, all_emit, value_imageWord, all_imageWord, InBounds,
        Fits, fits, Span.Below, entryInside, true_and]
      by_cases dir64 : wordAt image (reloc + sizeofImageBaseRelocation + index * 2) 2 / 4096 =
          IMAGE_REL_BASED_DIR64
      · by_cases checked : IsRangeWithin (target % 2 ^ 32) 8 imageSize = true
        · have agree := inside_iff_of_checked small (isRangeWithin_iff.mp checked)
          simp only [dir64, checked, not_true_eq_false, or_false, true_implies, if_true, if_false,
            all_bind, all_emit, value_emit, value_imageWord, all_imageWord, isTarget, InBounds, Fits,
            Span.Below, pageInside, true_and, agree, and_self_left, later]
        · simp only [dir64, checked, Bool.false_eq_true, not_false_eq_true, or_true, implies_true,
            if_true, all_bind, all_pure, value_imageWord, all_imageWord, isTarget, InBounds, Fits,
            Span.Below, pageInside, true_and]
      · simp only [dir64, false_implies, true_and, if_false, later]

theorem exact_relocateBlocks (small : imageSize < 2 ^ 32) {relocationEnd : Nat}
    (inside : relocationEnd ≤ imageSize) {passes reloc : Nat} {image : List UInt8} :
    Exact fileSize imageSize
      (relocateBlocks delta imageSize relocationEnd passes reloc image) := by
  induction passes generalizing reloc image with
  | zero => exact .of_plain (all_pure _)
  | succ passes inductionHypothesis =>
      have headerSize : sizeofImageBaseRelocation = 8 := rfl
      unfold relocateBlocks
      split_ifs with room
      · have word : ∀ field, field + 4 ≤ sizeofImageBaseRelocation → ∀ image,
            Exact fileSize imageSize (imageWord image (reloc + field) 4) :=
          fun field within image => .of_plain (all_imageWord.mpr (plain_readImage (by omega)))
        apply Exact.bind (word 0 (by decide) image)
        split_ifs
        · exact .of_plain (all_pure _)
        apply Exact.bind (word 4 (by decide) image)
        rw [value_imageWord]
        split_ifs with badBlock
        · exact .of_plain (all_pure _)
        simp only [not_or, not_lt] at badBlock
        apply Exact.bind (exact_relocateEntries small (by omega))
        cases (relocateEntries delta imageSize reloc _ 0 image).value with
        | none => exact .of_plain (all_pure _)
        | some image => exact .bind (word 4 (by decide) image) inductionHypothesis
      · exact .of_plain (all_pure _)

end Relocations

theorem exact_relocate {file : List UInt8} {headers : Headers} (valid : headers.Valid file)
    (small : headers.sizeOfImage < 2 ^ 32) {remoteDllBase : UInt64} {image : List UInt8} :
    Exact file.length headers.sizeOfImage (relocate file headers remoteDllBase image) := by
  have field : ∀ field count, field + count ≤ sizeofImageNtHeaders →
      Exact file.length headers.sizeOfImage (fileWord file (headers.ntHeaders + field) count) :=
    fun field count inside => .of_plain (all_fileWord.mpr (plain_readFile (by
      have bound := valid.ntHeaders_inside
      omega)))
  unfold relocate
  refine .bind (field _ _ (by decide)) (.bind (field _ _ (by decide)) (.bind ?_ ?_))
  · rw [Nat.add_assoc]
    exact field _ _ (by decide)
  · split_ifs with _ inside
    · rw [isRangeWithin_iff] at inside
      exact exact_relocateBlocks small inside
    · exact .of_plain (all_pure _)
    · exact .of_plain (all_pure _)

/-! ## The whole mapper -/

theorem all_fail {fileSize imageSize : Nat} {remoteDllBase : UInt64} :
    All (Plain fileSize imageSize) (fail remoteDllBase) :=
  all_bind.mpr ⟨all_emit.mpr ⟨trivial, trivial⟩,
    all_bind.mpr ⟨all_emit.mpr ⟨trivial, trivial⟩, all_pure _⟩⟩

theorem all_finish {file : List UInt8} {headers : Headers} (valid : headers.Valid file)
    {system : OperatingSystem} {remoteDllBase : UInt64} {image : List UInt8} :
    All (Plain file.length headers.sizeOfImage)
      (finish system file headers remoteDllBase image) := by
  unfold finish
  refine all_bind.mpr ⟨all_emit.mpr ⟨trivial, trivial⟩, ?_⟩
  split_ifs
  · refine all_bind.mpr ⟨all_protectSections valid (by omega), ?_⟩
    split_ifs
    · refine all_bind.mpr ⟨all_emit.mpr ⟨trivial, trivial⟩, ?_⟩
      split_ifs
      · exact all_bind.mpr ⟨all_emit.mpr ⟨trivial, trivial⟩, all_pure _⟩
      · exact all_fail
    · exact all_fail
  · exact all_fail

/-- The mapper stays in its buffers exactly if no fixup that it looks at has a 32-bit
sum that wraps around into the image. -/
theorem inBounds_iff (system : OperatingSystem) (file : List UInt8) :
    All (InBounds file.length (imageSize file)) (ReflectiveDLLInject system file) ↔
      All (Fits (imageSize file)) (ReflectiveDLLInject system file) := by
  change Exact file.length (imageSize file) (ReflectiveDLLInject system file)
  unfold ReflectiveDLLInject
  apply Exact.bind (.of_plain all_parseHeaders)
  cases parsed : (parseHeaders file).value with
  | none => exact .of_plain (all_pure _)
  | some headers =>
      have valid := parseHeaders_valid parsed
      have small : headers.sizeOfImage < 2 ^ 32 := by
        rw [valid.sizeOfImage, imageSize]
        exact wordAt_lt file _ 4
      rw [← valid.sizeOfImage]
      have call : ∀ {Result : Type} (event : Event) (result : Result),
          Plain file.length headers.sizeOfImage event →
          Exact file.length headers.sizeOfImage (emit event result) := fun _ _ plain =>
        .of_plain (all_emit.mpr plain)
      refine .bind (call _ _ ⟨trivial, trivial⟩) ?_
      split_ifs
      · exact .of_plain (all_pure _)
      refine .bind (call _ _ ⟨trivial, trivial⟩) ?_
      split_ifs
      · have headersInside := valid.sizeOfHeaders_le_file
        have headersInside' := valid.sizeOfHeaders_le_image
        apply Exact.bind (.of_plain (all_copy (by omega) (by omega)))
        apply Exact.bind (.of_plain (all_copySections valid (by omega)))
        cases (copySections file headers headers.numberOfSections 0 _).value with
        | none => exact .of_plain all_fail
        | some image =>
            apply Exact.bind (exact_relocate valid small)
            cases (relocate file headers _ image).value with
            | finished image => exact .of_plain (all_finish valid)
            | invalid => exact .of_plain all_fail
            | unfinished => exact .of_plain all_fail
      · exact .bind (call _ _ ⟨trivial, trivial⟩) (.of_plain (all_pure _))

/-- A system that answers every call with a success. -/
def willing : OperatingSystem where
  virtualAllocEx := fun _ => 0x10000
  virtualAlloc := fun _ => true
  writeProcessMemory := true
  virtualProtectEx := fun _ => true
  flushInstructionCache := true

/-- An image without sections.  Its headers hold one block of relocations, with a
DIR64 entry whose target is 2^32. -/
def wrappingFile : List UInt8 :=
  fileOfWords 340 0 [(ImageDosHeader.e_magic, 2, IMAGE_DOS_SIGNATURE.toNat),
    (ImageDosHeader.e_lfanew, 4, 64),
    (64 + ImageNtHeaders.Signature, 4, IMAGE_NT_SIGNATURE.toNat),
    (64 + ImageNtHeaders.SizeOfOptionalHeader, 2, 240),
    (64 + ImageNtHeaders.Magic, 2, IMAGE_NT_OPTIONAL_HDR64_MAGIC.toNat),
    (64 + ImageNtHeaders.SizeOfImage, 4, 512),
    (64 + ImageNtHeaders.SizeOfHeaders, 4, 340),
    (64 + ImageNtHeaders.relocationDirectory, 4, 328),
    (64 + ImageNtHeaders.relocationDirectory + 4, 4, 12),
    (328, 4, 0xFFFFFFF8), (332, 4, 12), (336, 2, 0xA008)]

theorem not_inBounds_wrappingFile :
    ¬All (InBounds wrappingFile.length (imageSize wrappingFile))
      (ReflectiveDLLInject willing wrappingFile) := by
  intro held
  have outside : Event.writeImage ⟨2 ^ 32, 8⟩ ∈ (ReflectiveDLLInject willing wrappingFile).log := by
    decide +kernel
  have size : imageSize wrappingFile = 512 := by decide +kernel
  have inside : 2 ^ 32 + 8 ≤ imageSize wrappingFile := held _ outside
  omega

end ReflectiveDLLInject

end ApiScope
