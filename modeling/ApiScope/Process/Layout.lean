import ApiScope.Library.Patching
import ApiScope.Process.Exits

/-!
# What the mapper builds

The layout of a file in memory, the words that its relocations list, and the one
write of the mapper into the target: the layout with every listed word moved by
the distance between the two bases.
-/

namespace ApiScope

open Bytes Logged

/-! ## The layout of a file -/

namespace DllFile

variable (file : List UInt8)

def ntHeaders : Nat := wordAt file ImageDosHeader.e_lfanew 4

def sizeOfHeaders : Nat := wordAt file (ntHeaders file + ImageNtHeaders.SizeOfHeaders) 4

def imageBase : Nat := wordAt file (ntHeaders file + ImageNtHeaders.ImageBase) 8

def numberOfSections : Nat := wordAt file (ntHeaders file + ImageNtHeaders.NumberOfSections) 2

def firstSection : Nat :=
  ntHeaders file + ImageNtHeaders.OptionalHeader +
    wordAt file (ntHeaders file + ImageNtHeaders.SizeOfOptionalHeader) 2

def relocationStart : Nat := wordAt file (ntHeaders file + ImageNtHeaders.relocationDirectory) 4

def relocationSize : Nat :=
  wordAt file (ntHeaders file + ImageNtHeaders.relocationDirectory + 4) 4

structure Section where
  virtualAddress : Nat
  sizeOfRawData : Nat
  pointerToRawData : Nat
  deriving DecidableEq, Repr

/-- The section has raw bytes at an address of the image. -/
def Section.Covers (s : Section) (address : Nat) : Prop :=
  s.virtualAddress ≤ address ∧ address < s.virtualAddress + s.sizeOfRawData

instance (s : Section) (address : Nat) : Decidable (s.Covers address) :=
  inferInstanceAs (Decidable (_ ∧ _))

/-- Where the byte for a covered address lies in the file. -/
def Section.source (s : Section) (address : Nat) : Nat :=
  s.pointerToRawData + (address - s.virtualAddress)

/-- The section with its header at an offset. -/
def sectionAt (header : Nat) : Section where
  virtualAddress := wordAt file (header + ImageSectionHeader.VirtualAddress) 4
  sizeOfRawData := wordAt file (header + ImageSectionHeader.SizeOfRawData) 4
  pointerToRawData := wordAt file (header + ImageSectionHeader.PointerToRawData) 4

def sections : List Section :=
  (List.range' 0 (numberOfSections file)).map fun index =>
    sectionAt file (firstSection file + index * sizeofImageSectionHeader)

/-- The headers, the raw bytes of the sections, and zero elsewhere. -/
def layoutByte (address : Nat) : UInt8 :=
  if address < sizeOfHeaders file then file.getD address 0
  else
    match (sections file).find? fun s => s.Covers address with
    | some s => file.getD (s.source address) 0
    | none => 0

def layout : List UInt8 :=
  (List.range (ReflectiveDLLInject.imageSize file)).map (layoutByte file)

@[simp]
theorem length_layout : (layout file).length = ReflectiveDLLInject.imageSize file := by
  simp [layout]

/-! ## The relocations of an image -/

variable (image : List UInt8)

/-- The target of an entry of the block at `start`, if it is a DIR64 entry. -/
def entryTarget (start index : Nat) : Option Nat :=
  if wordAt image (start + sizeofImageBaseRelocation + index * 2) 2 / 4096 =
      IMAGE_REL_BASED_DIR64 then
    some (wordAt image start 4 +
      wordAt image (start + sizeofImageBaseRelocation + index * 2) 2 % 4096)
  else none

def entryTargets (start index count : Nat) : List Nat :=
  (List.range' index count).filterMap (entryTarget image start)

/-- From `start` to `stop` there are blocks that list the targets. -/
inductive Relocations (stop : Nat) : Nat → List Nat → Prop where
  | done {start : Nat} : start ≤ stop → stop < start + sizeofImageBaseRelocation →
      Relocations stop start []
  | block {start size : Nat} {targets : List Nat} :
      wordAt image start 4 ≠ 0 →
      wordAt image (start + 4) 4 = size →
      sizeofImageBaseRelocation ≤ size →
      start + size ≤ stop →
      Relocations stop (start + size) targets →
      Relocations stop start
        (entryTargets image start 0 ((size - sizeofImageBaseRelocation) / 2) ++ targets)

/-- The sections lie apart from each other and from the headers.  The relocations
list `targets`, which lie in the image, apart from each other and from their
directory. -/
structure WellFormed (targets : List Nat) : Prop where
  sections_apart : (sections file).Pairwise fun first second =>
    ∀ address, first.Covers address → ¬second.Covers address
  headers_apart : ∀ s ∈ sections file, ∀ address, s.Covers address → sizeOfHeaders file ≤ address
  relocations : Relocations (layout file) (relocationStart file + relocationSize file)
    (relocationStart file) targets
  targets_inside : ∀ target ∈ targets, target + 8 ≤ ReflectiveDLLInject.imageSize file
  targets_apart : targets.Pairwise (Apart 8)
  directory_apart : ∀ target ∈ targets, target + 8 ≤ relocationStart file ∨
    relocationStart file + relocationSize file ≤ target

/-- The layout with every target moved once. -/
structure Relocated (targets : List Nat) (base : UInt64) : Prop where
  length : image.length = ReflectiveDLLInject.imageSize file
  moved : ∀ target ∈ targets, (wordAt image target 8 : Int) =
    (wordAt (layout file) target 8 + (base.toNat - imageBase file)) % 2 ^ 64
  kept : ∀ address, Untouched 8 targets address → image[address]? = (layout file)[address]?

end DllFile

namespace ReflectiveDLLInject

open DllFile

/-! ## The copies -/

variable {file : List UInt8} {headers : Headers}

/-- A range that a write has filled holds the source, anything else what it held. -/
theorem getElem?_copy {image : List UInt8} {source size destination address : Nat}
    (inFile : source + size ≤ file.length) (inImage : destination + size ≤ image.length) :
    (copy file source size destination image).value[address]? =
      if destination ≤ address ∧ address < destination + size then
        file[source + (address - destination)]?
      else image[address]? := by
  have sized : (slice file source size).length = size := by
    rw [length_slice]
    omega
  rw [value_copy]
  split_ifs with covered
  · rw [getElem?_overwrite_inside covered.1 (by omega) (by omega), getElem?_slice (by omega)]
  · exact getElem?_overwrite_outside (by omega)

@[simp]
theorem length_copy {image : List UInt8} {source size destination : Nat} :
    (copy file source size destination image).value.length = image.length := by
  rw [value_copy, length_overwrite]

/-- The sections that are still to be copied, over what is there. -/
def covering (file background : List UInt8) (sections : List Section) (address : Nat) :
    Option UInt8 :=
  match sections.find? fun s => s.Covers address with
  | some s => file[s.source address]?
  | none => background[address]?

/-- Copying the first section moves it into the background. -/
theorem covering_cons {background filled : List UInt8} {s : Section} {rest : List Section}
    {address : Nat} (apart : ∀ other ∈ rest, s.Covers address → ¬other.Covers address)
    (copied : filled[address]? =
      if s.Covers address then file[s.source address]? else background[address]?) :
    covering file filled rest address = covering file background (s :: rest) address := by
  by_cases covers : s.Covers address
  · have alone : rest.find? (fun other => other.Covers address) = none := by
      rw [List.find?_eq_none]
      intro other listed
      simpa using apart other listed covers
    rw [covering, covering, alone, List.find?_cons_of_pos (by simpa using covers)]
    rw [if_pos covers] at copied
    exact copied
  · rw [covering, covering, List.find?_cons_of_neg (by simpa using covers), copied, if_neg covers]

theorem getElem?_copySections {remaining index : Nat} {image filled : List UInt8}
    (apart : ((List.range' index remaining).map fun index =>
      sectionAt file (headers.sectionAt index)).Pairwise fun first second =>
        ∀ address, first.Covers address → ¬second.Covers address)
    (sized : image.length = headers.sizeOfImage)
    (copied : (copySections file headers remaining index image).value = some filled) :
    filled.length = headers.sizeOfImage ∧
      ∀ address, filled[address]? = covering file image
        ((List.range' index remaining).map fun index =>
          sectionAt file (headers.sectionAt index)) address := by
  induction remaining generalizing index image with
  | zero =>
      cases copied
      exact ⟨sized, fun address => rfl⟩
  | succ remaining inductionHypothesis =>
      rw [List.range'_succ, List.map_cons] at apart ⊢
      rw [List.pairwise_cons] at apart
      rw [copySections, value_bind, value_fileWord, value_bind, value_fileWord, value_bind,
        value_fileWord] at copied
      split_ifs at copied with outside
      simp only [not_or, not_not, isRangeWithin_iff] at outside
      obtain ⟨length, later⟩ :=
        inductionHypothesis apart.2 (by rw [length_copy, sized]) copied
      refine ⟨length, fun address => ?_⟩
      rw [later address]
      exact covering_cons (fun other listed => apart.1 other listed address)
        (getElem?_copy outside.1 (by omega))

theorem map_sectionAt (valid : headers.Valid file) :
    ((List.range' 0 headers.numberOfSections).map fun index =>
      sectionAt file (headers.sectionAt index)) = sections file := by
  unfold DllFile.sections Headers.sectionAt
  rw [valid.numberOfSections, valid.firstSection, valid.ntHeaders]
  rfl

/-- Behind the copies the image is the layout. -/
theorem copySections_eq_layout {targets : List Nat} (valid : headers.Valid file)
    (wellFormed : WellFormed file targets) {filled : List UInt8}
    (copied : (copySections file headers headers.numberOfSections 0
      (copy file 0 headers.sizeOfHeaders 0 (List.replicate headers.sizeOfImage 0)).value).value =
        some filled) :
    filled = layout file := by
  have headersInFile := valid.sizeOfHeaders_le_file
  have headersInImage := valid.sizeOfHeaders_le_image
  have sizeOfHeaders : headers.sizeOfHeaders = sizeOfHeaders file := by
    rw [valid.sizeOfHeaders, valid.ntHeaders]
    rfl
  obtain ⟨length, bytes⟩ := getElem?_copySections
    (by rw [map_sectionAt valid]; exact wellFormed.sections_apart)
    (by rw [length_copy, List.length_replicate]) copied
  rw [map_sectionAt valid] at bytes
  apply List.ext_getElem?
  intro address
  by_cases inside : address < headers.sizeOfImage
  · obtain ⟨byte, present⟩ : ∃ byte, filled[address]? = some byte :=
      ⟨_, List.getElem?_eq_getElem (by omega)⟩
    have laidOut : (layout file)[address]? = some (layoutByte file address) := by
      rw [valid.sizeOfImage] at inside
      simp [layout, inside]
    rw [laidOut, present]
    rw [bytes, covering, getElem?_copy (by omega) (by simpa using headersInImage)] at present
    simp only [Nat.zero_le, true_and, Nat.zero_add, Nat.sub_zero] at present
    unfold layoutByte
    rw [sizeOfHeaders] at present
    by_cases inHeaders : address < DllFile.sizeOfHeaders file
    · have uncovered : (sections file).find? (fun s => s.Covers address) = none := by
        apply List.find?_eq_none.mpr
        intro s listed covers
        exact absurd (wellFormed.headers_apart s listed address (by simpa using covers)) (by omega)
      rw [uncovered] at present
      dsimp only at present
      rw [if_pos inHeaders] at present
      rw [if_pos inHeaders, List.getD_eq_getElem?_getD, present, Option.getD_some]
    · rw [if_neg inHeaders] at present ⊢
      cases found : (sections file).find? fun s => s.Covers address with
      | some s =>
          rw [found] at present
          dsimp only at present ⊢
          rw [List.getD_eq_getElem?_getD, present, Option.getD_some]
      | none =>
          rw [found] at present
          dsimp only at present ⊢
          rw [List.getElem?_replicate_of_lt inside] at present
          exact present.symm
  · rw [List.getElem?_eq_none (by omega), List.getElem?_eq_none]
    rw [length_layout, ← valid.sizeOfImage]
    omega

/-! ## The relocations -/

/-- Two images have the same bytes in a range. -/
def Agree (start stop : Nat) (first second : List UInt8) : Prop :=
  ∀ index, start ≤ index → index < stop → first[index]? = second[index]?

section Relocations

variable {start stop : Nat} {image original : List UInt8}

theorem Agree.wordAt_eq (agree : Agree start stop image original) {offset width : Nat}
    (lower : start ≤ offset) (upper : offset + width ≤ stop) :
    wordAt image offset width = wordAt original offset width :=
  congrArg ofLittleEndian
    (slice_congr fun index above below => agree index (by omega) (by omega))

/-- What one fixup does to its word. -/
def move (delta word : Nat) : Nat := (word + delta) % 2 ^ 64

/-- The targets lie in the image and apart from the range. -/
def Fixable (start stop sizeOfImage : Nat) (targets : List Nat) : Prop :=
  ∀ target ∈ targets, target + 8 ≤ sizeOfImage ∧ (target + 8 ≤ start ∨ stop ≤ target)

theorem Agree.patchAll {sizeOfImage delta : Nat} {targets : List Nat}
    (agree : Agree start stop image original) (fixable : Fixable start stop sizeOfImage targets) :
    Agree start stop (patchAll 8 (move delta) targets image) original := by
  intro index lower upper
  rw [getElem?_patchAll_of_untouched, agree index lower upper]
  intro target listed
  have apart := (fixable target listed).2
  omega

theorem value_relocateEntries {delta sizeOfImage reloc remaining index : Nat}
    (small : sizeOfImage < 2 ^ 32) (agree : Agree start stop image original)
    (lower : start ≤ reloc)
    (upper : reloc + sizeofImageBaseRelocation + (index + remaining) * 2 ≤ stop)
    (fixable : Fixable start stop sizeOfImage (entryTargets original reloc index remaining)) :
    (relocateEntries delta sizeOfImage reloc remaining index image).value =
      some (patchAll 8 (move delta) (entryTargets original reloc index remaining) image) := by
  induction remaining generalizing index image with
  | zero => rfl
  | succ remaining inductionHypothesis =>
      have headerSize : sizeofImageBaseRelocation = 8 := rfl
      have entry : wordAt image (reloc + sizeofImageBaseRelocation + index * 2) 2 =
          wordAt original (reloc + sizeofImageBaseRelocation + index * 2) 2 :=
        agree.wordAt_eq (by omega) (by omega)
      have page : wordAt image reloc 4 = wordAt original reloc 4 :=
        agree.wordAt_eq lower (by omega)
      rw [relocateEntries, value_bind, value_bind, value_imageWord, entry]
      by_cases dir64 : wordAt original (reloc + sizeofImageBaseRelocation + index * 2) 2 / 4096 =
          IMAGE_REL_BASED_DIR64
      · obtain ⟨target, isTarget⟩ : ∃ target, wordAt original reloc 4 +
            wordAt original (reloc + sizeofImageBaseRelocation + index * 2) 2 % 4096 = target :=
          ⟨_, rfl⟩
        have entries : entryTargets original reloc index (remaining + 1) =
            target :: entryTargets original reloc (index + 1) remaining := by
          rw [entryTargets, List.range'_succ, List.filterMap_cons_some, entryTargets]
          rw [entryTarget, if_pos dir64, isTarget]
        rw [entries] at fixable ⊢
        obtain ⟨first, rest⟩ := List.forall_mem_cons.mp fixable
        have unwrapped : target % 2 ^ 32 = target := Nat.mod_eq_of_lt (by omega)
        have checked : IsRangeWithin target 8 sizeOfImage = true := isRangeWithin_iff.mpr first.1
        rw [if_pos dir64, value_bind, value_imageWord, page]
        dsimp only
        rw [isTarget, unwrapped, if_neg (not_not.mpr checked), value_bind, value_imageWord,
          value_bind, value_emit, patchAll_cons]
        refine inductionHypothesis (@Agree.patchAll _ _ _ _ sizeOfImage delta [target] agree ?_)
          (by omega) rest
        exact List.forall_mem_singleton.mpr first
      · have entries : entryTargets original reloc index (remaining + 1) =
            entryTargets original reloc (index + 1) remaining := by
          rw [entryTargets, List.range'_succ, List.filterMap_cons_none, entryTargets]
          rw [entryTarget, if_neg dir64]
        rw [entries] at fixable ⊢
        rw [if_neg dir64]
        exact inductionHypothesis agree (by omega) fixable

/-- The walk applies the fixups of all blocks, and never meets one that it has moved. -/
theorem value_relocateBlocks {delta sizeOfImage passes reloc : Nat} {targets : List Nat}
    (small : sizeOfImage < 2 ^ 32) (relocations : Relocations original stop reloc targets)
    (agree : Agree start stop image original) (lower : start ≤ reloc)
    (fixable : Fixable start stop sizeOfImage targets) (some_ : 0 < passes)
    (enough : stop + 2 ≤ reloc + passes) :
    (relocateBlocks delta sizeOfImage stop passes reloc image).value =
      .finished (patchAll 8 (move delta) targets image) := by
  have headerSize : sizeofImageBaseRelocation = 8 := rfl
  induction relocations generalizing passes image with
  | done behind close =>
      obtain ⟨passes, rfl⟩ : ∃ before, passes = before + 1 := ⟨passes - 1, by omega⟩
      rw [relocateBlocks, if_neg (by omega)]
      rfl
  | @block reloc size targets page sizeOfBlock large inside rest inductionHypothesis =>
      obtain ⟨passes, rfl⟩ : ∃ before, passes = before + 1 := ⟨passes - 1, by omega⟩
      obtain ⟨here, later⟩ := List.forall_mem_append.mp fixable
      have moved := @Agree.patchAll _ _ _ _ _ delta _ agree here
      rw [relocateBlocks, if_pos (by omega), value_bind, value_imageWord,
        agree.wordAt_eq lower (by omega), if_neg page, value_bind, value_imageWord,
        agree.wordAt_eq (by omega) (by omega), sizeOfBlock, if_neg (by omega), value_bind,
        value_relocateEntries small agree lower (by omega) here]
      dsimp only
      rw [value_bind, value_imageWord, moved.wordAt_eq (by omega) (by omega), sizeOfBlock,
        patchAll_append]
      exact inductionHypothesis moved (by omega) later (by omega) (by omega)

/-- An empty directory lists nothing. -/
theorem unlisted_of_empty {targets : List Nat} (relocations : Relocations original stop start targets)
    (empty : stop = start) : targets = [] := by
  cases relocations with
  | done => rfl
  | block page size large inside rest =>
      have headerSize : sizeofImageBaseRelocation = 8 := rfl
      omega

/-- A listed word of the layout, moved by the distance between the bases. -/
theorem move_baseDelta (base : UInt64) {imageBase word : Nat} (small : imageBase < 2 ^ 64) :
    (move (baseDelta base imageBase) word : Int) = (word + (base.toNat - imageBase)) % 2 ^ 64 := by
  unfold move baseDelta
  have bound := base.toNat_lt
  omega

theorem relocate_layout {targets : List Nat} {base : UInt64} (valid : headers.Valid file)
    (wellFormed : WellFormed file targets)
    (finished : (relocate file headers base (layout file)).value = .finished image) :
    Relocated file image targets base := by
  have small : headers.sizeOfImage < 2 ^ 32 := by
    rw [valid.sizeOfImage, imageSize]
    exact wordAt_lt file _ 4
  have smallBase : imageBase file < 2 ^ 64 := wordAt_lt file _ 8
  have fixable : Fixable (relocationStart file) (relocationStart file + relocationSize file)
      headers.sizeOfImage targets := fun target listed =>
    ⟨by rw [valid.sizeOfImage]; exact wellFormed.targets_inside target listed,
      wellFormed.directory_apart target listed⟩
  rw [relocate, value_bind, value_fileWord, value_bind, value_fileWord, value_bind, value_fileWord,
    valid.ntHeaders] at finished
  change (if baseDelta base (imageBase file) ≠ 0 ∧ relocationSize file ≠ 0 then
    if ¬IsRangeWithin (relocationStart file) (relocationSize file) headers.sizeOfImage then
      pure .invalid
    else relocateBlocks (baseDelta base (imageBase file)) headers.sizeOfImage
      (relocationStart file + relocationSize file) (relocationSize file + 2)
      (relocationStart file) (layout file)
    else pure (.finished (layout file))).value = Walk.finished image at finished
  split_ifs at finished with needed
  · rw [value_relocateBlocks small wellFormed.relocations (fun _ _ _ => rfl) le_rfl fixable
      (by omega) (by omega)] at finished
    cases finished
    refine ⟨?_, fun target listed => ?_, fun address => getElem?_patchAll_of_untouched⟩
    · rw [length_patchAll, length_layout]
    · have word := @word_patchAll 8 (move (baseDelta base (imageBase file))) targets (layout file)
        target wellFormed.targets_apart
        (by rw [length_layout]; exact wellFormed.targets_inside target listed) listed
      rw [← move_baseDelta base smallBase, wordAt, word]
      exact congrArg _ (Nat.mod_eq_of_lt (Nat.mod_lt _ (by decide)))
  · cases finished
    refine ⟨length_layout file, fun target listed => ?_, fun _ _ => rfl⟩
    have same : baseDelta base (imageBase file) = 0 := by
      by_contra different
      have empty : relocationSize file = 0 := by
        by_contra nonempty
        exact needed ⟨different, nonempty⟩
      rw [unlisted_of_empty wellFormed.relocations (by omega)] at listed
      cases listed
    rw [← move_baseDelta base smallBase, same, move, Nat.add_zero, Nat.mod_eq_of_lt]
    exact wordAt_lt _ _ 8

end Relocations

/-! ## The write into the target -/

def Event.written : Event → Option (UInt64 × List UInt8)
  | .writeProcessMemory base bytes => some (base, bytes)
  | _ => none

/-- What a computation writes into the target, in order. -/
def writes {Result : Type} (computation : Logged Event Result) : List (UInt64 × List UInt8) :=
  computation.log.filterMap Event.written

/-- What is written is written by calls. -/
theorem writes_eq {Result : Type} (computation : Logged Event Result) :
    writes computation = (calls computation).filterMap Event.written := by
  rw [writes, calls, List.filterMap_filter]
  congr 1
  funext event
  cases event <;> rfl

theorem written_protections {base : UInt64} :
    (protections file headers base).filterMap Event.written = [] := by
  apply List.filterMap_eq_nil_iff.mpr
  intro event member
  obtain ⟨base, offset, size, protection, rfl⟩ := onlyProtects_protections event member
  rfl

/-- What a success went through. -/
theorem succeeded {system : OperatingSystem} {base : UInt64}
    (succeeds : (ReflectiveDLLInject system file).value = some base) :
    ∃ headers filled image, Prepared file headers base filled image ∧
      writes (ReflectiveDLLInject system file) = [(base, image)] := by
  have exit := exit_of_run system file
  rw [succeeds] at exit
  generalize isCalls : calls (ReflectiveDLLInject system file) = events at exit
  cases exit with
  | @mapped headers _ filled image _ prepared _ =>
      refine ⟨headers, filled, image, prepared, ?_⟩
      have written : (Event.writeProcessMemory base image).written = some (base, image) := rfl
      rw [writes_eq, isCalls, List.filterMap_append, List.filterMap_cons_none rfl,
        List.filterMap_cons_none rfl, List.filterMap_cons_some written, written_protections]
      rfl

/-- A success has written one image: the layout with every listed word moved once. -/
theorem written_image {system : OperatingSystem} {targets : List Nat} {base : UInt64}
    (wellFormed : WellFormed file targets)
    (succeeds : (ReflectiveDLLInject system file).value = some base) :
    ∃ image, writes (ReflectiveDLLInject system file) = [(base, image)] ∧
      Relocated file image targets base := by
  obtain ⟨headers, filled, image, prepared, written⟩ := succeeded succeeds
  have valid := parseHeaders_valid prepared.parsed
  have finished := prepared.relocated
  rw [copySections_eq_layout valid wellFormed prepared.copied] at finished
  exact ⟨image, written, relocate_layout valid wellFormed finished⟩

/-- An image with three sections.  The first one holds words, the second one lists those at 512
and 520 in one block and the one at 536 in another, and the third one exports `f` and `g` and
forwards `h`. -/
def movingFile : List UInt8 :=
  fileOfWords 590 0 [(ImageDosHeader.e_magic, 2, IMAGE_DOS_SIGNATURE.toNat),
    (ImageDosHeader.e_lfanew, 4, 64),
    (64 + ImageNtHeaders.Signature, 4, IMAGE_NT_SIGNATURE.toNat),
    (64 + ImageNtHeaders.NumberOfSections, 2, 3),
    (64 + ImageNtHeaders.SizeOfOptionalHeader, 2, 240),
    (64 + ImageNtHeaders.Magic, 2, IMAGE_NT_OPTIONAL_HDR64_MAGIC.toNat),
    (64 + ImageNtHeaders.ImageBase, 8, 0x400000),
    (64 + ImageNtHeaders.SizeOfImage, 4, 1280),
    (64 + ImageNtHeaders.SizeOfHeaders, 4, 448),
    (64 + ImageNtHeaders.exportDirectory, 4, 768),
    (64 + ImageNtHeaders.exportDirectory + 4, 4, 86),
    (64 + ImageNtHeaders.relocationDirectory, 4, 640),
    (64 + ImageNtHeaders.relocationDirectory + 4, 4, 24),
    (328 + ImageSectionHeader.VirtualSize, 4, 32),
    (328 + ImageSectionHeader.VirtualAddress, 4, 512),
    (328 + ImageSectionHeader.SizeOfRawData, 4, 32),
    (328 + ImageSectionHeader.PointerToRawData, 4, 448),
    (328 + ImageSectionHeader.Characteristics, 4, 0x60000020),
    (368 + ImageSectionHeader.VirtualSize, 4, 24),
    (368 + ImageSectionHeader.VirtualAddress, 4, 640),
    (368 + ImageSectionHeader.SizeOfRawData, 4, 24),
    (368 + ImageSectionHeader.PointerToRawData, 4, 480),
    (368 + ImageSectionHeader.Characteristics, 4, 0xC0000040),
    (408 + ImageSectionHeader.VirtualSize, 4, 86),
    (408 + ImageSectionHeader.VirtualAddress, 4, 768),
    (408 + ImageSectionHeader.SizeOfRawData, 4, 86),
    (408 + ImageSectionHeader.PointerToRawData, 4, 504),
    (408 + ImageSectionHeader.Characteristics, 4, 0x40000040),
    (448, 8, 0x400200), (456, 8, 0x401000), (464, 8, 0x55), (472, 8, 0x400210),
    (480, 4, 512), (484, 4, 12), (488, 2, 0xA000), (490, 2, 0xA008),
    (492, 4, 528), (496, 4, 12), (500, 2, 0xA008), (502, 2, 0),
    (504 + ImageExportDirectory.Name, 4, 844),
    (504 + ImageExportDirectory.NumberOfFunctions, 4, 3),
    (504 + ImageExportDirectory.NumberOfNames, 4, 3),
    (504 + ImageExportDirectory.AddressOfFunctions, 4, 808),
    (504 + ImageExportDirectory.AddressOfNames, 4, 820),
    (504 + ImageExportDirectory.AddressOfNameOrdinals, 4, 832),
    (544, 4, 536), (548, 4, 528), (552, 4, 850),
    (556, 4, 838), (560, 4, 840), (564, 4, 842),
    (568, 2, 1), (570, 2, 0), (572, 2, 2),
    (574, 1, 0x66), (576, 1, 0x67), (578, 1, 0x68),
    (580, 1, 0x6D), (581, 1, 0x2E), (582, 1, 0x64), (583, 1, 0x6C), (584, 1, 0x6C),
    (586, 1, 0x6E), (587, 1, 0x2E), (588, 1, 0x78)]

theorem movingFile_fields :
    imageSize movingFile = 1280 ∧
    sections movingFile = [⟨512, 32, 448⟩, ⟨640, 24, 480⟩, ⟨768, 86, 504⟩] ∧
    sizeOfHeaders movingFile = 448 ∧ relocationStart movingFile = 640 ∧
    relocationSize movingFile = 24 ∧ wordAt (layout movingFile) 640 4 = 512 ∧
    wordAt (layout movingFile) 644 4 = 12 ∧ wordAt (layout movingFile) 652 4 = 528 ∧
    wordAt (layout movingFile) 656 4 = 12 ∧
    entryTargets (layout movingFile) 640 0 ((12 - sizeofImageBaseRelocation) / 2) =
      [512, 520] ∧
    entryTargets (layout movingFile) 652 0 ((12 - sizeofImageBaseRelocation) / 2) =
      [536] := by decide +kernel

theorem wellFormed_movingFile : WellFormed movingFile [512, 520, 536] := by
  obtain ⟨size, threeSections, headersEnd, start, length, page, block, page', block', entries,
    entries'⟩ := movingFile_fields
  constructor
  · rw [threeSections]
    simp only [List.pairwise_cons, List.forall_mem_cons, List.not_mem_nil, false_imp_iff,
      implies_true, List.Pairwise.nil, and_true, Section.Covers]
    exact ⟨⟨fun _ _ => by omega, fun _ _ => by omega⟩, fun _ _ => by omega⟩
  · rw [threeSections, headersEnd]
    simp only [List.forall_mem_cons, List.not_mem_nil, false_imp_iff, implies_true, and_true,
      Section.Covers]
    exact ⟨fun _ _ => by omega, fun _ _ => by omega, fun _ _ => by omega⟩
  · rw [start, length]
    have targets : [512, 520, 536] =
        entryTargets (layout movingFile) 640 0 ((12 - sizeofImageBaseRelocation) / 2) ++
          (entryTargets (layout movingFile) 652 0 ((12 - sizeofImageBaseRelocation) / 2) ++ []) := by
      rw [entries, entries']
      rfl
    rw [targets]
    exact .block (by rw [page]; decide) block (by decide) (by decide)
      (.block (by rw [page']; decide) block' (by decide) (by decide)
        (.done (by decide) (by decide)))
  · rw [size]
    decide
  · simp [Apart]
  · rw [start, length]
    decide

theorem written_image_movingFile :
    ∃ image, writes (ReflectiveDLLInject willing movingFile) = [(0x10000, image)] ∧
      Relocated movingFile image [512, 520, 536] 0x10000 :=
  written_image wellFormed_movingFile (by decide +kernel)

end ReflectiveDLLInject

end ApiScope
