import ApiScope.Process.Exports
import ApiScope.Process.Layout
import Mathlib.Data.List.Find

/-!
# What a lookup looks at

The bytes of an image that decide what `GetRemoteExport` finds.  An image that has
been changed anywhere else, as by its relocations, has the same exports.
-/

namespace ApiScope

open Bytes

/-- The size that the headers of an image give, 0 where they cannot be read. -/
def GetRemoteImageSize (memory : Nat → Option UInt8) (dllBase : Nat) : Nat :=
  let sizeOfImage : Option Nat := do
    let dosHeader ← ReadProcessMemory memory dllBase sizeofImageDosHeader
    if wordAt dosHeader ImageDosHeader.e_magic 2 ≠ IMAGE_DOS_SIGNATURE.toNat then none
    else do
      let ntHeaders ← ReadProcessMemory memory
        (addSigned dllBase (wordAt dosHeader ImageDosHeader.e_lfanew 4)) sizeofImageNtHeaders
      if wordAt ntHeaders ImageNtHeaders.Signature 4 ≠ IMAGE_NT_SIGNATURE.toNat then none
      else pure (wordAt ntHeaders ImageNtHeaders.SizeOfImage 4)
  sizeOfImage.getD 0

namespace RemoteImage

/-- The text at `start` has not ended in front of the offset. -/
def InText (image : List UInt8) (start offset : Nat) : Prop :=
  start ≤ offset ∧ ∀ earlier, start ≤ earlier → earlier < offset → image[earlier]? ≠ some 0

/-- The bytes that lookups of names depend on. -/
inductive Looked (image : List UInt8) (offset : Nat) : Prop where
  | dosHeader : offset < sizeofImageDosHeader → Looked image offset
  | ntHeaders : ntHeaders image ≤ offset → offset < ntHeaders image + sizeofImageNtHeaders →
      Looked image offset
  | directory : exportStart image ≤ offset →
      offset < exportStart image + sizeofImageExportDirectory → Looked image offset
  | functions : functions image ≤ offset →
      offset < functions image + numberOfFunctions image * 4 → Looked image offset
  | names : names image ≤ offset → offset < names image + numberOfNames image * 4 →
      Looked image offset
  | ordinals : ordinals image ≤ offset → offset < ordinals image + numberOfNames image * 2 →
      Looked image offset
  | name {index : Nat} : index < numberOfNames image → InText image (nameOffset image index) offset →
      Looked image offset
  | forwarder {index : Nat} : index < numberOfNames image → Forwarded image index →
      InText image (functionRVA image index) offset → Looked image offset

/-- The images have the same size, and the same bytes where lookups look. -/
structure SameLookups (image image' : List UInt8) : Prop where
  length : image'.length = image.length
  bytes : ∀ offset, Looked image offset → image'[offset]? = image[offset]?

section Same

variable {image image' : List UInt8} {base index : Nat}

/-- A text depends on its own bytes, up to its end. -/
theorem text_congr {start : Nat} (terminated : Terminated image start)
    (bytes : ∀ offset, InText image start offset → image'[offset]? = image[offset]?) :
    text image' start = text image start ∧ Terminated image' start := by
  obtain ⟨length, short, zero⟩ := terminated
  have ends : ∃ ending, image[start + ending]? = some 0 := ⟨length, zero⟩
  have first := Nat.find_min' ends zero
  have inText : ∀ position ≤ Nat.find ends, InText image start (start + position) := by
    refine fun position before => ⟨Nat.le_add_right _ _, fun earlier lower upper isZero => ?_⟩
    obtain ⟨distance, rfl⟩ := Nat.exists_eq_add_of_le lower
    exact Nat.find_min ends (by omega) isZero
  constructor
  · refine (beforeZero_congr (by rw [List.getElem?_drop]; exact Nat.find_spec ends) ?_).symm
    intro position before
    rw [List.getElem?_drop, List.getElem?_drop]
    exact (bytes _ (inText position before)).symm
  · refine ⟨Nat.find ends, by omega, ?_⟩
    rw [bytes _ (inText _ le_rfl), Nat.find_spec ends]

namespace SameLookups

theorem wordAt_eq (same : SameLookups image image') {offset width : Nat}
    (looked : ∀ address, offset ≤ address → address < offset + width → Looked image address) :
    wordAt image' offset width = wordAt image offset width :=
  congrArg ofLittleEndian
    (slice_congr fun address lower upper => same.bytes address (looked address lower upper))

theorem text_eq (same : SameLookups image image') {start : Nat}
    (terminated : Terminated image start)
    (looked : ∀ address, InText image start address → Looked image address) :
    text image' start = text image start :=
  (text_congr terminated fun offset inText => same.bytes offset (looked offset inText)).1

variable (same : SameLookups image image')

include same

theorem dosHeader_eq {field width : Nat} (inside : field + width ≤ sizeofImageDosHeader) :
    wordAt image' field width = wordAt image field width :=
  same.wordAt_eq fun _ _ upper => .dosHeader (by omega)

theorem ntHeaders_eq : RemoteImage.ntHeaders image' = RemoteImage.ntHeaders image :=
  same.dosHeader_eq (by decide)

theorem ntField_eq {field width : Nat} (inside : field + width ≤ sizeofImageNtHeaders) :
    wordAt image' (RemoteImage.ntHeaders image' + field) width =
      wordAt image (RemoteImage.ntHeaders image + field) width := by
  rw [same.ntHeaders_eq]
  exact same.wordAt_eq fun _ lower upper => .ntHeaders (by omega) (by omega)

theorem exportStart_eq : exportStart image' = exportStart image := same.ntField_eq (by decide)

theorem exportSize_eq : exportSize image' = exportSize image := by
  unfold exportSize
  rw [Nat.add_assoc, Nat.add_assoc]
  exact same.ntField_eq (by decide)

theorem directoryField_eq {field : Nat} (inside : field + 4 ≤ sizeofImageExportDirectory) :
    directoryField image' field = directoryField image field := by
  unfold directoryField
  rw [same.exportStart_eq]
  exact same.wordAt_eq fun _ lower upper => .directory (by omega) (by omega)

theorem numberOfFunctions_eq : numberOfFunctions image' = numberOfFunctions image :=
  same.directoryField_eq (by decide)

theorem numberOfNames_eq : numberOfNames image' = numberOfNames image :=
  same.directoryField_eq (by decide)

theorem functions_eq : RemoteImage.functions image' = RemoteImage.functions image :=
  same.directoryField_eq (by decide)

theorem names_eq : RemoteImage.names image' = RemoteImage.names image :=
  same.directoryField_eq (by decide)

theorem ordinals_eq : RemoteImage.ordinals image' = RemoteImage.ordinals image :=
  same.directoryField_eq (by decide)

theorem nameOffset_eq (bound : index < numberOfNames image) :
    nameOffset image' index = nameOffset image index := by
  unfold nameOffset
  rw [same.names_eq]
  exact same.wordAt_eq fun _ lower upper => .names (by omega) (by omega)

theorem ordinal_eq (bound : index < numberOfNames image) :
    ordinal image' index = ordinal image index := by
  unfold ordinal
  rw [same.ordinals_eq]
  exact same.wordAt_eq fun _ lower upper => .ordinals (by omega) (by omega)

theorem functionRVA_eq (wellFormed : WellFormed image) (bound : index < numberOfNames image) :
    functionRVA image' index = functionRVA image index := by
  have bounded := wellFormed.ordinals_bounded index bound
  unfold functionRVA
  rw [same.functions_eq, same.ordinal_eq bound]
  exact same.wordAt_eq fun _ lower upper => .functions (by omega) (by omega)

theorem name_eq (wellFormed : WellFormed image) (bound : index < numberOfNames image) :
    name image' index = name image index := by
  unfold RemoteImage.name
  rw [same.nameOffset_eq bound]
  exact same.text_eq (wellFormed.names_terminated index bound) fun _ => .name bound

theorem forwarded_iff (wellFormed : WellFormed image) (bound : index < numberOfNames image) :
    Forwarded image' index ↔ Forwarded image index := by
  unfold Forwarded
  rw [same.exportStart_eq, same.exportSize_eq, same.functionRVA_eq wellFormed bound]

/-- The same names stand for the same exports. -/
theorem exportAt_eq (wellFormed : WellFormed image) (bound : index < numberOfNames image) :
    exportAt image' base index = exportAt image base index := by
  unfold exportAt
  rw [same.functionRVA_eq wellFormed bound]
  by_cases forwarded : Forwarded image index
  · have terminated := wellFormed.forwarders_terminated index bound forwarded
    rw [if_pos ((same.forwarded_iff wellFormed bound).mpr forwarded), if_pos forwarded,
      same.text_eq terminated fun _ => .forwarder bound forwarded]
  · rw [if_neg (mt (same.forwarded_iff wellFormed bound).mp forwarded), if_neg forwarded]

theorem terminated {start : Nat} (ends : Terminated image start)
    (looked : ∀ address, InText image start address → Looked image address) :
    Terminated image' start :=
  (text_congr ends fun offset inText => same.bytes offset (looked offset inText)).2

theorem wellFormed (exports : WellFormed image) : WellFormed image' where
  sizeOfImage := (same.ntField_eq (by decide)).trans (exports.sizeOfImage.trans same.length.symm)
  e_magic := (same.dosHeader_eq (by decide)).trans exports.e_magic
  e_lfanew := same.ntHeaders_eq ▸ exports.e_lfanew
  ntHeaders_inside := by
    rw [same.ntHeaders_eq, same.length]
    exact exports.ntHeaders_inside
  signature := (same.ntField_eq (by decide)).trans exports.signature
  exports := same.exportStart_eq ▸ exports.exports
  directory_inside := by
    rw [same.exportStart_eq, same.length]
    exact exports.directory_inside
  exports_inside := by
    rw [same.exportStart_eq, same.exportSize_eq, same.length]
    exact exports.exports_inside
  functions_inside := by
    rw [same.functions_eq, same.numberOfFunctions_eq, same.length]
    exact exports.functions_inside
  names_inside := by
    rw [same.names_eq, same.numberOfNames_eq, same.length]
    exact exports.names_inside
  ordinals_inside := by
    rw [same.ordinals_eq, same.numberOfNames_eq, same.length]
    exact exports.ordinals_inside
  ordinals_bounded index bound := by
    rw [same.numberOfNames_eq] at bound
    rw [same.ordinal_eq bound, same.numberOfFunctions_eq]
    exact exports.ordinals_bounded index bound
  names_terminated index bound := by
    rw [same.numberOfNames_eq] at bound
    rw [same.nameOffset_eq bound]
    exact same.terminated (exports.names_terminated index bound) fun _ => .name bound
  forwarders_terminated index bound forwarded := by
    rw [same.numberOfNames_eq] at bound
    rw [same.forwarded_iff exports bound] at forwarded
    rw [same.functionRVA_eq exports bound]
    exact same.terminated (exports.forwarders_terminated index bound forwarded)
      fun _ => .forwarder bound forwarded

theorem readable_iff {offset : Nat} : Readable image' offset ↔ Readable image offset := by
  unfold Readable
  rw [same.length]

theorem hit_iff (wellFormed : WellFormed image) {functionName : List UInt8}
    (bound : index < numberOfNames image) :
    Hit image' functionName index ↔ Hit image functionName index := by
  unfold Hit
  rw [same.readable_iff, same.nameOffset_eq bound, same.name_eq wellFormed bound]

theorem resolve_same (exports : WellFormed image) (bound : index < numberOfNames image) :
    GetRemoteExport.resolve (mapped image' base) base (exportTables image') index =
      GetRemoteExport.resolve (mapped image base) base (exportTables image) index := by
  have exports' := same.wellFormed exports
  have bound' : index < numberOfNames image' := by rwa [same.numberOfNames_eq]
  by_cases readable : Forwarded image index → Readable image (functionRVA image index)
  · rw [resolve_readable exports bound readable, ← same.exportAt_eq exports bound]
    refine resolve_readable exports' bound' fun forwarded => ?_
    rw [same.functionRVA_eq exports bound, same.readable_iff]
    exact readable ((same.forwarded_iff exports bound).mp forwarded)
  · obtain ⟨forwarded, unreadable⟩ := Classical.not_imp.mp readable
    rw [resolve_unreadable exports bound forwarded unreadable]
    refine resolve_unreadable exports' bound' ((same.forwarded_iff exports bound).mpr forwarded) ?_
    rwa [same.functionRVA_eq exports bound, same.readable_iff]

/-- A lookup depends on the bytes that it looks at. -/
theorem getRemoteExport_same (exports : WellFormed image) (functionName : List UInt8) :
    GetRemoteExport (mapped image' base) base functionName =
      GetRemoteExport (mapped image base) base functionName := by
  rw [getRemoteExport_eq exports, getRemoteExport_eq (same.wellFormed exports),
    same.numberOfNames_eq]
  have found : ((List.range' 0 (numberOfNames image)).find? fun index =>
      Hit image' functionName index) =
      (List.range' 0 (numberOfNames image)).find? fun index => Hit image functionName index := by
    refine List.find?_congr fun index member => ?_
    have bound := (List.mem_range'_1.mp member).2
    exact decide_eq_decide.mpr (same.hit_iff exports (by omega))
  rw [found]
  cases hit : (List.range' 0 (numberOfNames image)).find? fun index =>
      Hit image functionName index with
  | none => rfl
  | some index => exact same.resolve_same exports (isFirst_iff.mp hit).1

/-- The name of a module that is left alone with the lookups. -/
theorem getRemoteModuleName_same (exports : WellFormed image)
    (named : directoryField image ImageExportDirectory.Name ≠ 0)
    (terminated : Terminated image (directoryField image ImageExportDirectory.Name))
    (bytes : ∀ offset, InText image (directoryField image ImageExportDirectory.Name) offset →
      image'[offset]? = image[offset]?) :
    GetRemoteModuleName (mapped image' base) base =
      if Readable image (directoryField image ImageExportDirectory.Name) then
        text image (directoryField image ImageExportDirectory.Name)
      else [] := by
  have field := @directoryField_eq _ _ same ImageExportDirectory.Name (by decide)
  obtain ⟨isText, ends⟩ := text_congr terminated bytes
  rw [getRemoteModuleName_eq (same.wellFormed exports) (field ▸ named) (field ▸ ends), field,
    isText]
  exact if_congr same.readable_iff rfl rfl

end SameLookups

/-- The size of an image that is readable as a whole. -/
theorem getRemoteImageSize_eq (wellFormed : WellFormed image) :
    GetRemoteImageSize (mapped image base) base = image.length := by
  simp only [GetRemoteImageSize, Option.bind_eq_bind]
  rw [read_dosHeader wellFormed, Option.bind_some, wordAt_slice (by decide), Nat.zero_add,
    wellFormed.e_magic, if_neg (not_not.mpr rfl), wordAt_slice (by decide), Nat.zero_add,
    word_e_lfanew, addSigned_ntHeaders wellFormed, read_inside wellFormed.ntHeaders_inside,
    Option.bind_some, wordAt_slice (by decide), wellFormed.signature, if_neg (not_not.mpr rfl),
    wordAt_slice (by decide), wellFormed.sizeOfImage]
  rfl

end Same

/-- Relocations that move no byte of a lookup keep all exports. -/
theorem sameLookups_of_relocated {file image : List UInt8} {targets : List Nat} {base : UInt64}
    (relocated : DllFile.Relocated file image targets base)
    (clear : ∀ offset, Looked (DllFile.layout file) offset → Untouched 8 targets offset) :
    SameLookups (DllFile.layout file) image where
  length := relocated.length.trans (DllFile.length_layout file).symm
  bytes offset looked := relocated.kept offset (clear offset looked)

end RemoteImage

end ApiScope
