import ApiScope.Session.Forwarders
import ApiScope.Session.Invariant

/-!
# The name of a module

A hook is selected for the file name of a module.  `RegisterModule` takes the name
from the path of the file if the whole path is ASCII, and from the export directory
of the image if it is not.
-/

namespace ApiScope

/-! ## The file name -/

/-- The last component of a path. -/
def lastComponent (path : List UInt16) : List UInt16 :=
  path.rtakeWhile fun character => character != 0x5C && character != 0x2F

def IsAscii (value : List UInt16) : Prop := ∀ character ∈ value, character ≤ 0x7F

instance (value : List UInt16) : Decidable (IsAscii value) :=
  List.decidableBAll (· ≤ 0x7F) value

/-- The path of a module, as it comes back within the buffer; its file has an ASCII name. -/
structure IsModulePath (path : List UInt16) : Prop where
  fits : path.length < 32768
  named : lastComponent path ≠ []
  ascii : IsAscii (lastComponent path)

/-- The name under which the hooks of the file are selected. -/
def moduleNameOf (path : List UInt16) : List UInt8 :=
  (lastComponent path).map fun character => toLower character.toUInt8

theorem narrowAscii_of_isAscii {path : List UInt16} (ascii : IsAscii path) :
    NarrowAscii path = path.map UInt16.toUInt8 := by
  rw [NarrowAscii, if_neg]
  rw [List.any_eq_true]
  rintro ⟨character, member, large⟩
  exact absurd (ascii character member) (by simpa using large)

theorem narrowAscii_of_not_isAscii {path : List UInt16} (foreign : ¬IsAscii path) :
    NarrowAscii path = [] := by
  rw [NarrowAscii, if_pos]
  rw [List.any_eq_true]
  unfold IsAscii at foreign
  push Not at foreign
  simpa using foreign

/-- A separator is a separator before and after the conversion. -/
theorem isSeparator_toUInt8 {character : UInt16} (ascii : character ≤ 0x7F) :
    (character.toUInt8 != 0x5C && character.toUInt8 != 0x2F) =
      (character != 0x5C && character != 0x2F) := by
  have small : character.toNat ≤ 0x7F := UInt16.le_iff_toNat_le.mp ascii
  have kept : character.toUInt8.toNat = character.toNat := by
    rw [UInt16.toNat_toUInt8]
    omega
  have backslash : character.toUInt8 = 0x5C ↔ character = 0x5C := by
    rw [← UInt8.toNat_inj, ← UInt16.toNat_inj, kept]
    rfl
  have slash : character.toUInt8 = 0x2F ↔ character = 0x2F := by
    rw [← UInt8.toNat_inj, ← UInt16.toNat_inj, kept]
    rfl
  rw [Bool.eq_iff_iff]
  simp only [Bool.and_eq_true, bne_iff_ne, ne_eq, backslash, slash]

theorem takeWhile_map_toUInt8 {path : List UInt16} (ascii : IsAscii path) :
    (path.map UInt16.toUInt8).takeWhile
        (fun character => character != 0x5C && character != 0x2F) =
      (path.takeWhile fun character => character != 0x5C && character != 0x2F).map
        UInt16.toUInt8 := by
  induction path with
  | nil => rfl
  | cons first rest inductionHypothesis =>
      have isAscii := List.forall_mem_cons.mp ascii
      rw [List.map_cons, List.takeWhile_cons, List.takeWhile_cons, isSeparator_toUInt8 isAscii.1,
        inductionHypothesis isAscii.2]
      split_ifs <;> rfl

theorem normalizeModuleName_narrowAscii {path : List UInt16} (ascii : IsAscii path) :
    NormalizeModuleName (NarrowAscii path) = moduleNameOf path := by
  have reversed : IsAscii path.reverse :=
    fun character member => ascii character (List.mem_reverse.mp member)
  rw [narrowAscii_of_isAscii ascii, NormalizeModuleName, moduleNameOf, lastComponent,
    List.rtakeWhile, List.rtakeWhile, ← List.map_reverse, takeWhile_map_toUInt8 reversed,
    ← List.map_reverse, List.map_map]
  rfl

theorem moduleNameOf_ne_nil {path : List UInt16} (isModulePath : IsModulePath path) :
    moduleNameOf path ≠ [] :=
  List.map_eq_nil_iff.not.mpr isModulePath.named

/-! ## The recorded name -/

section Name

variable {image : LoadedImage} {path : List UInt16} (isFile : image.file = some path)
  (isModulePath : IsModulePath path)

include isFile isModulePath

theorem getModulePath_eq : GetModulePath image.file = path := by
  have present : path.length ≠ 0 := by
    intro empty
    obtain rfl := List.length_eq_zero_iff.mp empty
    exact isModulePath.named rfl
  rw [isFile, GetModulePath, if_neg]
  exact not_or.mpr ⟨present, isModulePath.fits.not_ge⟩

/-- The path has the last word if it is ASCII, the image if it is not. -/
theorem LoadedImage.name_eq :
    image.name =
      if IsAscii path then moduleNameOf path
      else NormalizeModuleName image.remoteModuleName := by
  rw [LoadedImage.name, getModulePath_eq isFile isModulePath]
  split_ifs with empty ascii ascii
  · rw [normalizeModuleName_narrowAscii ascii] at empty
    exact absurd empty (moduleNameOf_ne_nil isModulePath)
  · rfl
  · exact normalizeModuleName_narrowAscii ascii
  · rw [narrowAscii_of_not_isAscii ascii] at empty
    exact absurd rfl empty

theorem LoadedImage.name_eq_moduleNameOf_iff :
    image.name = moduleNameOf path ↔
      IsAscii path ∨ NormalizeModuleName image.remoteModuleName = moduleNameOf path := by
  rw [LoadedImage.name_eq isFile isModulePath]
  split_ifs with ascii
  · exact iff_of_true rfl (Or.inl ascii)
  · exact (or_iff_right ascii).symm

end Name

namespace DebugSession

/-- The module at a base has been recorded under a name since a session, and is what
is found under the name. -/
def KnownAs (before after : DebugSession) (base : Nat) (name : List UInt8) : Prop :=
  ∃ module ∈ after.modules, module.base = base ∧
    module.generation = before.moduleGeneration + 1 ∧ module.name = name ∧
    FindModule after.modules name = some module

/-- What is recorded is found, since it is the newest. -/
theorem Invariant.findModule_recordModule {session : DebugSession} (invariant : session.Invariant)
    (image : LoadedImage) :
    ∃ module ∈ (session.recordModule image).modules, module.base = image.base ∧
      module.generation = session.moduleGeneration + 1 ∧ module.name = image.name ∧
      FindModule (session.recordModule image).modules image.name = some module := by
  have member := mem_insertModule_self
    { base := image.base
      path := GetModulePath image.file
      name := image.name
      generation := session.moduleGeneration + 1 } session.modules
  refine ⟨_, member, rfl, rfl, rfl, ?_⟩
  cases search : FindModule (session.recordModule image).modules image.name with
  | none => exact absurd rfl (FindModule_eq_none_iff.mp search _ member)
  | some found =>
      rcases mem_insertModule (FindModule_some search).1 with isModule | old
      · rw [isModule]
      · have newest : session.moduleGeneration + 1 ≤ found.generation :=
          FindModule_newest search member rfl
        have issued := invariant.issued found old
        omega

/-- Whatever is recorded by a call is recorded under the name of the image. -/
theorem Invariant.knownAs_iff {session : DebugSession} (invariant : session.Invariant)
    (decode : Decoder) (calls : ModuleEvent.Calls) (image : LoadedImage) {name : List UInt8}
    (named : name ≠ []) :
    session.KnownAs (session.RegisterModule decode calls image).2 image.base name ↔
      image.name = name := by
  unfold KnownAs
  rw [modules_RegisterModule]
  constructor
  · rintro ⟨module, member, _, isNew, isNamed, _⟩
    split_ifs at member
    · have issued := invariant.issued module member
      omega
    · rcases mem_insertModule member with rfl | old
      · exact isNamed
      · have issued := invariant.issued module old
        omega
  · rintro rfl
    rw [if_neg named]
    exact invariant.findModule_recordModule image

theorem sameBooks_withImage (session : DebugSession) (image : LoadedImage) :
    SameBooks session (session.withImage image) :=
  ⟨rfl, rfl, rfl, rfl, rfl⟩

section Runs

variable {decode : Decoder} {options : CommandLineOptions} {labels : List SessionLabel}
  {session entered : DebugSession}

/-- A module is known by its file name if its whole path is ASCII, or if the name in
its export directory says the same.  `RegisterModule` is entered with the books of a
state of a run, be it behind `InitializeDebuggee`. -/
theorem knownByFileName_iff (run : (system decode options).Run labels session)
    (books : SameBooks session entered) (calls : ModuleEvent.Calls) {image : LoadedImage}
    {path : List UInt16} (isFile : image.file = some path) (isModulePath : IsModulePath path) :
    entered.KnownAs (entered.RegisterModule decode calls image).2 image.base
        (moduleNameOf path) ↔
      IsAscii path ∨ NormalizeModuleName image.remoteModuleName = moduleNameOf path := by
  have invariant := (invariant_of_run run).of_sameBooks books
  rw [invariant.knownAs_iff decode calls image (moduleNameOf_ne_nil isModulePath),
    LoadedImage.name_eq_moduleNameOf_iff isFile isModulePath]

end Runs

/-! ## A file in a directory that is not ASCII -/

namespace Sample

/-- The name under which `a.dll` was built. -/
def renamed (directory : String) : LoadedImage :=
  ⟨0x30000, some (wideText (directory ++ "\\a.dll")), narrow "plugin.dll",
    exports [("f", 0x31000)]⟩

def asciiPath : List UInt16 := wideText "C:\\tools\\a.dll"

def foreignPath : List UInt16 := wideText "C:\\測試\\a.dll"

/-- The session that the debugger has when the target maps `a.dll`. -/
def entered (image : LoadedImage) : DebugSession := (session ["f"] started).withImage image

theorem run_started : (system decode (options ["f"])).Run
    (handleAll.labels decode started (construct (options ["f"]) process 4 5))
    (session ["f"] started) :=
  handleAll_run decode (options ["f"]) started process 4 5

theorem sameBooks_entered (image : LoadedImage) :
    SameBooks (session ["f"] started) (entered image) :=
  sameBooks_withImage (session ["f"] started) image

theorem isModulePath_asciiPath : IsModulePath asciiPath :=
  ⟨by decide +kernel, by decide +kernel, by decide +kernel⟩

theorem isModulePath_foreignPath : IsModulePath foreignPath :=
  ⟨by decide +kernel, by decide +kernel, by decide +kernel⟩

end Sample

/-- The file name is `a.dll`, and no module of this name is found. -/
theorem foreignPath_unknown :
    IsModulePath Sample.foreignPath ∧
      (Sample.renamed "C:\\測試").file = some Sample.foreignPath ∧
      moduleNameOf Sample.foreignPath = narrow "a.dll" ∧
      ¬(Sample.entered (Sample.renamed "C:\\測試")).KnownAs
        ((Sample.entered (Sample.renamed "C:\\測試")).RegisterModule Sample.decode Sample.calls
          (Sample.renamed "C:\\測試")).2
        (Sample.renamed "C:\\測試").base (moduleNameOf Sample.foreignPath) ∧
      FindModule ((Sample.entered (Sample.renamed "C:\\測試")).RegisterModule Sample.decode
        Sample.calls (Sample.renamed "C:\\測試")).2.modules (narrow "a.dll") = none := by
  have unknown : FindModule ((Sample.entered (Sample.renamed "C:\\測試")).RegisterModule
      Sample.decode Sample.calls (Sample.renamed "C:\\測試")).2.modules (narrow "a.dll") = none := by
    decide +kernel
  have isName : moduleNameOf Sample.foreignPath = narrow "a.dll" := by decide +kernel
  refine ⟨Sample.isModulePath_foreignPath, by decide +kernel, isName, ?_, unknown⟩
  rintro ⟨module, _, _, _, _, found⟩
  rw [isName, unknown] at found
  cases found

theorem knownByFileName_iff_sample :
    (Sample.entered (Sample.renamed "C:\\tools")).KnownAs
      ((Sample.entered (Sample.renamed "C:\\tools")).RegisterModule Sample.decode Sample.calls
        (Sample.renamed "C:\\tools")).2
      (Sample.renamed "C:\\tools").base (moduleNameOf Sample.asciiPath) :=
  (knownByFileName_iff Sample.run_started (Sample.sameBooks_entered _) Sample.calls
    (by decide +kernel : (Sample.renamed "C:\\tools").file = some Sample.asciiPath)
    Sample.isModulePath_asciiPath).mpr (Or.inl (by decide +kernel))

end DebugSession

end ApiScope
