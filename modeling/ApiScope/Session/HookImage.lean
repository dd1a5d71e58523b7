import ApiScope.Process.Footprint
import ApiScope.Process.Injection
import ApiScope.Session.DebugSession

/-!
# The image that a session maps

The session sees the injection of its DLL from the side of the target: a region
that is allocated, written and mapped, or released again.  That is what the calls
of the mapper come to, whatever is in the file.  What the session reads of the
image later, its size and its exports, is what the file says.
-/

namespace ApiScope

open Bytes Logged

namespace ReflectiveDLLInject

/-- What a call does to the target.  The other processes and the protections are not part of it. -/
def Event.apply (written : Bool) (released : UInt64 → Bool) (event : Event) (process : Target) :
    Target :=
  match event with
  | .virtualAllocEx size base => process.VirtualAllocEx base.toNat size
  | .virtualFreeEx base => process.VirtualFreeEx (released base) base.toNat
  | .writeProcessMemory base bytes => process.WriteProcessMemory written base.toNat bytes
  | _ => process

section Perform

variable {written : Bool} {released : UInt64 → Bool} {file : List UInt8} {headers : Headers}

theorem perform_silent {Result : Type} {computation : Logged Event Result}
    (silent : Silent computation) (process : Target) :
    perform (Event.apply written released) computation process = process := by
  refine perform_of_all _ (silent.mono fun event noCall => ?_) process
  cases event <;> first | exact fun _ => rfl | cases noCall

theorem perform_protectSections {system : OperatingSystem} {base : UInt64} {remaining index : Nat}
    (process : Target) :
    perform (Event.apply written released)
      (protectSections system file headers base remaining index) process = process := by
  refine perform_of_all _ ?_ process
  induction remaining generalizing index with
  | zero => exact all_pure _
  | succ remaining inductionHypothesis =>
      simp only [protectSections, all_ite, all_bind, all_pure, all_emit, all_fileWord, Event.apply,
        implies_true, true_and]
      exact ⟨fun _ _ => ⟨fun _ => inductionHypothesis, trivial⟩, fun _ => inductionHypothesis⟩

end Perform

/-! ## The mapper from the side of the target -/

variable (system : OperatingSystem) (released : UInt64 → Bool) (file : List UInt8)

/-- The copy that is ready to be written, if there is one. -/
def preparedImage (headers : Headers) (base : UInt64) : Option (List UInt8) :=
  (copySections file headers headers.numberOfSections 0
    (copy file 0 headers.sizeOfHeaders 0 (List.replicate headers.sizeOfImage 0)).value).value.bind
      fun filled =>
        match (relocate file headers base filled).value with
        | .finished image => some image
        | .invalid | .unfinished => none

/-- Nothing has been asked of the target. -/
def refusal (exports : ExportTable) : InjectDll.Calls where
  image := ⟨0, [], exports⟩
  accepted := false
  allocation := 0
  prepared := false
  write := false
  protect := false
  flush := false
  free := false

/-- The answers that the session gets for the calls of the mapper. -/
def sessionCalls (exports : ExportTable) : InjectDll.Calls :=
  match (parseHeaders file).value with
  | none => refusal exports
  | some headers =>
      let base := system.virtualAllocEx headers.sizeOfImage
      let image := preparedImage file headers base
      { image := ⟨headers.sizeOfImage, image.getD [], exports⟩
        accepted := true
        allocation := base.toNat
        prepared := system.virtualAlloc headers.sizeOfImage && image.isSome
        write := system.writeProcessMemory
        protect := (protectSections system file headers base headers.numberOfSections 0).value
        flush := system.flushInstructionCache
        free := released base }

/-- The base of the image, null on failure, and the target with the image in it. -/
def seen (exports : ExportTable) (result : Option UInt64) (process : Target) : Nat × Target :=
  match result with
  | none => (0, process)
  | some base => (base.toNat, process.mapImage base.toNat exports)

variable {system released file}

theorem seen_finish {headers : Headers} {base : UInt64} {image : List UInt8}
    (exports : ExportTable) (process : Target) :
    seen exports (finish system file headers base image).value
        (perform (Event.apply system.writeProcessMemory released)
          (finish system file headers base image) process) =
      let process := process.WriteProcessMemory system.writeProcessMemory base.toNat image
      if !system.writeProcessMemory ||
          !(protectSections system file headers base headers.numberOfSections 0).value ||
          !system.flushInstructionCache then
        (0, process.VirtualFreeEx (released base) base.toNat)
      else (base.toNat, process.mapImage base.toNat exports) := by
  unfold finish
  rw [value_bind, value_emit, perform_bind, perform_emit, value_emit]
  cases written : system.writeProcessMemory with
  | false => rfl
  | true =>
      rw [if_neg (by decide), value_bind, perform_bind, perform_protectSections]
      cases (protectSections system file headers base headers.numberOfSections 0).value with
      | false => rfl
      | true => cases system.flushInstructionCache <;> rfl

/-- The session and the mapper agree. -/
theorem injectDll_sessionCalls (system : OperatingSystem) (released : UInt64 → Bool)
    (file : List UInt8) (exports : ExportTable) (process : Target) :
    InjectDll (sessionCalls system released file exports) process =
      seen exports (ReflectiveDLLInject system file).value
        (perform (Event.apply system.writeProcessMemory released)
          (ReflectiveDLLInject system file) process) := by
  unfold ReflectiveDLLInject sessionCalls
  rw [value_bind, perform_bind, perform_silent silent_parseHeaders]
  cases parsed : (parseHeaders file).value with
  | none => rfl
  | some headers =>
      dsimp only
      rw [value_bind, value_emit, perform_bind, perform_emit, value_emit]
      generalize system.virtualAllocEx headers.sizeOfImage = base
      by_cases refused : base = 0
      · subst refused
        rw [if_pos rfl]
        rfl
      · have allocates : base.toNat ≠ 0 := fun isZero => refused (UInt64.toNat_inj.mp isZero)
        rw [if_neg refused, value_bind, value_emit, perform_bind, perform_emit, value_emit]
        unfold InjectDll
        dsimp only
        rw [if_neg (by decide), if_neg allocates]
        cases system.virtualAlloc headers.sizeOfImage with
        | false => rfl
        | true =>
            rw [if_neg (not_not.mpr rfl), value_bind, perform_bind, perform_silent silent_copy,
              value_bind, perform_bind, perform_silent silent_copySections, preparedImage]
            cases (copySections file headers headers.numberOfSections 0
              (copy file 0 headers.sizeOfHeaders 0
                (List.replicate headers.sizeOfImage 0)).value).value with
            | none => rfl
            | some filled =>
                dsimp only [Option.bind_some]
                rw [value_bind, perform_bind, perform_silent silent_relocate]
                obtain ⟨walk, relocated⟩ : ∃ walk, (relocate file headers base filled).value = walk :=
                  ⟨_, rfl⟩
                simp only [relocated]
                cases walk with
                | finished image => exact (seen_finish exports _).symm
                | invalid | unfinished => rfl

end ReflectiveDLLInject

/-! ## The injection of a file -/

namespace Mapper

open ReflectiveDLLInject

def Event.apply (system : OperatingSystem) (event : Event) (process : Target) : Target :=
  match event with
  | .mapper event =>
      event.apply system.mapper.writeProcessMemory
        (fun base => system.releases (.remoteImage base)) process
  | .createFileW _ | .virtualAlloc _ _ | .virtualFree | .closeHandle _ => process

/-- The file, if all of it has been read. -/
def wholeFile (system : OperatingSystem) : Option (List UInt8) :=
  if system.createFileW = none ∨ system.getFileSize = INVALID_FILE_SIZE ∨ system.getFileSize = 0 ∨
      system.virtualAlloc system.getFileSize = false then none
  else system.readFile.filter fun file => file.length = system.getFileSize

/-- The answers that the session gets for the calls of an injection. -/
def sessionCalls (system : OperatingSystem) (exports : ExportTable) : InjectDll.Calls :=
  match wholeFile system with
  | none => refusal exports
  | some file =>
      ReflectiveDLLInject.sessionCalls system.mapper
        (fun base => system.releases (.remoteImage base)) file exports

/-- Whatever the file is and the operating system answers, the session's `InjectDll` returns the
base that the mapper returns, and leaves the target as the calls of the mapper leave it. -/
theorem injectDll_refines (system : OperatingSystem) (exports : ExportTable) (process : Target) :
    ApiScope.InjectDll (sessionCalls system exports) process =
      seen exports (InjectDll system).value
        (perform (Event.apply system) (InjectDll system) process) := by
  unfold InjectDll sessionCalls wholeFile
  rw [value_bind, value_emit, perform_bind, perform_emit, value_emit]
  cases opened : system.createFileW with
  | none => rfl
  | some hFile =>
      by_cases unsized : system.getFileSize = INVALID_FILE_SIZE ∨ system.getFileSize = 0
      · rw [if_pos (.inr (unsized.imp_right .inl))]
        dsimp only
        rw [if_pos unsized]
        rfl
      · obtain ⟨valid, nonempty⟩ := not_or.mp unsized
        dsimp only
        rw [if_neg unsized, value_bind, value_emit, perform_bind, perform_emit, value_emit]
        cases allocated : system.virtualAlloc system.getFileSize with
        | false => simp [refusal, ApiScope.InjectDll, seen, Event.apply]
        | true =>
            rw [if_neg (by simp [valid, nonempty]), if_neg (not_not.mpr rfl)]
            cases read : system.readFile with
            | none => rfl
            | some file =>
                by_cases short : file.length = system.getFileSize
                · dsimp only
                  rw [if_neg (not_not.mpr short), Option.filter_some_pos (by simpa using short)]
                  rw [value_bind, value_bind, value_relabel, perform_bind, perform_bind,
                    perform_relabel]
                  exact injectDll_sessionCalls system.mapper _ file exports process
                · dsimp only
                  rw [if_pos short, Option.filter_some_neg (by simpa using short)]
                  rfl

end Mapper

/-! ## The image read back -/

/-- The image at a base, as it stands in the target. -/
def Target.imageAt (process : Target) (base size : Nat) : Nat → Option UInt8 :=
  RemoteImage.mapped (process.memory.read base size) base

theorem Target.imageAt_mapImage (process : Target) (base size : Nat) (exports : ExportTable) :
    (process.mapImage base exports).imageAt base size =
      RemoteImage.mapped (process.memory.read base size) base := rfl

namespace ReflectiveDLLInject

open DllFile

variable {system : OperatingSystem} {released : UInt64 → Bool} {file : List UInt8} {base : UInt64}

theorem perform_eq_calls {Result : Type} (written : Bool) (computation : Logged Event Result)
    (process : Target) :
    perform (Event.apply written released) computation process =
      (calls computation).foldl (fun process event => event.apply written released process)
        process := by
  rw [perform, calls, List.foldl_filter]
  congr 1
  funext process event
  cases event <;> rfl

theorem foldl_protections {written : Bool} {events : List Event} (only : OnlyProtects events)
    (process : Target) :
    events.foldl (fun process event => event.apply written released process) process =
      process := by
  induction events with
  | nil => rfl
  | cons event events inductionHypothesis =>
      obtain ⟨⟨base, offset, size, protection, rfl⟩, others⟩ := List.forall_mem_cons.mp only
      exact inductionHypothesis others

/-- A success has allocated a region and written the image there. -/
theorem perform_succeeded (succeeds : (ReflectiveDLLInject system file).value = some base)
    (process : Target) :
    base ≠ 0 ∧ ∃ headers filled image, Prepared file headers base filled image ∧
      perform (Event.apply system.writeProcessMemory released) (ReflectiveDLLInject system file)
          process =
        (process.VirtualAllocEx base.toNat headers.sizeOfImage).WriteProcessMemory true base.toNat
          image := by
  have exit := exit_of_run system file
  rw [succeeds] at exit
  generalize isCalls : calls (ReflectiveDLLInject system file) = events at exit
  cases exit with
  | @mapped headers _ filled image allocated prepared mapped =>
      refine ⟨allocated, headers, filled, image, prepared, ?_⟩
      rw [perform_eq_calls, isCalls, mapped.written, List.foldl_append]
      exact foldl_protections onlyProtects_protections _

/-- What stands in the target after a success: the layout of the file, with its relocations. -/
theorem image_in_target {targets : List Nat} (wellFormed : DllFile.WellFormed file targets)
    (succeeds : (ReflectiveDLLInject system file).value = some base) (process : Target) :
    ∃ image, Relocated file image targets base ∧
      let after := perform (Event.apply system.writeProcessMemory released)
        (ReflectiveDLLInject system file) process
      after.allocations base.toNat = imageSize file ∧
        after.memory.read base.toNat (imageSize file) = image := by
  obtain ⟨allocated, headers, filled, image, prepared, performed⟩ :=
    @perform_succeeded system released file base succeeds process
  have valid := parseHeaders_valid prepared.parsed
  have finished := prepared.relocated
  rw [copySections_eq_layout valid wellFormed prepared.copied] at finished
  have relocated := relocate_layout valid wellFormed finished
  have nonzero : base.toNat ≠ 0 := fun isZero => allocated (UInt64.toNat_inj.mp isZero)
  refine ⟨image, relocated, ?_⟩
  dsimp only
  rw [performed, ← relocated.length]
  constructor
  · rw [Target.WriteProcessMemory_allocations, Target.VirtualAllocEx, if_pos nonzero,
      relocated.length, ← valid.sizeOfImage]
    exact Function.update_self ..
  · exact Memory.read_write _ _ _

/-- The exports that the file lists, at a base. -/
def listedExports (file : List UInt8) (base : Nat) : ExportTable :=
  GetRemoteExport (RemoteImage.mapped (layout file) base) base

/-- After a successful injection the image reads back as the file has it: its size is the size of
its region, each lookup finds what the file lists, at the new base, and so does the lookup of the
module's own name. -/
theorem hookImage_known {targets : List Nat} (wellFormed : DllFile.WellFormed file targets)
    (exports : RemoteImage.WellFormed (layout file))
    (clear : ∀ offset, RemoteImage.Looked (layout file) offset → Untouched 8 targets offset)
    (succeeds : (ReflectiveDLLInject system file).value = some base) (process : Target) :
    ∃ after, InjectDll (sessionCalls system released file (listedExports file base.toNat))
        process = (base.toNat, after) ∧
      GetRemoteImageSize (after.imageAt base.toNat (imageSize file)) base.toNat = imageSize file ∧
      after.allocations base.toNat = imageSize file ∧
      (∀ functionName, after.GetRemoteExport base.toNat functionName =
        GetRemoteExport (after.imageAt base.toNat (imageSize file)) base.toNat functionName) ∧
      (∀ functionName index,
        RemoteImage.IsFirst (layout file) (RemoteImage.Hit (layout file) functionName) index →
        ¬RemoteImage.Forwarded (layout file) index →
        after.GetRemoteExport base.toNat functionName =
          some ⟨base.toNat + RemoteImage.functionRVA (layout file) index, []⟩) ∧
      let name := RemoteImage.directoryField (layout file) ImageExportDirectory.Name
      name ≠ 0 → RemoteImage.Terminated (layout file) name →
        (∀ offset, RemoteImage.InText (layout file) name offset → Untouched 8 targets offset) →
        GetRemoteModuleName (after.imageAt base.toNat (imageSize file)) base.toNat =
          if RemoteImage.Readable (layout file) name then RemoteImage.text (layout file) name
          else [] := by
  obtain ⟨image, relocated, allocated, stands⟩ :=
    @image_in_target system released file base targets wellFormed succeeds process
  have same := RemoteImage.sameLookups_of_relocated relocated clear
  have known : ∀ functionName : List UInt8, ((perform (Event.apply system.writeProcessMemory released)
      (ReflectiveDLLInject system file) process).mapImage base.toNat
        (listedExports file base.toNat)).GetRemoteExport base.toNat functionName =
          listedExports file base.toNat functionName := by
    intro functionName
    simp [Target.GetRemoteExport, Target.mapImage]
  rw [injectDll_sessionCalls, succeeds]
  refine ⟨_, rfl, ?_, allocated, fun functionName => ?_, fun functionName index hit plain => ?_,
    fun named terminated untouched => ?_⟩
  · rw [Target.imageAt_mapImage, stands,
      RemoteImage.getRemoteImageSize_eq (same.wellFormed exports), relocated.length]
  · rw [known, Target.imageAt_mapImage, stands]
    exact (same.getRemoteExport_same exports functionName).symm
  · rw [known, listedExports, RemoteImage.getRemoteExport_of_hit exports hit,
      RemoteImage.resolve_readable exports hit.1 fun forwarded => absurd forwarded plain,
      RemoteImage.exportAt, if_neg plain]
  · rw [Target.imageAt_mapImage, stands]
    exact same.getRemoteModuleName_same exports named terminated fun offset inText =>
      relocated.kept offset (untouched offset inText)

section Exporting

open RemoteImage

theorem exporting_fields :
    wordAt (layout movingFile) ImageDosHeader.e_magic 2 = IMAGE_DOS_SIGNATURE.toNat ∧
    RemoteImage.ntHeaders (layout movingFile) = 64 ∧
    wordAt (layout movingFile) (64 + ImageNtHeaders.Signature) 4 =
      IMAGE_NT_SIGNATURE.toNat ∧
    wordAt (layout movingFile) (64 + ImageNtHeaders.SizeOfImage) 4 = 1280 ∧
    exportStart (layout movingFile) = 768 ∧ exportSize (layout movingFile) = 86 ∧
    directoryField (layout movingFile) ImageExportDirectory.Name = 844 ∧
    numberOfFunctions (layout movingFile) = 3 ∧ numberOfNames (layout movingFile) = 3 ∧
    functions (layout movingFile) = 808 ∧ names (layout movingFile) = 820 ∧
    ordinals (layout movingFile) = 832 := by
  decide +kernel

/-- The exports in the order of their names, and the texts that they point to. -/
theorem exporting_names :
    (∀ index < 3, ordinal (layout movingFile) index < 3 ∧
      838 ≤ nameOffset (layout movingFile) index ∧
      nameOffset (layout movingFile) index ≤ 842 ∧
      (layout movingFile)[nameOffset (layout movingFile) index + 1]? = some 0) ∧
    name (layout movingFile) 0 = [0x66] ∧ name (layout movingFile) 1 = [0x67] ∧
    functionRVA (layout movingFile) 0 = 528 ∧ functionRVA (layout movingFile) 1 = 536 ∧
    functionRVA (layout movingFile) 2 = 850 ∧ (layout movingFile)[853]? = some 0 ∧
    (layout movingFile)[849]? = some 0 ∧
    text (layout movingFile) 844 = [0x6D, 0x2E, 0x64, 0x6C, 0x6C] := by
  decide +kernel

theorem length_exporting : (layout movingFile).length = 1280 := by
  rw [length_layout, movingFile_fields.1]

theorem wellFormed_exporting : RemoteImage.WellFormed (layout movingFile) := by
  obtain ⟨magic, headers, signature, size, start, directory, _, numberOfFunctions, numberOfNames,
    functions, names, ordinals⟩ := exporting_fields
  obtain ⟨named, _, _, first, second, third, ending, _⟩ := exporting_names
  have length := length_exporting
  have ntSize : sizeofImageNtHeaders = 264 := rfl
  have exportsSize : sizeofImageExportDirectory = 40 := rfl
  exact
    { sizeOfImage := by rw [headers, size, length]
      e_magic := magic
      e_lfanew := by omega
      ntHeaders_inside := by omega
      signature := by rw [headers, signature]
      exports := by omega
      directory_inside := by omega
      exports_inside := by omega
      functions_inside := by omega
      names_inside := by omega
      ordinals_inside := by omega
      ordinals_bounded := fun index bound => by
        rw [numberOfFunctions]
        exact (named index (by omega)).1
      names_terminated := fun index bound =>
        ⟨1, by decide, (named index (by omega)).2.2.2⟩
      forwarders_terminated := fun index bound forwarded => by
        have lower := forwarded.1
        obtain rfl | rfl | rfl : index = 0 ∨ index = 1 ∨ index = 2 := by omega
        · omega
        · omega
        · exact ⟨3, by decide, by rw [third]; exact ending⟩ }

theorem clear_exporting (offset : Nat) (looked : Looked (layout movingFile) offset) :
    Untouched 8 [512, 520, 536] offset := by
  obtain ⟨_, headers, _, _, start, _, _, _, count, functions, names, ordinals⟩ :=
    exporting_fields
  have named := exporting_names.1
  have dosSize : sizeofImageDosHeader = 64 := rfl
  have ntSize : sizeofImageNtHeaders = 264 := rfl
  have apart : offset < 512 ∨ 768 ≤ offset := by
    cases looked with
    | dosHeader upper => exact .inl (by omega)
    | ntHeaders _ upper => exact .inl (by omega)
    | directory lower _ => exact .inr (by omega)
    | functions lower _ => exact .inr (by omega)
    | names lower _ => exact .inr (by omega)
    | ordinals lower _ => exact .inr (by omega)
    | name bound inText =>
        have offsets := named _ (count ▸ bound)
        exact .inr (by have lower := inText.1; omega)
    | forwarder _ forwarded inText =>
        have lower := forwarded.1
        exact .inr (by have upper := inText.1; omega)
  intro target listed
  simp only [List.mem_cons, List.not_mem_nil, or_false] at listed
  omega

end Exporting

def freshProcess : Target where
  memory _ := 0
  images _ := none
  allocations _ := 0
  log := []

/-- Two exports of one module, and the name of the module. -/
theorem hookImage_known_exporting :
    ∃ after, InjectDll (sessionCalls willing (fun _ => true) movingFile
        (listedExports movingFile 0x10000)) freshProcess = (0x10000, after) ∧
      GetRemoteImageSize (after.imageAt 0x10000 1280) 0x10000 = 1280 ∧
      after.GetRemoteExport 0x10000 [0x66] = some ⟨0x10210, []⟩ ∧
      after.GetRemoteExport 0x10000 [0x67] = some ⟨0x10218, []⟩ ∧
      GetRemoteModuleName (after.imageAt 0x10000 1280) 0x10000 =
        [0x6D, 0x2E, 0x64, 0x6C, 0x6C] := by
  obtain ⟨after, injected, size, _, _, found, moduleName⟩ := @hookImage_known willing
    (fun _ => true) movingFile 0x10000 [512, 520, 536] wellFormed_movingFile wellFormed_exporting
    clear_exporting (by decide +kernel) freshProcess
  obtain ⟨_, _, _, _, start, _, isName, _, count, _⟩ := exporting_fields
  obtain ⟨named, f, g, atF, atG, _, _, ending, isText⟩ := exporting_names
  rw [movingFile_fields.1] at size moduleName
  have readable : ∀ index < 3, RemoteImage.Readable (layout movingFile)
      (RemoteImage.nameOffset (layout movingFile) index) := fun index bound => by
    have upper := (named index bound).2.2.1
    rw [RemoteImage.Readable, length_exporting]
    omega
  have firstF : RemoteImage.IsFirst (layout movingFile)
      (RemoteImage.Hit (layout movingFile) [0x66]) 0 :=
    ⟨by omega, ⟨readable 0 (by decide), f⟩, fun earlier before => by omega⟩
  have firstG : RemoteImage.IsFirst (layout movingFile)
      (RemoteImage.Hit (layout movingFile) [0x67]) 1 := by
    refine ⟨by omega, ⟨readable 1 (by decide), g⟩, fun earlier before hit => ?_⟩
    obtain rfl : earlier = 0 := by omega
    exact absurd (f.symm.trans hit.2) (by decide)
  have plain : ∀ {index}, RemoteImage.functionRVA (layout movingFile) index < 768 →
      ¬RemoteImage.Forwarded (layout movingFile) index := fun inside forwarded => by
    have lower := forwarded.1
    omega
  have foundF := found [0x66] 0 firstF (plain (by omega))
  have foundG := found [0x67] 1 firstG (plain (by omega))
  rw [atF] at foundF
  rw [atG] at foundG
  have readableName : RemoteImage.Readable (layout movingFile) 844 := by
    rw [RemoteImage.Readable, length_exporting]
    decide
  dsimp only at moduleName
  rw [isName, if_pos readableName, isText] at moduleName
  refine ⟨after, injected, size, foundF, foundG, moduleName (by decide)
    ⟨5, by decide, ending⟩ fun offset inText => ?_⟩
  have lower := inText.1
  intro target listed
  simp only [List.mem_cons, List.not_mem_nil, or_false] at listed
  omega

end ReflectiveDLLInject

end ApiScope
