import ApiScope.Library.Custody
import ApiScope.Process.Layout

/-!
# The injection of a file

`InjectDll` of `process_manager.cpp` around the mapper, and what becomes of everything
that it obtains.  The calls that release (`CloseHandle`, `VirtualFree` and
`VirtualFreeEx`) are made without a look at their results.
-/

namespace ApiScope

open Bytes Logged

namespace Mapper

/-! ## The code -/

inductive Resource where
  | file (handle : UInt64)
  | fileBuffer
  | localImage
  | remoteImage (base : UInt64)
  deriving DecidableEq, Repr

inductive Event where
  | createFileW (handle : Option UInt64)
  | virtualAlloc (size : Nat) (allocated : Bool)
  | virtualFree
  | closeHandle (handle : UInt64)
  | mapper (event : ReflectiveDLLInject.Event)
  deriving DecidableEq

def INVALID_FILE_SIZE : Nat := 0xFFFFFFFF

/-- What the operating system answers; no handle is `INVALID_HANDLE_VALUE`.  `readFile`
gives the bytes that have been read, if it succeeds.  `releases` says whether the
release of a resource succeeds. -/
structure OperatingSystem where
  createFileW : Option UInt64
  getFileSize : Nat
  virtualAlloc : Nat → Bool
  readFile : Option (List UInt8)
  mapper : ReflectiveDLLInject.OperatingSystem
  releases : Resource → Bool

/-- The failure behind `ReadFile`. -/
def InjectDll.fail (hFile : UInt64) : Logged Event (Option UInt64) := do
  emit .virtualFree ()
  emit (.closeHandle hFile) ()
  pure none

def InjectDll (system : OperatingSystem) : Logged Event (Option UInt64) := do
  match ← emit (.createFileW system.createFileW) system.createFileW with
  | none => pure none
  | some hFile => do
      let dwDllSize := system.getFileSize
      if dwDllSize = INVALID_FILE_SIZE ∨ dwDllSize = 0 then do
        emit (.closeHandle hFile) ()
        pure none
      else do
        let allocated ← emit (.virtualAlloc dwDllSize (system.virtualAlloc dwDllSize))
          (system.virtualAlloc dwDllSize)
        if ¬allocated then do
          emit (.closeHandle hFile) ()
          pure none
        else
          match system.readFile with
          | none => InjectDll.fail hFile
          | some lpDllBuffer =>
              -- `bytesRead` is the length of what has been read
              if lpDllBuffer.length ≠ dwDllSize then InjectDll.fail hFile
              else do
                emit (.closeHandle hFile) ()
                let dllBase ← relabel .mapper (ReflectiveDLLInject system.mapper lpDllBuffer)
                emit .virtualFree ()
                pure dllBase

/-! ## Custody -/

open Custody

/-- What a call of the mapper obtains or hands back. -/
def mapperEntry : ReflectiveDLLInject.Event → Option (Entry Resource)
  | .virtualAllocEx _ base => if base = 0 then none else some (.acquire (.remoteImage base))
  | .virtualFreeEx base => some (.release (.remoteImage base))
  | .virtualAlloc _ allocated => if allocated then some (.acquire .localImage) else none
  | .virtualFree => some (.release .localImage)
  | _ => none

def Event.entry : Event → Option (Entry Resource)
  | .createFileW handle => handle.map fun handle => .acquire (.file handle)
  | .virtualAlloc _ allocated => if allocated then some (.acquire .fileBuffer) else none
  | .virtualFree => some (.release .fileBuffer)
  | .closeHandle handle => some (.release (.file handle))
  | .mapper event => mapperEntry event

section Ledger

variable {Result Other : Type}

/-- What has been obtained, and what has been handed to the call that releases it. -/
def ledger (computation : Logged Event Result) : List (Entry Resource) :=
  computation.log.filterMap Event.entry

/-- What has been obtained, and what has been released with success. -/
def released (system : OperatingSystem) (computation : Logged Event Result) :
    List (Entry Resource) :=
  (ledger computation).filter fun entry =>
    match entry with
    | .acquire _ => true
    | .release resource => system.releases resource

/-- All that has been obtained but what is kept has been handed to its release exactly
once, and has been released exactly once if this call succeeds. -/
structure CleanedUp (system : OperatingSystem) (computation : Logged Event Result)
    (kept : Multiset Resource) : Prop where
  once : (ledger computation).Nodup
  holds : Holds (ledger computation) kept
  released : ∀ resource ∉ kept, system.releases resource = true →
    (released system computation).count (.release resource) =
      (released system computation).count (.acquire resource)
  kept : ∀ resource ∈ kept, (Mapper.released system computation).count (.release resource) = 0

theorem ledger_bind {first : Logged Event Result} {next : Result → Logged Event Other} :
    ledger (first >>= next) = ledger first ++ ledger (next first.value) :=
  List.filterMap_append

theorem count_acquire_released (system : OperatingSystem) (computation : Logged Event Result)
    (resource : Resource) :
    (released system computation).count (.acquire resource) =
      (ledger computation).count (.acquire resource) :=
  List.count_filter rfl

theorem count_release_released (system : OperatingSystem) (computation : Logged Event Result)
    {resource : Resource} (succeeds : system.releases resource = true) :
    (released system computation).count (.release resource) =
      (ledger computation).count (.release resource) :=
  List.count_filter succeeds

/-- What is held at the end is all that matters. -/
theorem CleanedUp.of_holds {system : OperatingSystem} {computation : Logged Event Result}
    {kept : Multiset Resource} (once : (ledger computation).Nodup)
    (holds : Holds (ledger computation) kept) : CleanedUp system computation kept where
  once := once
  holds := holds
  released := fun resource given succeeds => by
    have balance := holds.count resource
    rw [Multiset.count_eq_zero_of_notMem given, Nat.add_zero] at balance
    rw [count_release_released system computation succeeds, count_acquire_released, balance]
  kept := fun resource isKept => by
    have balance := holds.count resource
    have acquired := List.nodup_iff_count_le_one.mp once (.acquire resource)
    have present := Multiset.one_le_count_iff_mem.mpr isKept
    have fewer : (Mapper.released system computation).count (.release resource) ≤
        (ledger computation).count (.release resource) :=
      List.Sublist.count_le _ List.filter_sublist
    omega

end Ledger

/-! ## The mapper -/

section MapperLedger

variable {system : ReflectiveDLLInject.OperatingSystem} {file : List UInt8}

theorem ledger_relabel {Result : Type} (computation : Logged ReflectiveDLLInject.Event Result) :
    ledger (relabel .mapper computation) =
      (ReflectiveDLLInject.calls computation).filterMap mapperEntry := by
  rw [ledger, log_relabel, List.filterMap_map, ReflectiveDLLInject.calls, List.filterMap_filter]
  congr 1
  funext event
  cases event <;> rfl

/-- What the mapper keeps of what it has obtained. -/
def kept (result : Option UInt64) : List Resource := (result.map .remoteImage).toList

/-- What the mapper obtains and hands back. -/
inductive MapperLedger : Option UInt64 → List (Entry Resource) → Prop where
  | untouched : MapperLedger none []
  | uncopied {base : UInt64} :
      MapperLedger none [.acquire (.remoteImage base), .release (.remoteImage base)]
  | failed {base : UInt64} :
      MapperLedger none
        [.acquire (.remoteImage base), .acquire .localImage, .release .localImage,
          .release (.remoteImage base)]
  | mapped {base : UInt64} :
      MapperLedger (some base)
        [.acquire (.remoteImage base), .acquire .localImage, .release .localImage]

theorem entries_of_uses {events : List ReflectiveDLLInject.Event}
    (uses : ∀ event ∈ events, event.IsUse) : events.filterMap mapperEntry = [] := by
  apply List.filterMap_eq_nil_iff.mpr
  intro event member
  have isUse := uses event member
  cases event <;> first | rfl | exact isUse.elim

theorem mapperLedger_of_exit {events : List ReflectiveDLLInject.Event} {value : Option UInt64}
    (exit : ReflectiveDLLInject.Exit system file events value) :
    MapperLedger value (events.filterMap mapperEntry) := by
  cases exit with
  | refused => exact .untouched
  | unallocated => exact .untouched
  | @uncopied size base allocated =>
      have entry : mapperEntry (.virtualAllocEx size base) =
          some (.acquire (.remoteImage base)) := if_neg allocated
      rw [List.filterMap_cons_some entry]
      exact .uncopied
  | @failed size base events allocated uses =>
      have entry : mapperEntry (.virtualAllocEx size base) =
          some (.acquire (.remoteImage base)) := if_neg allocated
      have copy : mapperEntry (.virtualAlloc size true) = some (.acquire .localImage) := rfl
      rw [List.filterMap_append, List.filterMap_cons_some entry, List.filterMap_cons_some copy,
        entries_of_uses uses]
      exact .failed
  | @mapped headers base filled image allocated _ _ =>
      have entry : mapperEntry (.virtualAllocEx headers.sizeOfImage base) =
          some (.acquire (.remoteImage base)) := if_neg allocated
      have copy : mapperEntry (.virtualAlloc headers.sizeOfImage true) =
          some (.acquire .localImage) := rfl
      rw [List.filterMap_append, List.filterMap_cons_some entry, List.filterMap_cons_some copy,
        List.filterMap_cons_none rfl, entries_of_uses ReflectiveDLLInject.onlyProtects_protections.isUse]
      exact .mapped

/-- The mapper leaves what was held before, and what it keeps. -/
theorem MapperLedger.holds {value : Option UInt64} {entries before : List (Entry Resource)}
    {held : Multiset Resource} (mapperLedger : MapperLedger value entries)
    (holds : Holds before held) :
    Holds (before ++ entries) ((kept value : Multiset Resource) + held) := by
  cases mapperLedger with
  | untouched => simpa [kept] using holds
  | @uncopied base =>
      have obtained := holds.acquire (.remoteImage base)
      simpa [kept] using obtained.release
  | @failed base =>
      have obtained := (holds.acquire (.remoteImage base)).acquire .localImage
      simpa [kept] using obtained.release.release
  | @mapped base =>
      have obtained := (holds.acquire (.remoteImage base)).acquire .localImage
      simpa [kept] using obtained.release

theorem MapperLedger.nodup {value : Option UInt64} {entries : List (Entry Resource)}
    (mapperLedger : MapperLedger value entries) : entries.Nodup := by
  cases mapperLedger <;> simp

/-- The mapper never touches the file or the buffer. -/
theorem MapperLedger.apart {value : Option UInt64} {entries : List (Entry Resource)}
    (mapperLedger : MapperLedger value entries) :
    ∀ entry ∈ entries, entry ≠ .release .fileBuffer ∧ entry ≠ .acquire .fileBuffer ∧
      ∀ handle, entry ≠ .acquire (.file handle) ∧ entry ≠ .release (.file handle) := by
  cases mapperLedger <;> simp

end MapperLedger

/-! ## The whole injection -/

/-- What an injection obtains and hands back. -/
inductive InjectionLedger : Option UInt64 → List (Entry Resource) → Prop where
  | unopened : InjectionLedger none []
  | unbuffered {hFile : UInt64} :
      InjectionLedger none [.acquire (.file hFile), .release (.file hFile)]
  | unread {hFile : UInt64} :
      InjectionLedger none
        [.acquire (.file hFile), .acquire .fileBuffer, .release .fileBuffer,
          .release (.file hFile)]
  | read {hFile : UInt64} {value : Option UInt64} {entries : List (Entry Resource)} :
      MapperLedger value entries →
      InjectionLedger value
        (.acquire (.file hFile) :: .acquire .fileBuffer :: .release (.file hFile) :: entries ++
          [.release .fileBuffer])

theorem injectionLedger_InjectDll (system : OperatingSystem) :
    InjectionLedger (InjectDll system).value (ledger (InjectDll system)) := by
  unfold InjectDll
  cases system.createFileW with
  | none => exact .unopened
  | some hFile =>
      rw [value_bind, ledger_bind, value_emit]
      dsimp only
      split_ifs with unsized
      · exact @InjectionLedger.unbuffered hFile
      rw [value_bind, ledger_bind, value_emit]
      cases system.virtualAlloc system.getFileSize with
      | false => exact @InjectionLedger.unbuffered hFile
      | true =>
          rw [if_neg (not_not.mpr rfl)]
          cases system.readFile with
          | none => exact @InjectionLedger.unread hFile
          | some lpDllBuffer =>
              dsimp only
              split_ifs with short
              · exact @InjectionLedger.unread hFile
              · have mapper := mapperLedger_of_exit
                  (ReflectiveDLLInject.exit_of_run system.mapper lpDllBuffer)
                rw [← ledger_relabel] at mapper
                rw [value_bind, value_bind, value_bind, ledger_bind, ledger_bind, ledger_bind,
                  value_relabel]
                exact @InjectionLedger.read hFile _ _ mapper

theorem InjectionLedger.nodup {value : Option UInt64} {entries : List (Entry Resource)}
    (injection : InjectionLedger value entries) : entries.Nodup := by
  cases injection with
  | unopened => simp
  | unbuffered => simp
  | unread => simp
  | @read hFile _ entries mapper =>
      have apart := mapper.apart
      have notFile : .acquire (.file hFile) ∉ entries ∧ .release (.file hFile) ∉ entries :=
        ⟨fun member => ((apart _ member).2.2 hFile).1 rfl,
          fun member => ((apart _ member).2.2 hFile).2 rfl⟩
      have notBuffer : .acquire .fileBuffer ∉ entries ∧ .release .fileBuffer ∉ entries :=
        ⟨fun member => (apart _ member).2.1 rfl, fun member => (apart _ member).1 rfl⟩
      simp [List.nodup_append, mapper.nodup, notFile, notBuffer]
      exact fun entry member same => notBuffer.2 (same ▸ member)

theorem InjectionLedger.holds {value : Option UInt64} {entries : List (Entry Resource)}
    (injection : InjectionLedger value entries) : Holds entries (kept value) := by
  cases injection with
  | unopened => exact .start
  | @unbuffered hFile => exact (Holds.start.acquire (Resource.file hFile)).release
  | @unread hFile =>
      exact ((Holds.start.acquire (Resource.file hFile)).acquire .fileBuffer).release.release
  | @read hFile _ entries mapper =>
      have obtained := (Holds.start.acquire (Resource.file hFile)).acquire .fileBuffer
      rw [Multiset.cons_swap] at obtained
      have mapped := mapper.holds obtained.release
      rw [Multiset.add_cons, Multiset.add_zero] at mapped
      exact mapped.release

/-- Whatever the operating system answers, all but the image is cleaned up. -/
theorem cleanedUp_InjectDll (system : OperatingSystem) :
    CleanedUp system (InjectDll system) (kept (InjectDll system).value) :=
  have injection := injectionLedger_InjectDll system
  .of_holds injection.nodup injection.holds

/-! ## The image of a success -/

section Length

open ReflectiveDLLInject

variable {file : List UInt8} {headers : Headers}

theorem length_copySections {remaining index : Nat} {image filled : List UInt8}
    (copied : (copySections file headers remaining index image).value = some filled) :
    filled.length = image.length := by
  induction remaining generalizing index image with
  | zero =>
      cases copied
      rfl
  | succ remaining inductionHypothesis =>
      rw [copySections, value_bind, value_bind, value_bind] at copied
      split_ifs at copied
      rw [inductionHypothesis copied, length_copy]

theorem length_relocateEntries {delta sizeOfImage reloc remaining index : Nat}
    {image relocated : List UInt8}
    (done : (relocateEntries delta sizeOfImage reloc remaining index image).value =
      some relocated) : relocated.length = image.length := by
  induction remaining generalizing index image with
  | zero =>
      cases done
      rfl
  | succ remaining inductionHypothesis =>
      rw [relocateEntries, value_bind, value_bind] at done
      split_ifs at done
      · rw [value_bind] at done
        dsimp only at done
        split_ifs at done
        rw [value_bind, value_bind, value_emit] at done
        rw [inductionHypothesis done, length_overwrite]
      · exact inductionHypothesis done

theorem length_relocateBlocks {delta sizeOfImage relocationEnd passes reloc : Nat}
    {image relocated : List UInt8}
    (done : (relocateBlocks delta sizeOfImage relocationEnd passes reloc image).value =
      .finished relocated) : relocated.length = image.length := by
  induction passes generalizing reloc image with
  | zero => cases done
  | succ passes inductionHypothesis =>
      rw [relocateBlocks] at done
      split_ifs at done
      · rw [value_bind] at done
        split_ifs at done
        · cases done
          rfl
        rw [value_bind] at done
        split_ifs at done
        rw [value_bind] at done
        cases entries : (relocateEntries delta sizeOfImage reloc _ 0 image).value with
        | none =>
            rw [entries] at done
            dsimp only at done
            cases done
        | some next =>
            rw [entries] at done
            rw [inductionHypothesis done, length_relocateEntries entries]
      · cases done
        rfl

/-- The copy has the size of the image throughout. -/
theorem length_prepared {base : UInt64} {filled image : List UInt8}
    (prepared : Prepared file headers base filled image) :
    image.length = headers.sizeOfImage := by
  have length := length_copySections prepared.copied
  rw [length_copy, List.length_replicate] at length
  have done := prepared.relocated
  rw [relocate, value_bind, value_bind, value_bind] at done
  split_ifs at done
  · rw [length_relocateBlocks done, length]
  · cases done
    exact length

end Length

/-- What the mapper asks of the operating system in the course of an injection. -/
def mapperCalls {Result : Type} (computation : Logged Event Result) :
    List ReflectiveDLLInject.Event :=
  computation.log.filterMap fun event =>
    match event with
    | .mapper event => if event.IsCall then some event else none
    | _ => none

theorem mapperCalls_bind {Result Other : Type} {first : Logged Event Result}
    {next : Result → Logged Event Other} :
    mapperCalls (first >>= next) = mapperCalls first ++ mapperCalls (next first.value) :=
  List.filterMap_append

theorem mapperCalls_relabel {Result : Type}
    (computation : Logged ReflectiveDLLInject.Event Result) :
    mapperCalls (relabel .mapper computation) = ReflectiveDLLInject.calls computation := by
  rw [mapperCalls, log_relabel, List.filterMap_map, ReflectiveDLLInject.calls,
    ← List.filterMap_eq_filter]
  rfl

/-- A success of the injection is one of the mapper. -/
theorem mapper_of_success {system : OperatingSystem} {base : UInt64}
    (succeeds : (InjectDll system).value = some base) :
    ∃ file, system.readFile = some file ∧
      (ReflectiveDLLInject system.mapper file).value = some base ∧
      mapperCalls (InjectDll system) =
        ReflectiveDLLInject.calls (ReflectiveDLLInject system.mapper file) := by
  unfold InjectDll at succeeds ⊢
  cases opened : system.createFileW with
  | none =>
      rw [opened] at succeeds
      cases succeeds
  | some hFile =>
      rw [opened, value_bind, value_emit] at succeeds
      rw [mapperCalls_bind, value_emit]
      dsimp only at succeeds ⊢
      split_ifs at succeeds ⊢ with unsized
      rw [value_bind, value_emit] at succeeds
      rw [mapperCalls_bind, value_emit]
      split_ifs at succeeds ⊢ with allocated
      cases read : system.readFile with
      | none =>
          rw [read] at succeeds
          cases succeeds
      | some file =>
          rw [read] at succeeds
          dsimp only at succeeds ⊢
          split_ifs at succeeds ⊢ with short
          · cases succeeds
          · refine ⟨file, rfl, succeeds, ?_⟩
            rw [mapperCalls_bind, mapperCalls_bind, mapperCalls_bind, mapperCalls_relabel]
            exact List.append_nil _

/-- Whatever the file holds and the operating system answers, everything but the image
of a success is handed to its release once, and released once if that succeeds.  The
image of a success is written whole, and every section that is not empty lies in it and
has its protection. -/
theorem injection_custody (system : OperatingSystem) :
    CleanedUp system (InjectDll system) (kept (InjectDll system).value) ∧
      ∀ base, (InjectDll system).value = some base →
        ∃ file headers filled image, system.readFile = some file ∧
          ReflectiveDLLInject.Prepared file headers base filled image ∧
          image.length = headers.sizeOfImage ∧
          mapperCalls (InjectDll system) =
            .virtualAllocEx headers.sizeOfImage base :: .virtualAlloc headers.sizeOfImage true ::
              .writeProcessMemory base image ::
                ReflectiveDLLInject.protections file headers base ++
                  [.flushInstructionCache base headers.sizeOfImage, .virtualFree] ∧
          ReflectiveDLLInject.Mapped system.mapper file headers := by
  refine ⟨cleanedUp_InjectDll system, fun base succeeds => ?_⟩
  obtain ⟨file, read, mapped, isCalls⟩ := mapper_of_success succeeds
  have exit := ReflectiveDLLInject.exit_of_run system.mapper file
  rw [mapped, ← isCalls] at exit
  generalize mapperCalls (InjectDll system) = events at exit ⊢
  cases exit with
  | @mapped headers _ filled image _ prepared mapped =>
      exact ⟨file, headers, filled, image, read, prepared, length_prepared prepared, rfl, mapped⟩

namespace Sample

/-- The target takes the image and does not give it back. -/
def unwritten : OperatingSystem where
  createFileW := some 8
  getFileSize := 590
  virtualAlloc := fun _ => true
  readFile := some ReflectiveDLLInject.movingFile
  mapper := { ReflectiveDLLInject.willing with writeProcessMemory := false }
  releases := fun resource => resource ≠ .remoteImage 0x10000

def willing : OperatingSystem :=
  { unwritten with mapper := ReflectiveDLLInject.willing }

end Sample

/-- An image whose release fails is not released, and not handed back a second time. -/
theorem unreleased :
    (InjectDll Sample.unwritten).value = none ∧
      ¬Settled (released Sample.unwritten (InjectDll Sample.unwritten)) := by
  have counts : (InjectDll Sample.unwritten).value = none ∧
      (released Sample.unwritten (InjectDll Sample.unwritten)).count
          (.release (.remoteImage 0x10000)) = 0 ∧
        (released Sample.unwritten (InjectDll Sample.unwritten)).count
          (.acquire (.remoteImage 0x10000)) = 1 := by
    decide +kernel
  refine ⟨counts.1, fun settled => ?_⟩
  have balanced := settled.balanced (.remoteImage 0x10000)
  rw [counts.2.1, counts.2.2] at balanced
  cases balanced

theorem injection_custody_willing :
    (InjectDll Sample.willing).value = some 0x10000 ∧
      Holds (ledger (InjectDll Sample.willing)) {.remoteImage 0x10000} ∧
      ∃ image : List UInt8, image.length = 1280 ∧ mapperCalls (InjectDll Sample.willing) =
        [.virtualAllocEx 1280 0x10000, .virtualAlloc 1280 true,
          .writeProcessMemory 0x10000 image,
          .virtualProtectEx 0x10000 512 32 .PAGE_EXECUTE_READ,
          .virtualProtectEx 0x10000 640 24 .PAGE_READWRITE,
          .virtualProtectEx 0x10000 768 86 .PAGE_READONLY,
          .flushInstructionCache 0x10000 1280, .virtualFree] := by
  have value : (InjectDll Sample.willing).value = some 0x10000 := by decide +kernel
  have parsed : (ReflectiveDLLInject.parseHeaders ReflectiveDLLInject.movingFile).value =
      some ⟨64, 328, 3, 1280, 448⟩ := by decide +kernel
  have protections : ReflectiveDLLInject.protections ReflectiveDLLInject.movingFile
      ⟨64, 328, 3, 1280, 448⟩ 0x10000 =
        [.virtualProtectEx 0x10000 512 32 .PAGE_EXECUTE_READ,
          .virtualProtectEx 0x10000 640 24 .PAGE_READWRITE,
          .virtualProtectEx 0x10000 768 86 .PAGE_READONLY] := by decide +kernel
  obtain ⟨cleaned, succeeds⟩ := injection_custody Sample.willing
  have custody := cleaned.holds
  rw [value] at custody
  obtain ⟨file, headers, filled, image, read, prepared, length, calls, _⟩ :=
    succeeds 0x10000 value
  obtain rfl : ReflectiveDLLInject.movingFile = file := Option.some.inj read
  obtain rfl : ⟨64, 328, 3, 1280, 448⟩ = headers :=
    Option.some.inj (parsed.symm.trans prepared.parsed)
  refine ⟨value, custody, image, length, ?_⟩
  rw [calls, protections]
  rfl

end Mapper

end ApiScope
