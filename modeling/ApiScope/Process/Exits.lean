import ApiScope.Process.Bounds

/-!
# The exits of the mapper

What the mapper asks of the operating system, in order, by the exit that it takes.
Every failure behind an allocation ends with its release; a success has written one
image and protected its sections.
-/

namespace ApiScope

open Bytes Logged

namespace ReflectiveDLLInject

variable {file : List UInt8} {headers : Headers} {Result Other : Type}

/-! ## Calls into the operating system -/

/-- Accesses to the file and to the copy are no calls. -/
def Event.IsCall : Event → Bool
  | .readFile _ | .readImage _ | .writeImage _ | .visit _ => false
  | _ => true

/-- The calls that a computation makes, in order. -/
def calls (computation : Logged Event Result) : List Event :=
  computation.log.filter Event.IsCall

theorem calls_bind {first : Logged Event Result} {next : Result → Logged Event Other} :
    calls (first >>= next) = calls first ++ calls (next first.value) :=
  List.filter_append ..

/-- No event is a call. -/
abbrev Silent (computation : Logged Event Result) : Prop :=
  All (fun event => event.IsCall = false) computation

theorem calls_of_silent {computation : Logged Event Result} (silent : Silent computation) :
    calls computation = [] := by
  apply List.filter_eq_nil_iff.mpr
  intro event member
  exact Bool.eq_false_iff.mp (silent event member)

theorem silent_parseHeaders : Silent (parseHeaders file) := by
  unfold parseHeaders
  simp only [Silent, all_ite, all_bind, all_pure, all_fileWord, Event.IsCall, implies_true,
    and_self]

theorem silent_copy {source size destination : Nat} {image : List UInt8} :
    Silent (copy file source size destination image) := by
  simp only [Silent, copy, all_bind, all_emit, Event.IsCall, and_self]

theorem silent_copySections {remaining index : Nat} {image : List UInt8} :
    Silent (copySections file headers remaining index image) := by
  induction remaining generalizing index image with
  | zero => exact all_pure _
  | succ remaining inductionHypothesis =>
      simp only [Silent, copySections, copy, all_ite, all_bind, all_pure, all_emit, all_fileWord,
        Event.IsCall, implies_true, and_self, true_and]
      exact fun _ => inductionHypothesis

theorem silent_relocateEntries {delta sizeOfImage reloc remaining index : Nat}
    {image : List UInt8} :
    Silent (relocateEntries delta sizeOfImage reloc remaining index image) := by
  induction remaining generalizing index image with
  | zero => exact all_pure _
  | succ remaining inductionHypothesis =>
      simp only [Silent, relocateEntries, all_ite, all_bind, all_pure, all_emit, all_imageWord,
        Event.IsCall, implies_true, true_and]
      exact ⟨fun _ _ => inductionHypothesis, fun _ => inductionHypothesis⟩

theorem silent_relocateBlocks {delta sizeOfImage relocationEnd passes reloc : Nat}
    {image : List UInt8} :
    Silent (relocateBlocks delta sizeOfImage relocationEnd passes reloc image) := by
  induction passes generalizing reloc image with
  | zero => exact all_pure _
  | succ passes inductionHypothesis =>
      simp only [Silent, relocateBlocks, all_ite, all_bind, all_pure, all_imageWord,
        Event.IsCall, implies_true, and_true, true_and]
      intro _ _ _
      refine ⟨silent_relocateEntries, ?_⟩
      split
      · exact all_pure _
      · exact all_bind.mpr ⟨all_imageWord.mpr rfl, inductionHypothesis⟩

theorem silent_relocate {base : UInt64} {image : List UInt8} :
    Silent (relocate file headers base image) := by
  simp only [Silent, relocate, all_ite, all_bind, all_pure, all_fileWord, Event.IsCall,
    implies_true, and_true, true_and]
  exact fun _ _ => silent_relocateBlocks

/-! ## The sections -/

/-- A field of the header of a section. -/
def Headers.field (headers : Headers) (file : List UInt8) (index field : Nat) : Nat :=
  wordAt file (headers.sectionAt index + field) 4

/-- The protection of a section, which is asked for if the section is not empty. -/
def protection (file : List UInt8) (headers : Headers) (base : UInt64) (index : Nat) :
    Option Event :=
  if 0 < headers.field file index ImageSectionHeader.VirtualSize then
    some (.virtualProtectEx base (headers.field file index ImageSectionHeader.VirtualAddress)
      (headers.field file index ImageSectionHeader.VirtualSize)
      (GetMemoryProtection (headers.field file index ImageSectionHeader.Characteristics)))
  else none

/-- The range of the section lies in the image and has been given its protection. -/
def Protected (system : OperatingSystem) (file : List UInt8) (headers : Headers) (index : Nat) :
    Prop :=
  0 < headers.field file index ImageSectionHeader.VirtualSize →
    headers.field file index ImageSectionHeader.VirtualAddress +
        headers.field file index ImageSectionHeader.VirtualSize ≤ headers.sizeOfImage ∧
      system.virtualProtectEx index = true

/-- Nothing but protections. -/
def OnlyProtects (events : List Event) : Prop :=
  ∀ event ∈ events, ∃ base offset size protection,
    event = .virtualProtectEx base offset size protection

theorem calls_fileWord {offset width : Nat} : calls (fileWord file offset width) = [] :=
  calls_of_silent (all_fileWord.mpr rfl)

/-- One section, and the sections behind it. -/
theorem calls_protectSections {system : OperatingSystem} {base : UInt64} {remaining index : Nat} :
    OnlyProtects (calls (protectSections system file headers base remaining index)) ∧
      ((protectSections system file headers base remaining index).value = true →
        calls (protectSections system file headers base remaining index) =
            (List.range' index remaining).filterMap (protection file headers base) ∧
          ∀ other ∈ List.range' index remaining, Protected system file headers other) := by
  induction remaining generalizing index with
  | zero =>
      exact ⟨fun event member => (nomatch member), fun _ => ⟨rfl, fun other member =>
        (nomatch member)⟩⟩
  | succ remaining inductionHypothesis =>
      obtain ⟨only, whole⟩ := @inductionHypothesis (index + 1)
      rw [protectSections, calls_bind, calls_bind, calls_fileWord, calls_fileWord,
        List.nil_append, List.nil_append, value_bind, value_bind, value_fileWord, value_fileWord,
        List.range'_succ, List.filterMap_cons, List.forall_mem_cons, protection, Protected]
      unfold Headers.field
      by_cases present : 0 < wordAt file (headers.sectionAt index + ImageSectionHeader.VirtualSize) 4
      · rw [if_pos present, if_pos present, calls_bind, calls_fileWord, List.nil_append, value_bind,
          value_fileWord]
        by_cases inside : IsRangeWithin
            (wordAt file (headers.sectionAt index + ImageSectionHeader.VirtualAddress) 4)
            (wordAt file (headers.sectionAt index + ImageSectionHeader.VirtualSize) 4)
            headers.sizeOfImage = true
        · rw [if_neg (not_not.mpr inside), calls_bind, value_bind, value_emit]
          cases granted : system.virtualProtectEx index with
          | false =>
              refine ⟨fun event member => ?_, fun done => nomatch done⟩
              exact ⟨base, _, _, _, List.mem_singleton.mp member⟩
          | true =>
              refine ⟨List.forall_mem_cons.mpr ⟨⟨base, _, _, _, rfl⟩, only⟩, fun done => ?_⟩
              obtain ⟨isCalls, others⟩ := whole done
              refine ⟨congrArg (List.cons _) isCalls, fun _ => ⟨?_, rfl⟩, others⟩
              exact isRangeWithin_iff.mp inside
        · rw [if_pos inside]
          exact ⟨fun event member => (nomatch member), fun done => nomatch done⟩
      · rw [if_neg present, if_neg present]
        exact ⟨only, fun done => ⟨(whole done).1, fun some_ => absurd some_ present, (whole done).2⟩⟩

/-! ## The exits -/

/-- The call works on what has been allocated. -/
def Event.IsUse : Event → Prop
  | .writeProcessMemory _ _ | .virtualProtectEx _ _ _ _ | .flushInstructionCache _ _ => True
  | _ => False

theorem OnlyProtects.isUse {events : List Event} (only : OnlyProtects events) :
    ∀ event ∈ events, event.IsUse := by
  intro event member
  obtain ⟨base, offset, size, protection, rfl⟩ := only event member
  trivial

/-- The protections of all sections, in order. -/
def protections (file : List UInt8) (headers : Headers) (base : UInt64) : List Event :=
  (List.range' 0 headers.numberOfSections).filterMap (protection file headers base)

theorem onlyProtects_protections {base : UInt64} :
    OnlyProtects (protections file headers base) := by
  intro event member
  obtain ⟨index, _, isProtection⟩ := List.mem_filterMap.mp member
  unfold protection at isProtection
  split_ifs at isProtection
  exact ⟨base, _, _, _, (Option.some.inj isProtection).symm⟩

/-- A copy that is ready to be written to the base. -/
structure Prepared (file : List UInt8) (headers : Headers) (base : UInt64)
    (filled image : List UInt8) : Prop where
  parsed : (parseHeaders file).value = some headers
  copied : (copySections file headers headers.numberOfSections 0
    (copy file 0 headers.sizeOfHeaders 0 (List.replicate headers.sizeOfImage 0)).value).value =
      some filled
  relocated : (relocate file headers base filled).value = .finished image

/-- The image is in the target, and its sections are protected. -/
structure Mapped (system : OperatingSystem) (file : List UInt8) (headers : Headers) : Prop where
  written : system.writeProcessMemory = true
  protected_ : ∀ index ∈ List.range' 0 headers.numberOfSections,
    Protected system file headers index
  flushed : system.flushInstructionCache = true

/-- The calls of a run of the mapper, with its result. -/
inductive Exit (system : OperatingSystem) (file : List UInt8) :
    List Event → Option UInt64 → Prop where
  | refused : Exit system file [] none
  | unallocated {size : Nat} : Exit system file [.virtualAllocEx size 0] none
  | uncopied {size : Nat} {base : UInt64} : base ≠ 0 →
      Exit system file
        [.virtualAllocEx size base, .virtualAlloc size false, .virtualFreeEx base] none
  | failed {size : Nat} {base : UInt64} {events : List Event} : base ≠ 0 →
      (∀ event ∈ events, event.IsUse) →
      Exit system file
        (.virtualAllocEx size base :: .virtualAlloc size true :: events ++
          [.virtualFree, .virtualFreeEx base]) none
  | mapped {headers : Headers} {base : UInt64} {filled image : List UInt8} : base ≠ 0 →
      Prepared file headers base filled image → Mapped system file headers →
      Exit system file
        (.virtualAllocEx headers.sizeOfImage base :: .virtualAlloc headers.sizeOfImage true ::
          .writeProcessMemory base image :: protections file headers base ++
            [.flushInstructionCache base headers.sizeOfImage, .virtualFree]) (some base)

section Finish

variable {system : OperatingSystem} {base : UInt64} {image : List UInt8}

/-- How steps 7 to 10 end. -/
inductive FinishExit (system : OperatingSystem) (file : List UInt8) (headers : Headers)
    (base : UInt64) (image : List UInt8) : List Event → Option UInt64 → Prop where
  | failed {events : List Event} : (∀ event ∈ events, event.IsUse) →
      FinishExit system file headers base image
        (events ++ [.virtualFree, .virtualFreeEx base]) none
  | mapped : Mapped system file headers →
      FinishExit system file headers base image
        (.writeProcessMemory base image :: protections file headers base ++
          [.flushInstructionCache base headers.sizeOfImage, .virtualFree]) (some base)

theorem exit_finish :
    FinishExit system file headers base image (calls (finish system file headers base image))
      (finish system file headers base image).value := by
  obtain ⟨only, whole⟩ := @calls_protectSections file headers system base
    headers.numberOfSections 0
  unfold finish
  rw [calls_bind, value_bind, value_emit]
  cases written : system.writeProcessMemory with
  | false =>
      exact @FinishExit.failed system file headers base image [.writeProcessMemory base image]
        (by simp [Event.IsUse])
  | true =>
      rw [if_neg (by decide), calls_bind, value_bind]
      cases done : (protectSections system file headers base headers.numberOfSections 0).value with
      | false =>
          have uses : ∀ event ∈ Event.writeProcessMemory base image ::
              calls (protectSections system file headers base headers.numberOfSections 0),
              event.IsUse :=
            List.forall_mem_cons.mpr ⟨trivial, only.isUse⟩
          exact @FinishExit.failed system file headers base image _ uses
      | true =>
          obtain ⟨isCalls, each⟩ := whole done
          rw [if_neg (by decide), calls_bind, value_bind, value_emit, isCalls]
          cases flushed : system.flushInstructionCache with
          | false =>
              have uses : ∀ event ∈ Event.writeProcessMemory base image ::
                  protections file headers base ++
                    [.flushInstructionCache base headers.sizeOfImage], event.IsUse := by
                rw [protections, ← isCalls]
                simp only [List.mem_append, List.mem_cons]
                rintro event ((rfl | member) | rfl | none)
                · trivial
                · exact only.isUse event member
                · trivial
                · cases none
              have exit := @FinishExit.failed system file headers base image _ uses
              rw [List.append_assoc] at exit
              exact exit
          | true =>
              exact @FinishExit.mapped system file headers base image ⟨written, each, flushed⟩

end Finish

/-- Every run of the mapper takes one of the exits. -/
theorem exit_of_run (system : OperatingSystem) (file : List UInt8) :
    Exit system file (calls (ReflectiveDLLInject system file))
      (ReflectiveDLLInject system file).value := by
  unfold ReflectiveDLLInject
  rw [calls_bind, value_bind, calls_of_silent silent_parseHeaders, List.nil_append]
  cases parsed : (parseHeaders file).value with
  | none => exact .refused
  | some headers =>
      dsimp only
      rw [calls_bind, value_bind, value_emit]
      by_cases refused : system.virtualAllocEx headers.sizeOfImage = 0
      · rw [if_pos refused, refused]
        exact .unallocated
      rw [if_neg refused, calls_bind, value_bind, value_emit]
      cases allocated : system.virtualAlloc headers.sizeOfImage with
      | false => exact .uncopied refused
      | true =>
          rw [if_neg (not_not.mpr rfl), calls_bind, value_bind, calls_of_silent silent_copy,
            List.nil_append, calls_bind, value_bind, calls_of_silent silent_copySections,
            List.nil_append]
          cases copied : (copySections file headers headers.numberOfSections 0
              (copy file 0 headers.sizeOfHeaders 0
                (List.replicate headers.sizeOfImage 0)).value).value with
          | none => exact @Exit.failed system file _ _ [] refused fun event member => nomatch member
          | some filled =>
              dsimp only
              rw [calls_bind, value_bind, calls_of_silent silent_relocate, List.nil_append]
              cases relocated : (relocate file headers
                  (system.virtualAllocEx headers.sizeOfImage) filled).value with
              | invalid =>
                  exact @Exit.failed system file _ _ [] refused fun event member => nomatch member
              | unfinished =>
                  exact @Exit.failed system file _ _ [] refused fun event member => nomatch member
              | finished image =>
                  dsimp only
                  have exit := @exit_finish file headers system
                    (system.virtualAllocEx headers.sizeOfImage) image
                  generalize (finish system file headers
                    (system.virtualAllocEx headers.sizeOfImage) image).value = value at exit ⊢
                  generalize calls (finish system file headers
                    (system.virtualAllocEx headers.sizeOfImage) image) = events at exit ⊢
                  cases exit with
                  | failed uses => exact .failed refused uses
                  | mapped mapped => exact .mapped refused ⟨parsed, copied, relocated⟩ mapped

end ReflectiveDLLInject

end ApiScope
