import ApiScope.Session.Prospects
import ApiScope.Session.Releases
import ApiScope.TraceSession.Custody

/-!
# What is taken back

A hook that cannot be installed, a hook image that cannot be set up and a ring that
cannot be published are given back where they fail.  These releases are made while a
module is loaded; nobody can be inside what has just been taken, but for a hook whose
slot is still in use or whose function a thread stands in.
-/

namespace ApiScope

/-! ## Releases between two states -/

/-- Memory is handed out, a view is mapped, or a handle is duplicated. -/
def RemoteAction.Acquires : RemoteAction → Prop
  | .allocate _ _ | .map _ _ | .duplicateHandle _ => True
  | .write _ _ | .free _ | .unmap _ | .closeHandle _ => False

/-- From one state of the target to the other these releases are made. -/
def Release.Performed (other : RemoteAction → Prop) (releases : List Release)
    (before after : Target) : Prop :=
  ∃ added, after.log = before.log ++ added ∧ Release.Made other releases added

namespace Release

theorem Made.mono {other more : RemoteAction → Prop} {releases : List Release}
    {actions : List RemoteAction} (made : Made other releases actions)
    (implies : ∀ action, other action → more action) : Made more releases actions :=
  ⟨made.made, fun action member =>
    (made.nothingElse action member).imp_right (Or.imp_right (implies action))⟩

namespace Performed

variable {other : RemoteAction → Prop} {releases others : List Release}
  {before middle after : Target}

theorem refl (target : Target) : Performed other [] target target :=
  ⟨[], (List.append_nil _).symm, .of_map []⟩

theorem trans (first : Performed other releases before middle)
    (second : Performed other others middle after) :
    Performed other (releases ++ others) before after := by
  obtain ⟨added, isAdded, made⟩ := first
  obtain ⟨behind, isBehind, madeBehind⟩ := second
  exact ⟨added ++ behind, by rw [isBehind, isAdded, List.append_assoc], made.append madeBehind⟩

/-- What goes before releases nothing. -/
theorem andThen (first : Performed other [] before middle)
    (second : Performed other releases middle after) : Performed other releases before after :=
  first.trans second

theorem mono {more : RemoteAction → Prop} (performed : Performed other releases before after)
    (implies : ∀ action, other action → more action) : Performed more releases before after := by
  obtain ⟨added, isAdded, made⟩ := performed
  exact ⟨added, isAdded, made.mono implies⟩

theorem of_writtenTo (written : before.WrittenTo after) : Performed other [] before after := by
  obtain ⟨_, _, writes, onlyWrites, isWrites⟩ := written
  exact ⟨writes, isWrites, .of_onlyWrites onlyWrites⟩

theorem write (target : Target) (succeeds : Bool) (address : Nat) (bytes : List UInt8) :
    Performed other [] target (target.WriteProcessMemory succeeds address bytes) :=
  of_writtenTo (target.writtenTo_WriteProcessMemory succeeds address bytes)

theorem allocate (acquires : ∀ action, RemoteAction.Acquires action → other action)
    (target : Target) (base size : Nat) :
    Performed other [] target (target.VirtualAllocEx base size) := by
  unfold Target.VirtualAllocEx
  split_ifs
  · refine ⟨_, rfl, .of_others fun action member => acquires action ?_⟩
    rw [List.mem_singleton.mp member]
    trivial
  · exact refl target

theorem map (acquires : ∀ action, RemoteAction.Acquires action → other action)
    (target : Target) (succeeds : Bool) (base size : Nat) :
    Performed other [] target (target.NtMapViewOfSection succeeds base size) := by
  unfold Target.NtMapViewOfSection
  split_ifs
  · refine ⟨_, rfl, .of_others fun action member => acquires action ?_⟩
    rw [List.mem_singleton.mp member]
    trivial
  · exact refl target

theorem duplicate (acquires : ∀ action, RemoteAction.Acquires action → other action)
    (target : Target) (succeeds : Bool) (handle : Nat) :
    Performed other [] target (target.DuplicateHandle succeeds handle) := by
  unfold Target.DuplicateHandle
  split_ifs
  · refine ⟨_, rfl, .of_others fun action member => acquires action ?_⟩
    rw [List.mem_singleton.mp member]
    trivial
  · exact refl target

theorem of_log {succeeds : Bool} (release : Release)
    (log : after.log = before.log ++ if succeeds then [release.action] else []) :
    Performed other (if succeeds then [release] else []) before after :=
  ⟨_, log, .of_ite release Iff.rfl⟩

theorem clear (target : Target) (succeeds : Bool) (hook : InstalledHook) :
    Performed other (if succeeds then [.slot hook] else []) target
      (target.WriteProcessMemory succeeds hook.trampolineSlot (pointerBytes 0)) := by
  refine of_log _ ?_
  cases succeeds with
  | false => exact (List.append_nil _).symm
  | true => rfl

theorem free (target : Target) (succeeds : Bool) (hook : InstalledHook) :
    Performed other (if succeeds then [.trampoline hook] else []) target
      (target.VirtualFreeEx succeeds hook.trampolineAddress) :=
  of_log (.trampoline hook) (target.log_VirtualFreeEx succeeds _)

/-- What is freed may count as something else. -/
theorem freeOther {base : Nat} (frees : other (.free base)) (target : Target)
    (succeeds : Bool) : Performed other [] target (target.VirtualFreeEx succeeds base) := by
  refine ⟨_, target.log_VirtualFreeEx succeeds base, .of_others fun action member => ?_⟩
  rw [(List.mem_singleton.mp (List.mem_ite_nil_right.mp member).2)]
  exact frees

theorem freeImage (target : Target) (succeeds : Bool) (base size : Nat) :
    Performed other (if succeeds then [Release.image base size] else []) target
      (target.VirtualFreeEx succeeds base) :=
  of_log (Release.image base size) (target.log_VirtualFreeEx succeeds base)

theorem unmap (target : Target) (succeeds : Bool) (base : Nat) :
    Performed other (if succeeds then [.ring base] else []) target
      (target.NtUnmapViewOfSection succeeds base) :=
  of_log (.ring base) (target.log_NtUnmapViewOfSection succeeds base)

end Performed

end Release

open Release (Performed)

/-! ## Hooks -/

/-- A trampoline that cannot be made is freed if it has been allocated. -/
def CreateBypassTrampoline.releases (decode : Decoder) (calls : CreateBypassTrampoline.Calls)
    (originalFunction : Nat) (hook : InstalledHook) (target : Target) : List Release :=
  let patchSize := CalculatePatchSize decode (calls.ok .readWindow) originalFunction target
  if patchSize = 0 then []
  else if calls.allocation = 0 then []
  else
    match CreateTrampoline calls originalFunction calls.allocation patchSize
        (target.VirtualAllocEx calls.allocation TRAMPOLINE_SIZE) with
    | (false, _) => if calls.ok .free then [.trampoline hook] else []
    | (true, _) => []

/-- `HookFunction` leaves the function patched although it fails. -/
def HookFunction.Calls.leavesPatch (calls : HookFunction.Calls) : Bool :=
  calls.ok (.patch .protect) && calls.ok (.patch .write) &&
    !(calls.ok (.patch .reprotect) && calls.ok (.patch .flush))

/-- The hook that `HookFunction` takes back, with bytes if they have been patched. -/
def HookFunction.withdrawn (calls : HookFunction.Calls) (originalFunction trampolineSlot : Nat)
    (definition : HookDefinition) (originalBytes : List UInt8) : InstalledHook :=
  { canonicalName := definition.canonicalName
    sourceModuleBase := 0
    targetModuleBase := 0
    originalFunction := originalFunction
    trampolineAddress := calls.allocation
    trampolineSlot := trampolineSlot
    originalBytes := if calls.leavesPatch then originalBytes else [] }

/-- What `HookFunction` releases where it fails. -/
def HookFunction.releases (decode : Decoder) (calls : HookFunction.Calls)
    (originalFunction hookImageBase : Nat) (definition : HookDefinition) (target : Target) :
    List Release :=
  if originalFunction = 0 then []
  else
    match target.GetRemoteExport hookImageBase definition.handlerExport,
        target.GetRemoteExport hookImageBase definition.trampolineExport with
    | some handlerExport, some trampolineExport =>
        if handlerExport.address = 0 ∨ trampolineExport.address = 0 then []
        else
          let patchSize := CalculatePatchSize decode (calls.ok (.trampoline .readWindow))
            originalFunction target
          let hook := withdrawn calls originalFunction trampolineExport.address definition
            (target.memory.read originalFunction patchSize)
          match CreateBypassTrampoline decode ⟨calls.ok ∘ .trampoline, calls.allocation⟩
              originalFunction target with
          | (none, _) =>
              CreateBypassTrampoline.releases decode ⟨calls.ok ∘ .trampoline, calls.allocation⟩
                originalFunction hook target
          | (some _, target) =>
              if !calls.ok .preserve then if calls.ok .free then [.trampoline hook] else []
              else if !calls.ok .writeSlot then if calls.ok .free then [.trampoline hook] else []
              else
                let target := target.WriteProcessMemory true trampolineExport.address
                  (pointerBytes calls.allocation)
                match PatchFunction (calls.ok ∘ .patch) originalFunction handlerExport.address
                    patchSize target with
                | (false, _) =>
                    (if calls.ok .clearSlot then [.slot hook] else []) ++
                      if calls.ok .free then [.trampoline hook] else []
                | (true, _) => []
    | _, _ => []

theorem CreateBypassTrampoline.mem_releases {decode : Decoder}
    {calls : CreateBypassTrampoline.Calls} {originalFunction : Nat} {hook : InstalledHook}
    {target : Target} {release : Release}
    (member : release ∈ releases decode calls originalFunction hook target) :
    release = .trampoline hook := by
  unfold releases at member
  dsimp only at member
  generalize CreateTrampoline calls originalFunction calls.allocation _ _ = outcome at member
  obtain ⟨made, after⟩ := outcome
  cases made with
  | false =>
      dsimp only at member
      split_ifs at member
      · cases member
      · cases member
      · exact List.mem_singleton.mp member
      · cases member
  | true =>
      dsimp only at member
      split_ifs at member <;> cases member

/-- Only the hook that was to be made is taken back. -/
theorem HookFunction.mem_releases {decode : Decoder} {calls : HookFunction.Calls}
    {originalFunction hookImageBase : Nat} {definition : HookDefinition} {target : Target}
    {release : Release}
    (member : release ∈
      HookFunction.releases decode calls originalFunction hookImageBase definition target) :
    ∃ trampolineExport,
      target.GetRemoteExport hookImageBase definition.trampolineExport = some trampolineExport ∧
      ∃ hook, (release = .slot hook ∨ release = .trampoline hook) ∧
        hook = HookFunction.withdrawn calls originalFunction trampolineExport.address definition
          (target.memory.read originalFunction
            (CalculatePatchSize decode (calls.ok (.trampoline .readWindow)) originalFunction
              target)) := by
  unfold HookFunction.releases at member
  by_cases unresolved : originalFunction = 0
  · rw [if_pos unresolved] at member
    cases member
  rw [if_neg unresolved] at member
  cases handler : target.GetRemoteExport hookImageBase definition.handlerExport with
  | none => simp [handler] at member
  | some handlerExport =>
      cases slot : target.GetRemoteExport hookImageBase definition.trampolineExport with
      | none => simp [handler, slot] at member
      | some trampolineExport =>
          refine ⟨trampolineExport, rfl, _, ?_, rfl⟩
          simp only [handler, slot] at member
          generalize HookFunction.withdrawn calls originalFunction trampolineExport.address
            definition _ = hook at member ⊢
          have freed (free : Bool)
              (member : release ∈ if free then [Release.trampoline hook] else []) :
              release = .slot hook ∨ release = .trampoline hook :=
            Or.inr (List.mem_singleton.mp (List.mem_ite_nil_right.mp member).2)
          by_cases null : handlerExport.address = 0 ∨ trampolineExport.address = 0
          · rw [if_pos null] at member
            cases member
          rw [if_neg null] at member
          generalize CreateBypassTrampoline decode _ originalFunction target = outcome at member
          obtain ⟨trampoline, middle⟩ := outcome
          cases trampoline with
          | none => exact Or.inr (CreateBypassTrampoline.mem_releases member)
          | some trampoline =>
              dsimp only at member
              by_cases unpreserved : (!calls.ok .preserve) = true
              · rw [if_pos unpreserved] at member
                exact freed _ member
              by_cases unwritten : (!calls.ok .writeSlot) = true
              · rw [if_neg unpreserved, if_pos unwritten] at member
                exact freed _ member
              rw [if_neg unpreserved, if_neg unwritten] at member
              generalize PatchFunction _ originalFunction _ _ _ = outcome at member
              obtain ⟨succeeds, after⟩ := outcome
              cases succeeds with
              | false =>
                  rcases List.mem_append.mp member with cleared | free
                  · exact Or.inl
                      (List.mem_singleton.mp (List.mem_ite_nil_right.mp cleared).2)
                  · exact freed _ free
              | true => cases member

section Hooks

variable {other : RemoteAction → Prop}

theorem CreateTrampoline_performed (calls : CreateBypassTrampoline.Calls)
    (originalFunction trampolineAddress patchSize : Nat) (target : Target) :
    Performed other [] target
      (CreateTrampoline calls originalFunction trampolineAddress patchSize target).2 := by
  unfold CreateTrampoline
  dsimp only
  split_ifs
  · exact .refl target
  · exact .refl target
  · exact .write target true _ _

/-- A trampoline that is made is not released. -/
theorem CreateBypassTrampoline_performed
    (acquires : ∀ action, RemoteAction.Acquires action → other action) (decode : Decoder)
    (calls : CreateBypassTrampoline.Calls) (originalFunction : Nat) {hook : InstalledHook}
    (isAllocation : hook.trampolineAddress = calls.allocation) (target : Target) :
    Performed other (CreateBypassTrampoline.releases decode calls originalFunction hook target)
        target (CreateBypassTrampoline decode calls originalFunction target).2 ∧
      ∀ trampoline, (CreateBypassTrampoline decode calls originalFunction target).1 =
          some trampoline →
        CreateBypassTrampoline.releases decode calls originalFunction hook target = [] ∧
          trampoline = ⟨calls.allocation,
            CalculatePatchSize decode (calls.ok .readWindow) originalFunction target⟩ := by
  unfold CreateBypassTrampoline.releases CreateBypassTrampoline
  dsimp only
  generalize CalculatePatchSize decode (calls.ok .readWindow) originalFunction target = patchSize
  by_cases unsized : patchSize = 0
  · simp only [if_pos unsized]
    exact ⟨.refl target, by simp⟩
  by_cases null : calls.allocation = 0
  · simp only [if_neg unsized, if_pos null]
    exact ⟨.refl target, by simp⟩
  simp only [if_neg unsized, if_neg null]
  have performed : Performed other [] target
      (CreateTrampoline calls originalFunction calls.allocation patchSize
        (target.VirtualAllocEx calls.allocation TRAMPOLINE_SIZE)).2 :=
    (Performed.allocate acquires target _ _).andThen (CreateTrampoline_performed _ _ _ _ _)
  revert performed
  generalize CreateTrampoline calls originalFunction calls.allocation patchSize
    (target.VirtualAllocEx calls.allocation TRAMPOLINE_SIZE) = outcome
  obtain ⟨made, after⟩ := outcome
  intro performed
  cases made with
  | false =>
      dsimp only
      rw [← isAllocation]
      exact ⟨performed.andThen (.free after _ hook), by simp⟩
  | true => exact ⟨performed, fun trampoline made => ⟨rfl, (Option.some.inj made).symm⟩⟩

theorem PatchFunction_performed (ok : PatchFunction.Call → Bool)
    (originalFunction newAddress patchSize : Nat) (target : Target) :
    Performed other [] target
      (PatchFunction ok originalFunction newAddress patchSize target).2 := by
  unfold PatchFunction
  dsimp only
  split_ifs
  · exact .refl target
  · exact .refl target
  · exact .write target true _ _

/-- Behind the trampoline the hook may still be taken back at three points. -/
theorem HookFunction_performed_behind {calls : HookFunction.Calls} {hook : InstalledHook}
    {originalFunction newAddress patchSize trampolineSlot : Nat} {made : InstalledHook}
    {target middle : Target} (performed : Performed other [] target middle)
    (allocation : hook.trampolineAddress = calls.allocation)
    (slot : hook.trampolineSlot = trampolineSlot) :
    Performed other
      (if !calls.ok .preserve then if calls.ok .free then [.trampoline hook] else []
        else if !calls.ok .writeSlot then if calls.ok .free then [.trampoline hook] else []
        else
          match PatchFunction (calls.ok ∘ .patch) originalFunction newAddress patchSize
              (middle.WriteProcessMemory true trampolineSlot (pointerBytes calls.allocation)) with
          | (false, _) =>
              (if calls.ok .clearSlot then [.slot hook] else []) ++
                if calls.ok .free then [.trampoline hook] else []
          | (true, _) => [])
      target
      (if !calls.ok .preserve then (none, middle.VirtualFreeEx (calls.ok .free) calls.allocation)
        else if !calls.ok .writeSlot then
          (none, middle.VirtualFreeEx (calls.ok .free) calls.allocation)
        else
          match PatchFunction (calls.ok ∘ .patch) originalFunction newAddress patchSize
              (middle.WriteProcessMemory true trampolineSlot (pointerBytes calls.allocation)) with
          | (false, target) =>
              (none, (target.WriteProcessMemory (calls.ok .clearSlot) trampolineSlot
                (pointerBytes 0)).VirtualFreeEx (calls.ok .free) calls.allocation)
          | (true, target) => (some made, target) : Option InstalledHook × Target).2 := by
  have given : Performed other (if calls.ok .free then [.trampoline hook] else []) target
      (middle.VirtualFreeEx (calls.ok .free) calls.allocation) := by
    rw [← allocation]
    exact performed.andThen (.free middle _ hook)
  by_cases unpreserved : (!calls.ok .preserve) = true
  · simp only [if_pos unpreserved]
    exact given
  by_cases unwritten : (!calls.ok .writeSlot) = true
  · simp only [if_neg unpreserved, if_pos unwritten]
    exact given
  simp only [if_neg unpreserved, if_neg unwritten]
  have patched := (performed.andThen
    (.write middle true trampolineSlot (pointerBytes calls.allocation))).andThen
      (PatchFunction_performed (calls.ok ∘ .patch) originalFunction newAddress patchSize _)
  revert patched
  generalize PatchFunction (calls.ok ∘ .patch) originalFunction newAddress patchSize
    (middle.WriteProcessMemory true trampolineSlot (pointerBytes calls.allocation)) = outcome
  obtain ⟨succeeds, after⟩ := outcome
  intro patched
  cases succeeds with
  | false =>
      dsimp only at patched ⊢
      rw [← allocation, ← slot]
      exact patched.andThen ((Performed.clear after _ hook).trans (.free _ _ hook))
  | true => exact patched

theorem HookFunction_performed
    (acquires : ∀ action, RemoteAction.Acquires action → other action) (decode : Decoder)
    (calls : HookFunction.Calls) (originalFunction hookImageBase : Nat)
    (definition : HookDefinition) (target : Target) :
    Performed other
      (HookFunction.releases decode calls originalFunction hookImageBase definition target) target
      (HookFunction decode calls originalFunction hookImageBase definition target).2 := by
  unfold HookFunction.releases HookFunction
  by_cases unresolved : originalFunction = 0
  · rw [if_pos unresolved, if_pos unresolved]
    exact .refl target
  rw [if_neg unresolved, if_neg unresolved]
  cases target.GetRemoteExport hookImageBase definition.handlerExport with
  | none => exact .refl target
  | some handlerExport =>
      cases target.GetRemoteExport hookImageBase definition.trampolineExport with
      | none => exact .refl target
      | some trampolineExport =>
          dsimp only
          by_cases null : handlerExport.address = 0 ∨ trampolineExport.address = 0
          · rw [if_pos null, if_pos null]
            exact .refl target
          rw [if_neg null, if_neg null]
          generalize isHook : HookFunction.withdrawn calls originalFunction
            trampolineExport.address definition _ = hook
          have allocation : hook.trampolineAddress = calls.allocation := by rw [← isHook]; rfl
          have slot : hook.trampolineSlot = trampolineExport.address := by rw [← isHook]; rfl
          obtain ⟨performed, made⟩ := CreateBypassTrampoline_performed acquires decode
            ⟨calls.ok ∘ .trampoline, calls.allocation⟩ originalFunction allocation target
          revert performed made
          generalize CreateBypassTrampoline decode ⟨calls.ok ∘ .trampoline, calls.allocation⟩
            originalFunction target = outcome
          obtain ⟨trampoline, middle⟩ := outcome
          intro performed made
          cases trampoline with
          | none => exact performed
          | some trampoline =>
              obtain ⟨nothing, rfl⟩ := made trampoline rfl
              rw [nothing] at performed
              exact HookFunction_performed_behind performed allocation slot

end Hooks

/-! ## The ring and the hook image -/

namespace TraceSession

def CreateSharedRing.releases (calls : Start.Calls) : List Release :=
  if calls.mappingHandle = 0 then []
  else if calls.localRing = 0 then []
  else if !calls.ok .mapViewOfSection then []
  else if calls.wakeEvent = 0 then if calls.ok .unmapRing then [.ring calls.remoteRing] else []
  else if !calls.ok .duplicateHandle then
    if calls.ok .unmapRing then [.ring calls.remoteRing] else []
  else []

def Start.releases (calls : Start.Calls) (outputOptions : TraceOutputOptions)
    (hookImageBase : Nat) (session : TraceSession) (targetProcess : Target) : List Release :=
  if session.stopEvent = 0 then []
  else if !OpenOutput outputOptions calls.opened then []
  else
    match session.CreateSharedRing calls targetProcess with
    | (false, _, _) => CreateSharedRing.releases calls
    | (true, session, targetProcess) =>
        match Start.publish calls hookImageBase session targetProcess with
        | (false, _) => if calls.ok .unmapRing then [.ring session.remoteRing] else []
        | (true, _) => []

theorem CreateSharedRing.mem_releases {calls : Start.Calls} {release : Release}
    (member : release ∈ CreateSharedRing.releases calls) :
    ∃ base, release = .ring base := by
  unfold CreateSharedRing.releases at member
  split_ifs at member
  · cases member
  · cases member
  · cases member
  · exact ⟨_, List.mem_singleton.mp member⟩
  · cases member
  · exact ⟨_, List.mem_singleton.mp member⟩
  · cases member
  · cases member

theorem Start.mem_releases {calls : Start.Calls} {outputOptions : TraceOutputOptions}
    {hookImageBase : Nat} {session : TraceSession} {targetProcess : Target} {release : Release}
    (member : release ∈ Start.releases calls outputOptions hookImageBase session
      targetProcess) : ∃ base, release = .ring base := by
  unfold Start.releases at member
  by_cases closed : session.stopEvent = 0
  · rw [if_pos closed] at member
    cases member
  by_cases unopened : (!OpenOutput outputOptions calls.opened) = true
  · rw [if_neg closed, if_pos unopened] at member
    cases member
  rw [if_neg closed, if_neg unopened] at member
  generalize session.CreateSharedRing calls targetProcess = outcome at member
  obtain ⟨created, shared, middle⟩ := outcome
  cases created with
  | false => exact CreateSharedRing.mem_releases member
  | true =>
      dsimp only at member
      generalize Start.publish calls hookImageBase shared middle = outcome at member
      obtain ⟨published, last⟩ := outcome
      cases published with
      | false => exact ⟨_, List.mem_singleton.mp (List.mem_ite_nil_right.mp member).2⟩
      | true => cases member

section Ring

variable {other : RemoteAction → Prop}

/-- A ring that is made is not released. -/
theorem CreateSharedRing_performed
    (acquires : ∀ action, RemoteAction.Acquires action → other action) (calls : Start.Calls)
    (session : TraceSession) (targetProcess : Target) :
    Performed other (CreateSharedRing.releases calls) targetProcess
        (session.CreateSharedRing calls targetProcess).2.2 ∧
      ((session.CreateSharedRing calls targetProcess).1 = true →
        CreateSharedRing.releases calls = []) := by
  unfold CreateSharedRing.releases CreateSharedRing
  dsimp only
  by_cases mapping : calls.mappingHandle = 0
  · simp only [if_pos mapping]
    exact ⟨.refl _, fun _ => trivial⟩
  by_cases local_ : calls.localRing = 0
  · simp only [if_neg mapping, if_pos local_]
    exact ⟨.refl _, fun _ => trivial⟩
  have mapped := Performed.map acquires targetProcess (calls.ok .mapViewOfSection)
    calls.remoteRing sizeofTraceRing
  by_cases unmapped : (!calls.ok .mapViewOfSection) = true
  · simp only [if_neg mapping, if_neg local_, if_pos unmapped]
    exact ⟨mapped, fun _ => trivial⟩
  have given := mapped.andThen (.unmap _ (calls.ok .unmapRing) calls.remoteRing)
  by_cases silent : calls.wakeEvent = 0
  · simp only [if_neg mapping, if_neg local_, if_neg unmapped, if_pos silent]
    exact ⟨given, by simp⟩
  by_cases kept : (!calls.ok .duplicateHandle) = true
  · simp only [if_neg mapping, if_neg local_, if_neg unmapped, if_neg silent, if_pos kept]
    exact ⟨given, by simp⟩
  simp only [if_neg mapping, if_neg local_, if_neg unmapped, if_neg silent, if_neg kept]
  exact ⟨mapped.andThen (.duplicate acquires _ true calls.remoteWakeEvent), fun _ => trivial⟩

theorem Start_performed (acquires : ∀ action, RemoteAction.Acquires action → other action)
    (calls : Start.Calls) (outputOptions : TraceOutputOptions) (hookImageBase : Nat)
    (session : TraceSession) (targetProcess : Target) :
    Performed other (Start.releases calls outputOptions hookImageBase session targetProcess)
      targetProcess (session.Start calls outputOptions hookImageBase targetProcess).2.2 := by
  unfold Start.releases Start
  by_cases closed : session.stopEvent = 0
  · rw [if_pos closed, if_pos closed]
    exact .refl _
  rw [if_neg closed, if_neg closed]
  by_cases unopened : (!OpenOutput outputOptions calls.opened) = true
  · rw [if_pos unopened, if_pos unopened]
    exact .refl _
  rw [if_neg unopened, if_neg unopened]
  obtain ⟨performed, made⟩ := CreateSharedRing_performed acquires calls session targetProcess
  revert performed made
  generalize session.CreateSharedRing calls targetProcess = outcome
  obtain ⟨created, shared, middle⟩ := outcome
  intro performed made
  cases created with
  | false => exact performed
  | true =>
      rw [made rfl] at performed
      have published := performed.andThen
        (.of_writtenTo (writtenTo_Start_publish calls hookImageBase shared middle))
      dsimp only
      revert published
      generalize Start.publish calls hookImageBase shared middle = outcome
      obtain ⟨succeeds, last⟩ := outcome
      intro published
      cases succeeds with
      | false => exact published.andThen (.unmap _ _ shared.remoteRing)
      | true => exact published

/-- What is done for the transport besides: memory is handed out, and a bypass that cannot
be made is freed. -/
def ConfigureTransport.Calls.Prepares (calls : ConfigureTransport.Calls) (action : RemoteAction) :
    Prop :=
  action.Acquires ∨ action = .free calls.setEvent.allocation ∨
    action = .free calls.readMemory.allocation

theorem CreateBypassTrampolineForFunction_performed
    (acquires : ∀ action, RemoteAction.Acquires action → other action) (decode : Decoder)
    {calls : CreateBypassTrampoline.Calls} (frees : other (.free calls.allocation))
    (moduleBase : Nat) (functionName : List UInt8) (target : Target) :
    Performed other [] target
      (CreateBypassTrampolineForFunction decode calls moduleBase functionName target).2 := by
  unfold CreateBypassTrampolineForFunction
  cases target.GetRemoteExport moduleBase functionName with
  | none => exact .refl target
  | some remoteExport =>
      dsimp only
      split_ifs
      · exact .refl target
      · have effect := CreateBypassTrampoline_effect decode calls remoteExport.address target
        generalize (CreateBypassTrampoline decode calls remoteExport.address target).1 =
          trampoline at effect
        generalize (CreateBypassTrampoline decode calls remoteExport.address target).2 =
          after at effect ⊢
        have allocated := Performed.allocate acquires target calls.allocation TRAMPOLINE_SIZE
        cases effect with
        | refused => exact .refl target
        | abandoned => exact allocated.andThen (.freeOther frees _ _)
        | discarded =>
            exact (allocated.andThen (.write _ true _ _)).andThen (.freeOther frees _ _)
        | created => exact allocated.andThen (.write _ true _ _)

theorem ConfigureTransport_performed (decode : Decoder) (calls : ConfigureTransport.Calls)
    (ntdllBase hookImageBase : Nat) (session : TraceSession) (targetProcess : Target) :
    Performed (ConfigureTransport.Calls.Prepares calls) [] targetProcess
      (session.ConfigureTransport decode calls ntdllBase hookImageBase targetProcess).2.2 := by
  have setEvent := CreateBypassTrampolineForFunction_performed
    (fun _ => Or.inl : ∀ action, action.Acquires → ConfigureTransport.Calls.Prepares calls action)
    decode (Or.inr (Or.inl rfl)) ntdllBase (narrow "NtSetEvent") targetProcess
  unfold ConfigureTransport
  revert setEvent
  generalize CreateBypassTrampolineForFunction decode calls.setEvent ntdllBase
    (narrow "NtSetEvent") targetProcess = outcome
  obtain ⟨setEventBypass, middle⟩ := outcome
  intro setEvent
  cases setEventBypass with
  | none => exact setEvent
  | some setEventBypass =>
      have readMemory := setEvent.andThen (CreateBypassTrampolineForFunction_performed
        (fun _ => Or.inl : ∀ action, action.Acquires → ConfigureTransport.Calls.Prepares calls action)
        decode (Or.inr (Or.inr rfl)) ntdllBase (narrow "NtReadVirtualMemory") middle)
      dsimp only
      revert readMemory
      generalize CreateBypassTrampolineForFunction decode calls.readMemory ntdllBase
        (narrow "NtReadVirtualMemory") middle = outcome
      obtain ⟨readMemoryBypass, last⟩ := outcome
      intro readMemory
      cases readMemoryBypass with
      | none => exact readMemory
      | some readMemoryBypass =>
          exact readMemory.andThen
            (.of_writtenTo (writtenTo_ConfigureTransport_publish calls hookImageBase _ last))

end Ring

end TraceSession

/-- What `InjectDll` releases where it fails. -/
def InjectDll.releases (calls : InjectDll.Calls) : List Release :=
  if !calls.accepted then []
  else if calls.allocation = 0 then []
  else if !calls.prepared then
    if calls.free then [.image calls.allocation calls.image.size] else []
  else if !calls.write || !calls.protect || !calls.flush then
    if calls.free then [.image calls.allocation calls.image.size] else []
  else []

theorem InjectDll_performed {other : RemoteAction → Prop}
    (acquires : ∀ action, RemoteAction.Acquires action → other action)
    (calls : InjectDll.Calls) (process : Target) :
    Performed other (InjectDll.releases calls) process (InjectDll calls process).2 := by
  unfold InjectDll.releases InjectDll
  dsimp only
  by_cases refused : (!calls.accepted) = true
  · rw [if_pos refused, if_pos refused]
    exact .refl process
  by_cases null : calls.allocation = 0
  · simp only [if_neg refused, if_pos null]
    exact .refl process
  have allocated := Performed.allocate acquires process calls.allocation calls.image.size
  by_cases unprepared : (!calls.prepared) = true
  · simp only [if_neg refused, if_neg null, if_pos unprepared]
    exact allocated.andThen (.freeImage _ _ _ _)
  have written := allocated.andThen
    (.write _ calls.write calls.allocation calls.image.content)
  by_cases failed : (!calls.write || !calls.protect || !calls.flush) = true
  · simp only [if_neg refused, if_neg null, if_neg unprepared, if_pos failed]
    exact written.andThen (.freeImage _ _ _ _)
  simp only [if_neg refused, if_neg null, if_neg unprepared, if_neg failed]
  exact written

namespace DebugSession

/-! ## Events -/

def InitializeDebuggee.releases (calls : InitializeDebuggee.Calls) (session : DebugSession) :
    List Release :=
  if !calls.setKillOnExit then []
  else
    InjectDll.releases calls.inject ++
      match InjectDll calls.inject session.process with
      | (hookImageBase, process) =>
          if hookImageBase = 0 then []
          else if calls.imageSize = 0 then []
          else
            TraceSession.Start.releases calls.start session.options.output hookImageBase
              session.traceSession process

namespace TryInstallPendingHooks

/-- What one round releases. -/
def round.releases (decode : Decoder) (install : HookDefinition → HookFunction.Calls)
    (definition : HookDefinition) (session : DebugSession) : List Release :=
  if session.installedHooks.any (·.canonicalName == definition.canonicalName) then []
  else
    match ResolveHookAddress session.process session.modules definition with
    | (_, .pending) | (_, .error) => []
    | (_, .resolved address _) =>
        if session.installedHooks.any (·.originalFunction == address) then []
        else
          HookFunction.releases decode (install definition) address session.hookImageBase
            definition session.process

def releases (decode : Decoder) (install : HookDefinition → HookFunction.Calls)
    (definitions : List HookDefinition) (session : DebugSession) : List Release :=
  (rounds decode install definitions session).flatMap fun visited =>
    round.releases decode install visited.1 visited.2

end TryInstallPendingHooks

def RegisterModule.releases (decode : Decoder) (calls : ModuleEvent.Calls) (image : LoadedImage)
    (session : DebugSession) : List Release :=
  match installing decode calls image session with
  | none => []
  | some entered =>
      TryInstallPendingHooks.releases decode calls.install entered.options.hooks entered

def HandleCreateProcess.releases (decode : Decoder) (calls : ModuleEvent.Calls)
    (image : LoadedImage) (session : DebugSession) : List Release :=
  if session.hookImageBase = 0 then
    InitializeDebuggee.releases calls.debuggee session ++
      match session.InitializeDebuggee calls.debuggee with
      | (false, _) => []
      | (true, session) => RegisterModule.releases decode calls image session
  else RegisterModule.releases decode calls image session

/-- What the handling of an event releases. -/
def HandleModuleEvent.releases (decode : Decoder) (calls : ModuleEvent.Calls)
    (event : ModuleEvent) (session : DebugSession) : List Release :=
  match event with
  | .createProcess image =>
      HandleCreateProcess.releases decode calls image (session.withImage image)
  | .loadDll image => RegisterModule.releases decode calls image (session.withImage image)
  | .unloadDll base => session.installedHooks.flatMap (HandleUnloadDll.releases calls base)

section Events

variable {other : RemoteAction → Prop}

theorem InitializeDebuggee_performed
    (acquires : ∀ action, RemoteAction.Acquires action → other action)
    (calls : InitializeDebuggee.Calls) (session : DebugSession) :
    Performed other (InitializeDebuggee.releases calls session) session.process
      (session.InitializeDebuggee calls).2.process := by
  unfold InitializeDebuggee.releases DebugSession.InitializeDebuggee
  by_cases refused : (!calls.setKillOnExit) = true
  · rw [if_pos refused, if_pos refused]
    exact .refl _
  rw [if_neg refused, if_neg refused]
  have injected := InjectDll_performed acquires calls.inject session.process
  revert injected
  generalize InjectDll calls.inject session.process = outcome
  obtain ⟨hookImageBase, process⟩ := outcome
  intro injected
  dsimp only at injected ⊢
  refine injected.trans ?_
  split_ifs
  · exact .refl process
  · exact .refl process
  · exact TraceSession.Start_performed acquires calls.start session.options.output hookImageBase
      session.traceSession process

theorem configureTransport_performed {calls : TraceSession.ConfigureTransport.Calls}
    (prepares : ∀ action, calls.Prepares action → other action) (decode : Decoder)
    (image : LoadedImage) (session : DebugSession) :
    Performed other [] session.process (session.configureTransport decode calls image).2.process := by
  unfold DebugSession.configureTransport
  split_ifs
  · exact (TraceSession.ConfigureTransport_performed decode calls image.base
      session.hookImageBase session.traceSession session.process).mono prepares
  · exact .refl _

theorem TryInstallPendingHooks.round_performed
    (acquires : ∀ action, RemoteAction.Acquires action → other action) (decode : Decoder)
    (install : HookDefinition → HookFunction.Calls) (definition : HookDefinition)
    (session : DebugSession) :
    Performed other (round.releases decode install definition session) session.process
      (round decode install definition session).2.process := by
  unfold round.releases round
  by_cases named :
      session.installedHooks.any (·.canonicalName == definition.canonicalName) = true
  · rw [if_pos named, if_pos named]
    exact .refl _
  rw [if_neg named, if_neg named]
  cases ResolveHookAddress session.process session.modules definition with
  | mk source result =>
      cases result with
      | pending => exact .refl _
      | error => exact .refl _
      | resolved address base =>
          dsimp only
          by_cases taken : session.installedHooks.any (·.originalFunction == address) = true
          · rw [if_pos taken, if_pos taken]
            exact .refl _
          rw [if_neg taken, if_neg taken]
          have performed := HookFunction_performed acquires decode (install definition) address
            session.hookImageBase definition session.process
          revert performed
          generalize HookFunction decode (install definition) address session.hookImageBase
            definition session.process = outcome
          obtain ⟨hook, process⟩ := outcome
          intro performed
          cases hook <;> exact performed

theorem TryInstallPendingHooks.loop_performed
    (acquires : ∀ action, RemoteAction.Acquires action → other action) (decode : Decoder)
    (install : HookDefinition → HookFunction.Calls) (definitions : List HookDefinition)
    (session : DebugSession) :
    Performed other (releases decode install definitions session) session.process
      (loop decode install definitions session).2.process := by
  induction definitions generalizing session with
  | nil => exact .refl _
  | cons definition rest inductionHypothesis =>
      have performed := round_performed acquires decode install definition session
      rw [releases, rounds, List.flatMap_cons, loop]
      revert performed
      generalize round decode install definition session = outcome
      obtain ⟨continues, next⟩ := outcome
      intro performed
      refine performed.trans ?_
      cases continues with
      | false => exact .refl _
      | true => exact inductionHypothesis next

theorem RegisterModule_performed {calls : ModuleEvent.Calls}
    (prepares : ∀ action, calls.configure.Prepares action → other action) (decode : Decoder)
    (image : LoadedImage) (session : DebugSession) :
    Performed other (RegisterModule.releases decode calls image session) session.process
      (session.RegisterModule decode calls image).2.process := by
  have configured := configureTransport_performed prepares decode image
    (session.recordModule image)
  unfold RegisterModule.releases RegisterModule.installing DebugSession.RegisterModule
  by_cases unnamed : image.name = []
  · rw [if_pos unnamed, if_pos unnamed]
    exact .refl _
  rw [if_neg unnamed, if_neg unnamed]
  revert configured
  generalize (session.recordModule image).configureTransport decode calls.configure image =
    outcome
  obtain ⟨succeeds, entered⟩ := outcome
  intro configured
  cases succeeds with
  | false => exact configured
  | true =>
      dsimp only
      split_ifs
      · exact configured
      · exact configured.andThen (TryInstallPendingHooks.loop_performed
          (fun action acquires => prepares action (Or.inl acquires)) decode calls.install
          entered.options.hooks entered)

theorem HandleModuleEvent_performed {calls : ModuleEvent.Calls}
    (prepares : ∀ action, calls.configure.Prepares action → other action) (decode : Decoder)
    (event : ModuleEvent) (session : DebugSession) :
    Performed other (HandleModuleEvent.releases decode calls event session) session.process
      (session.HandleModuleEvent decode calls event).2.process := by
  cases event with
  | loadDll image =>
      exact RegisterModule_performed prepares decode image (session.withImage image)
  | unloadDll base =>
      exact ⟨_, log_HandleUnloadDll calls base (session.withoutImage base),
        .flatMap (HandleUnloadDll.made calls base)⟩
  | createProcess image =>
      show Performed other (HandleCreateProcess.releases decode calls image
        (session.withImage image)) (session.withImage image).process
          ((session.withImage image).HandleCreateProcess decode calls image).2.process
      generalize session.withImage image = mapped
      unfold HandleCreateProcess.releases DebugSession.HandleCreateProcess
      by_cases first : mapped.hookImageBase = 0
      · simp only [if_pos first]
        have initialized := InitializeDebuggee_performed
          (fun action acquires => prepares action (Or.inl acquires)) calls.debuggee mapped
        revert initialized
        generalize mapped.InitializeDebuggee calls.debuggee = outcome
        obtain ⟨succeeds, started⟩ := outcome
        intro initialized
        refine initialized.trans ?_
        cases succeeds with
        | false => exact .refl _
        | true => exact RegisterModule_performed prepares decode image started
      · simp only [if_neg first]
        exact RegisterModule_performed prepares decode image mapped

end Events

/-! ## Who uses what is taken back -/

/-- The hook that the loop is about to make.  It has bytes if its patch may be left: those
that are read of the function. -/
def intended (session : DebugSession) (install : HookDefinition → HookFunction.Calls)
    (definition : HookDefinition) : Option InstalledHook :=
  match session.prospect definition,
      session.process.GetRemoteExport session.hookImageBase definition.trampolineExport with
  | some address, some trampolineExport =>
      some (HookFunction.withdrawn (install definition) address trampolineExport.address
        definition (session.process.memory.read address 32))
  | _, _ => none

section InUse

variable {decode : Decoder} {install : HookDefinition → HookFunction.Calls}
  {definition : HookDefinition} {session before : DebugSession} {strays : List InstalledHook}
  {thread : Thread} {release : Release}

/-- Whatever a round releases belongs to the hook it was to make. -/
theorem TryInstallPendingHooks.uses_of_inUse (within : DecodesWithin decode)
    {definitions : List HookDefinition}
    (member : release ∈ releases decode install definitions session)
    (inUse : release.InUse before strays thread) :
    ∃ definition ∈ definitions, ∃ hook ∈ session.intended install definition,
      Thread.Uses before strays hook thread := by
  obtain ⟨⟨definition, current⟩, isVisited, isRelease⟩ := List.mem_flatMap.mp member
  obtain ⟨selected, frame⟩ := rounds_frame decode install definitions session _ isVisited
  refine ⟨definition, selected, ?_⟩
  dsimp only at isRelease frame
  unfold round.releases at isRelease
  by_cases named :
      current.installedHooks.any (·.canonicalName == definition.canonicalName) = true
  · rw [if_pos named] at isRelease
    cases isRelease
  rw [if_neg named] at isRelease
  have found : ∀ address source base, ResolveHookAddress current.process current.modules
      definition = (source, .resolved address base) → session.prospect definition = some address := by
    intro address source base resolved
    refine prospect_of_frame frame ?_
    rw [prospect, if_neg named, resolved]
  revert isRelease found
  generalize ResolveHookAddress current.process current.modules definition = result
  obtain ⟨source, result⟩ := result
  intro isRelease found
  cases result with
  | pending => cases isRelease
  | error => cases isRelease
  | resolved address base =>
      dsimp only at isRelease
      by_cases taken : current.installedHooks.any (·.originalFunction == address) = true
      · rw [if_pos taken] at isRelease
        cases isRelease
      rw [if_neg taken] at isRelease
      obtain ⟨trampolineExport, slot, hook, ofHook, isHook⟩ := HookFunction.mem_releases isRelease
      rw [Target.GetRemoteExport, frame.images, frame.hookImageBase] at slot
      have slotExport : session.process.GetRemoteExport session.hookImageBase
          definition.trampolineExport = some trampolineExport := slot
      have uses : Thread.Uses before strays hook thread := by
        rcases ofHook with rfl | rfl <;> exact inUse
      refine ⟨HookFunction.withdrawn (install definition) address trampolineExport.address
        definition (session.process.memory.read address 32), ?_, ?_⟩
      · rw [intended, found address source base rfl, slotExport]
        rfl
      · subst isHook
        refine uses.mono rfl rfl fun place patched => ⟨patched.1, lt_of_lt_of_le patched.2 ?_⟩
        have size := CalculatePatchSize_le within
          ((install definition).ok (.trampoline .readWindow)) address current.process
        simp only [HookFunction.withdrawn]
        split_ifs
        · rw [Memory.length_read, Memory.length_read]
          omega
        · exact le_rfl

/-- Setting up releases the ring it has mapped or the image it has allocated. -/
theorem InitializeDebuggee.mem_releases {calls : InitializeDebuggee.Calls}
    (member : release ∈ releases calls session) :
    (∃ base, release = .ring base) ∨
      release = .image calls.inject.allocation calls.inject.image.size := by
  unfold releases at member
  obtain ⟨_, rest⟩ := List.mem_ite_nil_left.mp member
  rcases List.mem_append.mp rest with injected | started
  · unfold InjectDll.releases at injected
    split_ifs at injected
    · cases injected
    · cases injected
    · exact Or.inr (List.mem_singleton.mp injected)
    · cases injected
    · exact Or.inr (List.mem_singleton.mp injected)
    · cases injected
    · cases injected
  · dsimp only at started
    split_ifs at started
    · cases started
    · cases started
    · exact Or.inl (TraceSession.Start.mem_releases started)

/-- What is released where a module comes is taken back on the way to the hook image, or
by the loop over the hooks. -/
theorem HandleModuleEvent.mem_releases {calls : ModuleEvent.Calls} {event : ModuleEvent}
    (member : release ∈ releases decode calls event session) :
    (∃ base, event = .unloadDll base) ∨
      ((∃ image, event = .createProcess image) ∧ session.hookImageBase = 0 ∧
        ((∃ base, release = .ring base) ∨
          release = .image calls.debuggee.inject.allocation calls.debuggee.inject.image.size)) ∨
      ∃ entered ∈ installing decode calls event session,
        release ∈ TryInstallPendingHooks.releases decode calls.install entered.options.hooks
          entered := by
  have registers : ∀ {image : LoadedImage} {registered : DebugSession},
      release ∈ RegisterModule.releases decode calls image registered →
      ∃ entered ∈ RegisterModule.installing decode calls image registered,
        release ∈ TryInstallPendingHooks.releases decode calls.install entered.options.hooks
          entered := by
    intro image registered isRelease
    rw [RegisterModule.releases] at isRelease
    cases entered : RegisterModule.installing decode calls image registered with
    | none =>
        rw [entered] at isRelease
        cases isRelease
    | some entered' =>
        rw [entered] at isRelease
        exact ⟨entered', rfl, isRelease⟩
  cases event with
  | unloadDll base => exact Or.inl ⟨base, rfl⟩
  | loadDll image => exact Or.inr (Or.inr (registers member))
  | createProcess image =>
      rw [releases, HandleCreateProcess.releases] at member
      rw [installing, HandleCreateProcess.installing]
      have isBase : (session.withImage image).hookImageBase = session.hookImageBase := rfl
      generalize session.withImage image = mapped at member isBase ⊢
      by_cases first : mapped.hookImageBase = 0
      · rw [if_pos first] at member
        rw [if_pos first]
        rcases List.mem_append.mp member with initializing | registering
        · exact Or.inr (Or.inl ⟨⟨image, rfl⟩, isBase ▸ first,
            InitializeDebuggee.mem_releases initializing⟩)
        · generalize mapped.InitializeDebuggee calls.debuggee = outcome at registering ⊢
          obtain ⟨initialized, started⟩ := outcome
          cases initialized with
          | false => cases registering
          | true => exact Or.inr (Or.inr (registers registering))
      · rw [if_neg first] at member
        rw [if_neg first]
        exact Or.inr (Or.inr (registers member))

end InUse

end DebugSession

end ApiScope
