import ApiScope.Session.HookCalls
import ApiScope.Session.Strays

/-!
# Releases of instrumentation

Trampoline slots, trampolines, the ring and the hook image are released when a
module is unloaded and when the target is cleaned up.  What is released there is
read off the calls made in the target, and said beside it which threads use it;
a hook that the session has forgotten may still be in use.
-/

namespace ApiScope

/-! ## What is released -/

/-- A release of instrumentation. -/
inductive Release where
  | slot (hook : InstalledHook)
  | trampoline (hook : InstalledHook)
  | ring (base : Nat)
  | image (base size : Nat)
  deriving DecidableEq, Repr

def Release.action : Release → RemoteAction
  | .slot hook => .write hook.trampolineSlot (pointerBytes 0)
  | .trampoline hook => .free hook.trampolineAddress
  | .ring base => .unmap base
  | .image base _ => .free base

def ReleaseUnloadedHook.releases (ok : ReleaseUnloadedHook.Call → Bool) (hook : InstalledHook) :
    List Release :=
  (if ok .clearSlot then [.slot hook] else []) ++ if ok .free then [.trampoline hook] else []

def UnhookFunction.releases (ok : UnhookFunction.Call → Bool) (hook : InstalledHook) :
    List Release :=
  if hook.Valid ∧ (ok .protect && ok .restore && ok .reprotect && ok .flush && ok .clearSlot) then
    .slot hook :: if ok .free then [.trampoline hook] else []
  else []

/-- The saved bytes are written back, and then the hook is released. -/
def UnhookFunction.actions (ok : UnhookFunction.Call → Bool) (hook : InstalledHook) :
    List RemoteAction :=
  (if hook.Valid ∧ (ok .protect && ok .restore) then
      [RemoteAction.write hook.originalFunction hook.originalBytes]
    else []) ++
    (UnhookFunction.releases ok hook).map Release.action

theorem Target.log_VirtualFreeEx (target : Target) (succeeds : Bool) (base : Nat) :
    (target.VirtualFreeEx succeeds base).log =
      target.log ++ if succeeds then [.free base] else [] := by
  cases succeeds with
  | false => exact (List.append_nil _).symm
  | true => rfl

theorem log_ReleaseUnloadedHook (ok : ReleaseUnloadedHook.Call → Bool) (hook : InstalledHook)
    (target : Target) :
    (ReleaseUnloadedHook ok hook target).2.log =
      target.log ++ (ReleaseUnloadedHook.releases ok hook).map Release.action := by
  unfold ReleaseUnloadedHook ReleaseUnloadedHook.releases Target.WriteProcessMemory
    Target.VirtualFreeEx
  cases ok .clearSlot <;> cases ok .free <;> simp [Release.action]

theorem log_UnhookFunction (ok : UnhookFunction.Call → Bool) (hook : InstalledHook)
    (target : Target) :
    (UnhookFunction ok hook target).2.log = target.log ++ UnhookFunction.actions ok hook := by
  by_cases valid : hook.Valid
  · have effect := UnhookFunction_effect ok valid target
    generalize (UnhookFunction ok hook target).1 = unhooked at effect
    generalize (UnhookFunction ok hook target).2 = after at effect ⊢
    unfold UnhookFunction.actions UnhookFunction.releases
    cases effect with
    | patchStays stays =>
        have closed : ¬(ok .protect = true ∧ ok .restore = true) := by simpa using stays
        simp [valid, closed]
    | slotStays protect restore stays =>
        have unfinished : ¬((ok .reprotect = true ∧ ok .flush = true) ∧ ok .clearSlot = true) := by
          simpa using stays
        simp [valid, protect, restore, unfinished, Target.withOriginal, Target.WriteProcessMemory]
    | removed protect restore finished =>
        have finish : (ok .reprotect = true ∧ ok .flush = true) ∧ ok .clearSlot = true := by
          simpa using finished
        rw [Target.log_VirtualFreeEx]
        cases ok .free <;>
          simp [valid, protect, restore, finish, Target.withoutHook, Target.withOriginal,
            Target.WriteProcessMemory, Release.action]
  · have checked : hook.originalFunction = 0 ∨ hook.trampolineAddress = 0 ∨
        hook.trampolineSlot = 0 ∨ hook.originalBytes = [] := by
      unfold InstalledHook.Valid at valid
      tauto
    rw [UnhookFunction, if_pos checked]
    simp [UnhookFunction.actions, UnhookFunction.releases, valid]

theorem Target.log_NtUnmapViewOfSection (target : Target) (succeeds : Bool) (base : Nat) :
    (target.NtUnmapViewOfSection succeeds base).log =
      target.log ++ if succeeds then [.unmap base] else [] := by
  cases succeeds with
  | false => exact (List.append_nil _).symm
  | true => rfl

theorem Target.log_CloseRemoteHandle (target : Target) (succeeds : Bool) (handle : Nat) :
    (target.CloseRemoteHandle succeeds handle).log =
      target.log ++ if succeeds then [.closeHandle handle] else [] := by
  cases succeeds with
  | false => exact (List.append_nil _).symm
  | true => rfl

namespace TraceSession

theorem log_freeBypass (succeeds : Bool) (bypass : RemoteTrampoline) (targetProcess : Target) :
    (freeBypass succeeds bypass targetProcess).2.log = targetProcess.log ++
      if bypass.address ≠ 0 ∧ succeeds then [.free bypass.address] else [] := by
  unfold freeBypass
  by_cases absent : bypass.address = 0
  · simp [absent]
  · simp [absent, Target.log_VirtualFreeEx]

/-- Whatever fails, the session releases at most what it holds. -/
theorem log_CleanupRemote_releases (ok : CleanupRemote.Call → Bool) (hookImageBase : Nat)
    (session : TraceSession) (targetProcess : Target) :
    ∃ writes others, OnlyWrites writes ∧
      (∀ action ∈ others, action = .closeHandle session.remoteWakeEvent ∨
        ∃ bypass ∈ [session.setEventBypass, session.readMemoryBypass],
          action = .free bypass.address) ∧
      (session.CleanupRemote ok hookImageBase targetProcess).2.2.log = targetProcess.log ++
        writes ++
        (if session.remoteRing ≠ 0 ∧ ok .unmapRing then [.unmap session.remoteRing] else []) ++
        others := by
  obtain ⟨_, _, writes, onlyWrites, isWrites⟩ :=
    writtenTo_clearExports ok hookImageBase targetProcess
  refine ⟨writes,
    (if session.remoteWakeEvent ≠ 0 ∧ ok .closeWakeEvent then
      [.closeHandle session.remoteWakeEvent] else []) ++
    (if session.setEventBypass.address ≠ 0 ∧ ok .freeSetEvent then
      [.free session.setEventBypass.address] else []) ++
    (if session.readMemoryBypass.address ≠ 0 ∧ ok .freeReadMemory then
      [.free session.readMemoryBypass.address] else []), onlyWrites, ?_, ?_⟩
  · intro action member
    simp only [List.mem_append, List.mem_ite_nil_right, List.mem_singleton] at member
    rcases member with (closed | freed) | freed
    · exact Or.inl closed.2
    · exact Or.inr ⟨_, by simp, freed.2⟩
    · exact Or.inr ⟨_, by simp, freed.2⟩
  · have unmapped (process : Target) :
        (if session.remoteRing ≠ 0 then
          (ok .unmapRing, process.NtUnmapViewOfSection (ok .unmapRing) session.remoteRing)
        else (true, process)).2.log = process.log ++
          if session.remoteRing ≠ 0 ∧ ok .unmapRing then [.unmap session.remoteRing] else [] := by
      by_cases absent : session.remoteRing = 0
      · simp [absent]
      · simp [absent, Target.log_NtUnmapViewOfSection]
    have closed (process : Target) :
        (if session.remoteWakeEvent ≠ 0 then
          (ok .closeWakeEvent,
            process.CloseRemoteHandle (ok .closeWakeEvent) session.remoteWakeEvent)
        else (true, process)).2.log = process.log ++
          if session.remoteWakeEvent ≠ 0 ∧ ok .closeWakeEvent then
            [.closeHandle session.remoteWakeEvent] else [] := by
      by_cases absent : session.remoteWakeEvent = 0
      · simp [absent]
      · simp [absent, Target.log_CloseRemoteHandle]
    unfold CleanupRemote
    dsimp only
    rw [log_freeBypass, log_freeBypass, closed, unmapped, isWrites]
    simp only [List.append_assoc]

end TraceSession

/-- The calls make these releases; otherwise they write to memory or are of
another kind. -/
structure Release.Made (other : RemoteAction → Prop) (releases : List Release)
    (actions : List RemoteAction) : Prop where
  made : ∀ release ∈ releases, release.action ∈ actions
  nothingElse : ∀ action ∈ actions, (∃ release ∈ releases, action = release.action) ∨
    (∃ address bytes, action = .write address bytes) ∨ other action

namespace Release.Made

variable {other : RemoteAction → Prop} {releases others : List Release}
  {actions behind : List RemoteAction}

theorem of_onlyWrites (onlyWrites : OnlyWrites actions) : Made other [] actions :=
  ⟨by simp, fun action member => Or.inr (Or.inl (onlyWrites action member))⟩

theorem of_others (isOther : ∀ action ∈ actions, other action) : Made other [] actions :=
  ⟨by simp, fun action member => Or.inr (Or.inr (isOther action member))⟩

theorem of_map (releases : List Release) : Made other releases (releases.map action) := by
  refine ⟨fun release => List.mem_map_of_mem, fun action member => Or.inl ?_⟩
  obtain ⟨release, isRelease, same⟩ := List.mem_map.mp member
  exact ⟨release, isRelease, same.symm⟩

theorem of_ite (release : Release) {condition condition' : Prop} [Decidable condition]
    [Decidable condition'] (same : condition ↔ condition') :
    Made other (if condition then [release] else [])
      (if condition' then [release.action] else []) := by
  by_cases holds : condition
  · rw [if_pos holds, if_pos (same.mp holds)]
    exact of_map [release]
  · rw [if_neg holds, if_neg fun other => holds (same.mpr other)]
    exact of_map []

theorem append (first : Made other releases actions) (second : Made other others behind) :
    Made other (releases ++ others) (actions ++ behind) := by
  constructor
  · intro release member
    rw [List.mem_append] at member ⊢
    exact member.imp (first.made release) (second.made release)
  · intro action member
    rcases List.mem_append.mp member with before | after
    · refine (first.nothingElse action before).imp_left fun ⟨release, isRelease, same⟩ => ?_
      exact ⟨release, List.mem_append_left _ isRelease, same⟩
    · refine (second.nothingElse action after).imp_left fun ⟨release, isRelease, same⟩ => ?_
      exact ⟨release, List.mem_append_right _ isRelease, same⟩

theorem flatMap {hooks : List InstalledHook} {releases : InstalledHook → List Release}
    {actions : InstalledHook → List RemoteAction}
    (each : ∀ hook, Made other (releases hook) (actions hook)) :
    Made other (hooks.flatMap releases) (hooks.flatMap actions) := by
  induction hooks with
  | nil => exact ⟨by simp, by simp⟩
  | cons hook rest inductionHypothesis =>
      rw [List.flatMap_cons, List.flatMap_cons]
      exact (each hook).append inductionHypothesis

end Release.Made

theorem UnhookFunction.made {other : RemoteAction → Prop} (ok : UnhookFunction.Call → Bool)
    (hook : InstalledHook) : Release.Made other (releases ok hook) (actions ok hook) := by
  have restores : OnlyWrites (if hook.Valid ∧ (ok .protect && ok .restore) then
      [RemoteAction.write hook.originalFunction hook.originalBytes] else []) := by
    intro action member
    exact ⟨_, _, List.mem_singleton.mp (List.mem_ite_nil_right.mp member).2⟩
  exact (Release.Made.of_onlyWrites restores).append (.of_map _)

namespace DebugSession

/-! ## The three paths -/

/-- What `HandleUnloadDll` does to one hook. -/
def HandleUnloadDll.releases (calls : ModuleEvent.Calls) (base : Nat) (hook : InstalledHook) :
    List Release :=
  if hook.targetModuleBase = base then ReleaseUnloadedHook.releases (calls.release hook) hook
  else if hook.sourceModuleBase = base then UnhookFunction.releases (calls.unhook hook) hook
  else []

def HandleUnloadDll.actions (calls : ModuleEvent.Calls) (base : Nat) (hook : InstalledHook) :
    List RemoteAction :=
  if hook.targetModuleBase = base then
    (ReleaseUnloadedHook.releases (calls.release hook) hook).map Release.action
  else if hook.sourceModuleBase = base then UnhookFunction.actions (calls.unhook hook) hook
  else []

def CleanupRemote.releases (calls : CleanupRemote.Calls) (session : DebugSession) :
    List Release :=
  (session.installedHooks.reverse.flatMap fun hook =>
      UnhookFunction.releases (calls.unhook hook) hook) ++
    if session.hookImageBase = 0 then []
    else
      (if session.traceSession.remoteRing ≠ 0 ∧ calls.transport .unmapRing then
          [Release.ring session.traceSession.remoteRing]
        else []) ++
        if calls.freeImage then [Release.image session.hookImageBase session.hookImageSize]
        else []

theorem log_HandleUnloadDll (calls : ModuleEvent.Calls) (base : Nat) (session : DebugSession) :
    (session.HandleUnloadDll calls base).process.log =
      session.process.log ++ session.installedHooks.flatMap (HandleUnloadDll.actions calls base) := by
  have loop_log : ∀ (hooks : List InstalledHook) (process : Target),
      (HandleUnloadDll.loop calls base hooks process).2.log =
        process.log ++ hooks.flatMap (HandleUnloadDll.actions calls base) := by
    intro hooks
    induction hooks with
    | nil => simp [HandleUnloadDll.loop]
    | cons hook rest inductionHypothesis =>
        intro process
        rw [HandleUnloadDll.loop, List.flatMap_cons, HandleUnloadDll.actions]
        split_ifs
        · rw [inductionHypothesis, log_ReleaseUnloadedHook, List.append_assoc]
        · rw [inductionHypothesis, log_UnhookFunction, List.append_assoc]
        · exact inductionHypothesis process
  exact loop_log session.installedHooks session.process

/-- The hooks are taken out first.  Then the transport is disconnected, the ring,
the wake event and the bypasses are given back, and last the image. -/
theorem log_CleanupRemote_releases (calls : CleanupRemote.Calls) (session : DebugSession) :
    ∃ writes others, OnlyWrites writes ∧
      (∀ action ∈ others, action = .closeHandle session.traceSession.remoteWakeEvent ∨
        ∃ bypass ∈ session.bypasses, action = .free bypass.address) ∧
      (session.CleanupRemote calls).2.process.log = session.process.log ++
        (session.installedHooks.reverse.flatMap fun hook =>
          UnhookFunction.actions (calls.unhook hook) hook) ++ writes ++
        (if session.hookImageBase ≠ 0 ∧ session.traceSession.remoteRing ≠ 0 ∧
            calls.transport .unmapRing then
          [RemoteAction.unmap session.traceSession.remoteRing]
        else []) ++ others ++
        (if session.hookImageBase ≠ 0 ∧ calls.freeImage then
          [RemoteAction.free session.hookImageBase]
        else []) := by
  have loop_log : ∀ (hooks : List InstalledHook) (process : Target),
      (CleanupRemote.loop calls.unhook hooks process).2.log = process.log ++
        hooks.flatMap fun hook => UnhookFunction.actions (calls.unhook hook) hook := by
    intro hooks
    induction hooks with
    | nil => simp [CleanupRemote.loop]
    | cons hook rest inductionHypothesis =>
        intro process
        rw [CleanupRemote.loop, List.flatMap_cons, inductionHypothesis, log_UnhookFunction,
          List.append_assoc]
  have unhooked := loop_log session.installedHooks.reverse session.process
  by_cases unmapped : session.hookImageBase = 0
  · refine ⟨[], [], by simp [OnlyWrites], by simp, ?_⟩
    unfold CleanupRemote
    dsimp only
    rw [if_pos unmapped]
    simpa [unmapped] using unhooked
  · obtain ⟨writes, others, onlyWrites, isOther, disconnected⟩ :=
      TraceSession.log_CleanupRemote_releases calls.transport session.hookImageBase
        session.traceSession (session.unhooked calls).2
    refine ⟨writes, others, onlyWrites, isOther, ?_⟩
    have disconnectedLog : (session.disconnected calls).2.2.log = _ := disconnected
    have unhookedLog : (session.unhooked calls).2.log = _ := unhooked
    rw [(CleanupRemote_of_mapped unmapped calls).2, Target.log_VirtualFreeEx, disconnectedLog,
      unhookedLog]
    simp [unmapped]

theorem HandleUnloadDll.made {other : RemoteAction → Prop} (calls : ModuleEvent.Calls)
    (base : Nat) (hook : InstalledHook) :
    Release.Made other (releases calls base hook) (actions calls base hook) := by
  unfold releases actions
  split_ifs
  · exact .of_map _
  · exact UnhookFunction.made _ hook
  · exact .of_map []

/-- Closing the wake event or freeing a bypass. -/
def ReleasesTransport (session : DebugSession) (action : RemoteAction) : Prop :=
  action = .closeHandle session.traceSession.remoteWakeEvent ∨
    ∃ bypass ∈ session.bypasses, action = .free bypass.address

theorem CleanupRemote.made (calls : CleanupRemote.Calls) (session : DebugSession) :
    ∃ added, (session.CleanupRemote calls).2.process.log = session.process.log ++ added ∧
      Release.Made session.ReleasesTransport (releases calls session) added := by
  obtain ⟨writes, others, onlyWrites, isOther, log⟩ := log_CleanupRemote_releases calls session
  refine ⟨_, by rw [log, List.append_assoc, List.append_assoc, List.append_assoc,
    List.append_assoc], ?_⟩
  have unhooked : Release.Made session.ReleasesTransport
      (session.installedHooks.reverse.flatMap fun hook =>
        UnhookFunction.releases (calls.unhook hook) hook)
      (session.installedHooks.reverse.flatMap fun hook =>
        UnhookFunction.actions (calls.unhook hook) hook) :=
    .flatMap fun hook => UnhookFunction.made _ hook
  refine unhooked.append ?_
  by_cases unmapped : session.hookImageBase = 0
  · have rest : Release.Made session.ReleasesTransport ([] ++ []) (writes ++ others) :=
      (Release.Made.of_onlyWrites onlyWrites).append (.of_others isOther)
    simpa [unmapped] using rest
  · have ring : Release.Made session.ReleasesTransport
        (if session.traceSession.remoteRing ≠ 0 ∧ calls.transport .unmapRing then
          [Release.ring session.traceSession.remoteRing] else [])
        (if session.hookImageBase ≠ 0 ∧ session.traceSession.remoteRing ≠ 0 ∧
            calls.transport .unmapRing then
          [RemoteAction.unmap session.traceSession.remoteRing] else []) :=
      .of_ite (.ring session.traceSession.remoteRing) (and_iff_right unmapped).symm
    have image : Release.Made session.ReleasesTransport
        (if calls.freeImage then [Release.image session.hookImageBase session.hookImageSize]
          else [])
        (if session.hookImageBase ≠ 0 ∧ calls.freeImage then
          [RemoteAction.free session.hookImageBase] else []) :=
      .of_ite (.image session.hookImageBase session.hookImageSize) (and_iff_right unmapped).symm
    have all := (Release.Made.of_onlyWrites onlyWrites).append
      (ring.append ((Release.Made.of_others isOther).append image))
    rw [if_neg unmapped]
    exact all

end DebugSession

/-! ## Threads inside instrumentation -/

/-- The hook to whose call a frame belongs. -/
def Phase.hook : Phase → Option InstalledHook
  | .entry hook | .prologue hook | .guarded hook | .trampoline hook | .epilogue hook => some hook
  | .outside | .bypass _ => none

theorem Phase.ne_outside {phase : Phase} {hook : InstalledHook} (calling : hook ∈ phase.hook) :
    phase ≠ .outside := by
  rintro rfl
  cases calling

namespace DebugSession

/-- The hooks in the books and those that are forgotten. -/
def known (session : DebugSession) (strays : List InstalledHook) : List InstalledHook :=
  session.installedHooks ++ strays

instance (session : DebugSession) (address : Nat) : Decidable (session.InHookImage address) :=
  inferInstanceAs (Decidable (_ ∧ _ ∧ _))

instance (hook : InstalledHook) (address : Nat) : Decidable (hook.InPatch address) :=
  inferInstanceAs (Decidable (_ ∧ _))

instance (hook : InstalledHook) (address : Nat) : Decidable (hook.InTrampoline address) :=
  inferInstanceAs (Decidable (_ ∧ _))

instance (bypass : RemoteTrampoline) (address : Nat) : Decidable (bypass.Contains address) :=
  inferInstanceAs (Decidable (_ ∧ _ ∧ _))

instance (session : DebugSession) (address : Nat) : Decidable (session.Freed address) :=
  inferInstanceAs (Decidable (_ ∨ _ ∨ _))

/-- The address lies in memory that a cleanup frees, or in a forgotten trampoline that
has never been freed. -/
def Held (session : DebugSession) (strays : List InstalledHook) (address : Nat) : Prop :=
  session.Freed address ∨
    ∃ stray ∈ strays, session.process.allocations stray.trampolineAddress ≠ 0 ∧
      stray.InTrampoline address

instance (session : DebugSession) (strays : List InstalledHook) (address : Nat) :
    Decidable (session.Held strays address) :=
  inferInstanceAs (Decidable (_ ∨ _))

end DebugSession

/-- The address lies in the code of the phase, whether the hook is forgotten or not. -/
def Frame.Placed (session : DebugSession) (strays : List InstalledHook) (frame : Frame) : Prop :=
  match frame.phase with
  | .outside => ¬session.Held strays frame.address
  | .entry hook => hook ∈ session.known strays ∧ hook.InPatch frame.address
  | .prologue _ | .guarded _ | .epilogue _ => session.InHookImage frame.address
  | .trampoline hook => hook ∈ session.known strays ∧ hook.InTrampoline frame.address
  | .bypass bypass => bypass ∈ session.bypasses ∧ bypass.Contains frame.address

theorem Frame.Located.placed {session : DebugSession} {frame : Frame}
    (located : frame.Located session) : frame.Placed session [] := by
  obtain ⟨phase, address⟩ := frame
  cases phase with
  | outside =>
      rintro (freed | ⟨stray, member, _⟩)
      · exact located freed
      · cases member
  | entry | trampoline => exact ⟨List.mem_append_left _ located.1, located.2⟩
  | prologue | guarded | bypass | epilogue => exact located

/-- The frames the counter does not count are given away by the instruction pointer,
but for those in a patch that is forgotten. -/
theorem Frame.Placed.outside {session : DebugSession} {strays : List InstalledHook}
    {frame : Frame} (placed : frame.Placed session strays)
    (elsewhere : session.IsInstrumentationAddress frame.address = false)
    (unpatched : ∀ stray ∈ strays, ¬stray.InPatch frame.address)
    (unguarded : frame.phase.guards = 0) (unsheltered : ¬frame.phase.Sheltered) :
    frame.phase = .outside := by
  obtain ⟨notImage, notHook⟩ := (session.IsInstrumentationAddress_eq_false_iff _).mp elsewhere
  obtain ⟨phase, address⟩ := frame
  cases phase with
  | outside => rfl
  | entry hook =>
      rcases List.mem_append.mp placed.1 with installed | forgotten
      · exact absurd placed.2 (notHook hook installed).1
      · exact absurd placed.2 (unpatched hook forgotten)
  | prologue => exact absurd placed notImage
  | guarded => exact absurd unguarded Nat.one_ne_zero
  | trampoline => exact absurd trivial unsheltered
  | bypass => exact absurd trivial unsheltered
  | epilogue => exact absurd placed notImage

/-- The hooks have their slot or their trampoline in common. -/
def InstalledHook.Shares (hook other : InstalledHook) : Prop :=
  hook.trampolineSlot = other.trampolineSlot ∨ hook.trampolineAddress = other.trampolineAddress

instance (hook other : InstalledHook) : Decidable (hook.Shares other) :=
  inferInstanceAs (Decidable (_ ∨ _))

namespace Thread

/-- The frames stand where hooked calls can come to, and are stacked as these stack them. -/
structure Placed (session : DebugSession) (strays : List InstalledHook) (thread : Thread) :
    Prop where
  located : ∀ frame ∈ thread, frame.Placed session strays
  stacked : Stacked thread

theorem Valid.placed {session : DebugSession} {thread : Thread} (valid : Valid session thread) :
    Placed session [] thread :=
  ⟨fun frame member => (valid.located frame member).placed, valid.stacked⟩

/-- The thread is in a call through the slot or the trampoline of the hook, or stands in
its trampoline or in the bytes of such a patch. -/
def Uses (session : DebugSession) (strays : List InstalledHook) (hook : InstalledHook)
    (thread : Thread) : Prop :=
  (∃ frame ∈ thread, ∃ other ∈ frame.phase.hook, other.Shares hook) ∨
    (∃ frame ∈ thread, hook.InTrampoline frame.address) ∨
    ∃ frame ∈ thread.head?, ∃ other ∈ hook :: session.known strays,
      other.Shares hook ∧ other.InPatch frame.address

instance (session : DebugSession) (strays : List InstalledHook) (hook : InstalledHook)
    (thread : Thread) : Decidable (Uses session strays hook thread) :=
  inferInstanceAs (Decidable (_ ∨ _ ∨ _))

/-- The thread is in a hooked call or stands in the code of the instrumentation. -/
def Inside (session : DebugSession) (strays : List InstalledHook) (thread : Thread) : Prop :=
  (∃ frame ∈ thread, frame.phase ≠ .outside ∨ session.Held strays frame.address) ∨
    ∃ frame ∈ thread.head?, ∃ hook ∈ session.known strays, hook.InPatch frame.address

instance (session : DebugSession) (strays : List InstalledHook) (thread : Thread) :
    Decidable (Inside session strays thread) :=
  inferInstanceAs (Decidable (_ ∨ _))

section Inside

variable {session : DebugSession} {strays : List InstalledHook} {thread : Thread}

theorem Uses.inside {hook : InstalledHook} (uses : Uses session strays hook thread)
    (installed : hook ∈ session.installedHooks) : Inside session strays thread := by
  rcases uses with ⟨frame, member, other, calling, _⟩ | ⟨frame, member, inTrampoline⟩ |
      ⟨frame, isTop, other, isKnown, _, patched⟩
  · exact Or.inl ⟨frame, member, Or.inl (Phase.ne_outside calling)⟩
  · exact Or.inl ⟨frame, member, Or.inr (Or.inl (Or.inr (Or.inl ⟨hook, installed, inTrampoline⟩)))⟩
  · refine Or.inr ⟨frame, isTop, other, ?_, patched⟩
    rcases List.mem_cons.mp isKnown with rfl | known
    · exact List.mem_append_left _ installed
    · exact known

/-- A hook uses no more than one at the same place with a longer patch. -/
theorem Uses.mono {hook wider : InstalledHook} (uses : Uses session strays hook thread)
    (slot : hook.trampolineSlot = wider.trampolineSlot)
    (trampoline : hook.trampolineAddress = wider.trampolineAddress)
    (patch : ∀ address, hook.InPatch address → wider.InPatch address) :
    Uses session strays wider thread := by
  have shares (other : InstalledHook) (shared : other.Shares hook) : other.Shares wider := by
    rwa [InstalledHook.Shares, ← slot, ← trampoline]
  rcases uses with ⟨frame, member, other, calling, shared⟩ | ⟨frame, member, inTrampoline⟩ |
      ⟨frame, isTop, other, isKnown, shared, patched⟩
  · exact Or.inl ⟨frame, member, other, calling, shares other shared⟩
  · refine Or.inr (Or.inl ⟨frame, member, ?_⟩)
    rwa [InstalledHook.InTrampoline, ← trampoline]
  · rcases List.mem_cons.mp isKnown with rfl | known
    · exact Or.inr (Or.inr ⟨frame, isTop, wider, List.mem_cons_self, Or.inl rfl,
        patch frame.address patched⟩)
    · exact Or.inr (Or.inr ⟨frame, isTop, other, List.mem_cons_of_mem _ known,
        shares other shared, patched⟩)

theorem not_inside_of_outside (placed : Placed session strays thread)
    (outside : ∀ frame ∈ thread, frame.phase = .outside)
    (unpatched : ∀ frame ∈ thread.head?, ∀ hook ∈ session.known strays,
      ¬hook.InPatch frame.address) :
    ¬Inside session strays thread := by
  rintro (⟨frame, member, calling | held⟩ | ⟨frame, isTop, hook, isKnown, patched⟩)
  · exact calling (outside frame member)
  · have located := placed.located frame member
    rw [Frame.Placed, outside frame member] at located
    exact located held
  · exact unpatched frame isTop hook isKnown patched

end Inside

end Thread

/-- The thread uses what is released. -/
def Release.InUse (session : DebugSession) (strays : List InstalledHook) (thread : Thread) :
    Release → Prop
  | .slot hook | .trampoline hook => Thread.Uses session strays hook thread
  | .ring _ => Thread.Inside session strays thread
  | .image base size =>
      Thread.Inside session strays thread ∨
        ∃ frame ∈ thread, base ≤ frame.address ∧ frame.address < base + size

namespace DebugSession

theorem mem_releases_hook {hook : InstalledHook} {release : Release}
    (isRelease : (∃ ok, release ∈ ReleaseUnloadedHook.releases ok hook) ∨
      ∃ ok, release ∈ UnhookFunction.releases ok hook) :
    release = .slot hook ∨ release = .trampoline hook := by
  rcases isRelease with ⟨ok, member⟩ | ⟨ok, member⟩
  · rw [ReleaseUnloadedHook.releases, List.mem_append] at member
    rcases member with cleared | freed
    · exact Or.inl (List.mem_singleton.mp (List.mem_ite_nil_right.mp cleared).2)
    · exact Or.inr (List.mem_singleton.mp (List.mem_ite_nil_right.mp freed).2)
  · have listed := (List.mem_ite_nil_right.mp member).2
    rcases List.mem_cons.mp listed with cleared | freed
    · exact Or.inl cleared
    · exact Or.inr (List.mem_singleton.mp (List.mem_ite_nil_right.mp freed).2)

/-- An unloaded module takes only its own hooks with it. -/
theorem HandleUnloadDll.mem_releases {calls : ModuleEvent.Calls} {base : Nat}
    {hook : InstalledHook} {release : Release} (member : release ∈ releases calls base hook) :
    (hook.targetModuleBase = base ∨ hook.sourceModuleBase = base) ∧
      (release = .slot hook ∨ release = .trampoline hook) := by
  unfold releases at member
  split_ifs at member with target source
  · exact ⟨Or.inl target, mem_releases_hook (Or.inl ⟨_, member⟩)⟩
  · exact ⟨Or.inr source, mem_releases_hook (Or.inr ⟨_, member⟩)⟩
  · cases member

/-- Whatever the cleanup releases is in use only by threads inside the instrumentation. -/
theorem CleanupRemote.inside_of_inUse {calls : CleanupRemote.Calls} {session : DebugSession}
    {strays : List InstalledHook} {release : Release} {thread : Thread}
    (member : release ∈ releases calls session) (inUse : release.InUse session strays thread) :
    Thread.Inside session strays thread := by
  rcases List.mem_append.mp member with unhooked | unmapped
  · obtain ⟨hook, installed, isRelease⟩ := List.mem_flatMap.mp unhooked
    have uses : Thread.Uses session strays hook thread := by
      rcases mem_releases_hook (Or.inr ⟨_, isRelease⟩) with rfl | rfl <;> exact inUse
    exact uses.inside (List.mem_reverse.mp installed)
  · obtain ⟨mapped, ringOrImage⟩ := List.mem_ite_nil_left.mp unmapped
    rcases List.mem_append.mp ringOrImage with ring | image
    · rw [List.mem_singleton.mp (List.mem_ite_nil_right.mp ring).2] at inUse
      exact inUse
    · rw [List.mem_singleton.mp (List.mem_ite_nil_right.mp image).2] at inUse
      rcases inUse with inside | ⟨frame, member, lower, upper⟩
      · exact inside
      · exact Or.inl ⟨frame, member, Or.inr (Or.inl (Or.inl ⟨mapped, lower, upper⟩))⟩

end DebugSession

end ApiScope
