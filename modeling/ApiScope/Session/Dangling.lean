import ApiScope.Session.Attendance

/-!
# Patches that are left behind

The cleanup goes on after a hook it could not take out, forgets it, and frees
the hook image all the same.  It knows nothing of the patches that were left
behind before.  A patch is then left dangling exactly if its bytes were never
written back and the image is really gone, or the hook it belongs to has lost
its slot or its trampoline.
-/

namespace ApiScope

/-- The entry of this function jumps to an address in the hook image. -/
def JumpsInto (memory : Memory) (hookImageBase hookImageSize function : Nat) : Prop :=
  ∃ newAddress, hookImageBase ≤ newAddress ∧ newAddress < hookImageBase + hookImageSize ∧
    memory.read function PATCH_SIZE = jumpCode newAddress

/-- No loaded function jumps into a hook image that is gone, and a function that is still
patched finds all that a call of the original needs. -/
structure NoDanglingPatch (function : Nat → Prop) (hooks : List InstalledHook)
    (hookImageBase hookImageSize : Nat) (target : Target) : Prop where
  handlers : ∀ address, function address →
    JumpsInto target.memory hookImageBase hookImageSize address →
      target.allocations hookImageBase ≠ 0
  originals : ∀ hook ∈ hooks,
    JumpsInto target.memory hookImageBase hookImageSize hook.originalFunction →
      target.memory.read hook.trampolineSlot 8 ≠ pointerBytes 0 ∧
        target.allocations hook.trampolineAddress ≠ 0

/-- Two hooks that share neither code, slot nor trampoline. -/
structure InstalledHook.Separate (hook other : InstalledHook) : Prop where
  spans : hook.SpansApart other
  slots : Memory.Apart hook.trampolineSlot 8 other.trampolineSlot 8
  trampolines : hook.trampolineAddress ≠ other.trampolineAddress

theorem InstalledHook.Separate.symm {hook other : InstalledHook}
    (separate : hook.Separate other) : other.Separate hook :=
  ⟨Memory.Apart.symm separate.spans, separate.slots.symm, separate.trampolines.symm⟩

/-! ## What a cleanup leaves of a hook -/

/-- The calls that write the saved bytes back succeed. -/
def InstalledHook.Restored (unhook : InstalledHook → UnhookFunction.Call → Bool)
    (hook : InstalledHook) : Prop :=
  unhook hook .protect = true ∧ unhook hook .restore = true

instance (unhook : InstalledHook → UnhookFunction.Call → Bool) (hook : InstalledHook) :
    Decidable (hook.Restored unhook) :=
  inferInstanceAs (Decidable (_ ∧ _))

/-- Nothing has happened to the code, the slot and the trampoline of a hook. -/
structure InstalledHook.Untouched (hook : InstalledHook) (target after : Target) : Prop where
  span : after.memory.read hook.originalFunction hook.originalBytes.length =
    target.memory.read hook.originalFunction hook.originalBytes.length
  slot : after.memory.read hook.trampolineSlot 8 = target.memory.read hook.trampolineSlot 8
  trampoline : after.allocations hook.trampolineAddress =
    target.allocations hook.trampolineAddress

theorem InstalledHook.Untouched.refl (hook : InstalledHook) (target : Target) :
    hook.Untouched target target :=
  ⟨rfl, rfl, rfl⟩

theorem InstalledHook.Untouched.trans {hook : InstalledHook} {first middle last : Target}
    (left : hook.Untouched first middle) (right : hook.Untouched middle last) :
    hook.Untouched first last :=
  ⟨right.span.trans left.span, right.slot.trans left.slot,
    right.trampoline.trans left.trampoline⟩

section Cleanup

variable {code image : Nat → Prop} {hook other : InstalledHook} {target after : Target}

/-- Code and slots never share a byte. -/
theorem InstalledHook.Placed.slot_apart (disjoint : ∀ address, code address → ¬image address)
    (placed : hook.Placed code image) (otherPlaced : other.Placed code image) :
    Memory.Apart other.trampolineSlot 8 hook.originalFunction hook.originalBytes.length := by
  have outside : Memory.Outside code other.trampolineSlot 8 :=
    otherPlaced.slot.outside fun address imaged coded => disjoint address coded imaged
  have nonempty : 0 < hook.originalBytes.length :=
    List.length_pos_of_ne_nil placed.valid.2.2.2
  exact (placed.patched.apart outside nonempty (by decide)).symm

theorem InstalledHook.untouched_withOriginal
    (disjoint : ∀ address, code address → ¬image address)
    (placed : hook.Placed code image) (otherPlaced : other.Placed code image)
    (separate : other.Separate hook) (target : Target) :
    other.Untouched target (target.withOriginal hook) where
  span := Target.read_WriteProcessMemory_apart _ _ _ _ separate.spans
  slot := Target.read_WriteProcessMemory_apart _ _ _ _ (placed.slot_apart disjoint otherPlaced)
  trampoline := by simp [Target.withOriginal]

/-- Taking out one hook leaves the others alone. -/
theorem UnhookFunction.Effect.untouched {ok : UnhookFunction.Call → Bool} {removed : Bool}
    (disjoint : ∀ address, code address → ¬image address)
    (effect : UnhookFunction.Effect ok hook target removed after)
    (placed : hook.Placed code image) (otherPlaced : other.Placed code image)
    (separate : other.Separate hook) : other.Untouched target after := by
  have original := InstalledHook.untouched_withOriginal disjoint placed otherPlaced separate target
  cases effect with
  | patchStays => exact .refl other target
  | slotStays => exact original
  | removed =>
      refine original.trans ⟨?_, ?_, ?_⟩
      · rw [Target.VirtualFreeEx_memory]
        refine Target.read_WriteProcessMemory_apart _ _ _ _ ?_
        rw [length_pointerBytes]
        exact (otherPlaced.slot_apart disjoint placed).symm
      · rw [Target.VirtualFreeEx_memory]
        refine Target.read_WriteProcessMemory_apart _ _ _ _ ?_
        rw [length_pointerBytes]
        exact separate.slots
      · rw [Target.allocations_VirtualFreeEx_of_ne _ _ _ separate.trampolines]
        rfl

/-- The only region an unhooked function gives back is its trampoline. -/
theorem UnhookFunction.Effect.allocations {ok : UnhookFunction.Call → Bool} {removed : Bool}
    (effect : UnhookFunction.Effect ok hook target removed after) {base : Nat}
    (distinct : hook.trampolineAddress ≠ base) :
    after.allocations base = target.allocations base := by
  cases effect with
  | patchStays => rfl
  | slotStays => rfl
  | removed =>
      rw [Target.allocations_VirtualFreeEx_of_ne _ _ _ distinct.symm]
      rfl

/-- A hook whose bytes are written back has its function back; any other hook is
left as it is. -/
theorem UnhookFunction.Effect.outcome {ok : UnhookFunction.Call → Bool} {removed : Bool}
    (disjoint : ∀ address, code address → ¬image address)
    (effect : UnhookFunction.Effect ok hook target removed after)
    (placed : hook.Placed code image) :
    (ok .protect = true ∧ ok .restore = true →
        after.memory.read hook.originalFunction hook.originalBytes.length =
          hook.originalBytes) ∧
      (¬(ok .protect = true ∧ ok .restore = true) → hook.Untouched target after) := by
  have original : (target.withOriginal hook).memory.read hook.originalFunction
      hook.originalBytes.length = hook.originalBytes :=
    target.memory.read_write hook.originalFunction hook.originalBytes
  cases effect with
  | patchStays closed =>
      refine ⟨fun restored => ?_, fun _ => .refl hook target⟩
      simp [restored.1, restored.2] at closed
  | slotStays protect restore =>
      exact ⟨fun _ => original, fun unrestored => absurd ⟨protect, restore⟩ unrestored⟩
  | removed protect restore =>
      refine ⟨fun _ => ?_, fun unrestored => absurd ⟨protect, restore⟩ unrestored⟩
      rw [Target.VirtualFreeEx_memory]
      refine (Target.read_WriteProcessMemory_apart _ _ _ _ ?_).trans original
      rw [length_pointerBytes]
      exact (placed.slot_apart disjoint placed).symm

namespace DebugSession.CleanupRemote

variable {unhook : InstalledHook → UnhookFunction.Call → Bool} {hooks : List InstalledHook}

theorem loop_untouched (disjoint : ∀ address, code address → ¬image address)
    (placed : ∀ hook ∈ hooks, hook.Placed code image) (otherPlaced : other.Placed code image)
    (separate : ∀ hook ∈ hooks, other.Separate hook) (process : Target) :
    other.Untouched process (loop unhook hooks process).2 := by
  induction hooks generalizing process with
  | nil => exact .refl other process
  | cons hook rest inductionHypothesis =>
      rw [List.forall_mem_cons] at placed separate
      have first := (UnhookFunction_effect (unhook hook) placed.1.valid process).untouched disjoint
        placed.1 otherPlaced separate.1
      exact first.trans (inductionHypothesis placed.2 separate.2 _)

theorem allocations_loop (valid : ∀ hook ∈ hooks, hook.Valid) {base : Nat}
    (apart : ∀ hook ∈ hooks, hook.trampolineAddress ≠ base) (process : Target) :
    (loop unhook hooks process).2.allocations base = process.allocations base := by
  induction hooks generalizing process with
  | nil => rfl
  | cons hook rest inductionHypothesis =>
      rw [List.forall_mem_cons] at valid apart
      have effect := UnhookFunction_effect (unhook hook) valid.1 process
      exact (inductionHypothesis valid.2 apart.2 _).trans (effect.allocations apart.1)

theorem loop_outcome (disjoint : ∀ address, code address → ¬image address)
    (placed : ∀ hook ∈ hooks, hook.Placed code image)
    (separate : hooks.Pairwise InstalledHook.Separate) (process : Target) :
    ∀ hook ∈ hooks,
      (hook.Restored unhook →
        (loop unhook hooks process).2.memory.read hook.originalFunction
          hook.originalBytes.length = hook.originalBytes) ∧
      (¬hook.Restored unhook → hook.Untouched process (loop unhook hooks process).2) := by
  induction hooks generalizing process with
  | nil => simp
  | cons first rest inductionHypothesis =>
      rw [List.forall_mem_cons] at placed
      rw [List.pairwise_cons] at separate
      have effect := UnhookFunction_effect (unhook first) placed.1.valid process
      intro hook member
      rcases List.mem_cons.mp member with rfl | behind
      · obtain ⟨restores, stays⟩ := effect.outcome disjoint placed.1
        have others := @loop_untouched _ _ _ unhook _ disjoint placed.2 placed.1 separate.1
          (UnhookFunction (unhook hook) hook process).2
        exact ⟨fun restored => others.span.trans (restores restored),
          fun unrestored => (stays unrestored).trans others⟩
      · obtain ⟨restores, stays⟩ := inductionHypothesis placed.2 separate.2
          (UnhookFunction (unhook first) first process).2 hook behind
        refine ⟨restores, fun unrestored => ?_⟩
        have untouched := effect.untouched disjoint placed.1 (placed.2 hook behind)
          (separate.1 hook behind).symm
        exact untouched.trans (stays unrestored)

end DebugSession.CleanupRemote

end Cleanup

/-! ## What a cleanup does to hooks it does not know -/

/-- Taking out this hook clears its slot. -/
def InstalledHook.Cleared (unhook : InstalledHook → UnhookFunction.Call → Bool)
    (hook : InstalledHook) : Prop :=
  hook.Restored unhook ∧ unhook hook .reprotect = true ∧ unhook hook .flush = true ∧
    unhook hook .clearSlot = true

/-- Taking out this hook frees its trampoline. -/
def InstalledHook.Freed (unhook : InstalledHook → UnhookFunction.Call → Bool)
    (hook : InstalledHook) : Prop :=
  hook.Cleared unhook ∧ unhook hook .free = true

instance (unhook : InstalledHook → UnhookFunction.Call → Bool) (hook : InstalledHook) :
    Decidable (hook.Cleared unhook) :=
  inferInstanceAs (Decidable (_ ∧ _ ∧ _ ∧ _))

instance (unhook : InstalledHook → UnhookFunction.Call → Bool) (hook : InstalledHook) :
    Decidable (hook.Freed unhook) :=
  inferInstanceAs (Decidable (_ ∧ _))

/-- A hook that was left has its slot and its trampoline, and no hook that is taken out
shares them. -/
structure InstalledHook.Served (stray : InstalledHook) (hooks : List InstalledHook)
    (unhook : InstalledHook → UnhookFunction.Call → Bool) (target : Target) : Prop where
  slot : target.memory.read stray.trampolineSlot 8 ≠ pointerBytes 0 ∧
    ∀ hook ∈ hooks, hook.trampolineSlot = stray.trampolineSlot → ¬hook.Cleared unhook
  trampoline : target.allocations stray.trampolineAddress ≠ 0 ∧
    ∀ hook ∈ hooks, hook.trampolineAddress = stray.trampolineAddress → ¬hook.Freed unhook

section Strays

variable {unhook : InstalledHook → UnhookFunction.Call → Bool} {hook stray : InstalledHook}
  {hooks : List InstalledHook} {target after : Target} {removed : Bool}

theorem UnhookFunction.Effect.slot_iff
    (effect : UnhookFunction.Effect (unhook hook) hook target removed after)
    (spanApart : Memory.Apart stray.trampolineSlot 8 hook.originalFunction
      hook.originalBytes.length)
    (shared : stray.trampolineSlot = hook.trampolineSlot ∨
      Memory.Apart stray.trampolineSlot 8 hook.trampolineSlot 8) :
    after.memory.read stray.trampolineSlot 8 ≠ pointerBytes 0 ↔
      target.memory.read stray.trampolineSlot 8 ≠ pointerBytes 0 ∧
        (hook.trampolineSlot = stray.trampolineSlot → ¬hook.Cleared unhook) := by
  have original : (target.withOriginal hook).memory.read stray.trampolineSlot 8 =
      target.memory.read stray.trampolineSlot 8 :=
    Target.read_WriteProcessMemory_apart _ _ _ _ spanApart
  cases effect with
  | patchStays closed =>
      refine (and_iff_left fun _ cleared => ?_).symm
      simp [cleared.1.1, cleared.1.2] at closed
  | slotStays _ _ unfinished =>
      rw [original]
      refine (and_iff_left fun _ cleared => ?_).symm
      simp [cleared.2.1, cleared.2.2.1, cleared.2.2.2] at unfinished
  | removed protect restore finished =>
      rw [Bool.and_eq_true, Bool.and_eq_true] at finished
      have cleared : hook.Cleared unhook :=
        ⟨⟨protect, restore⟩, finished.1.1, finished.1.2, finished.2⟩
      rw [Target.VirtualFreeEx_memory, Target.withoutHook]
      rcases shared with same | apart
      · have written := (target.withOriginal hook).memory.read_write hook.trampolineSlot
          (pointerBytes 0)
        rw [length_pointerBytes] at written
        rw [same]
        exact iff_of_false (fun nonnull => nonnull written) fun both => both.2 rfl cleared
      · rw [Target.read_WriteProcessMemory_apart _ _ _ _ (by rw [length_pointerBytes]; exact apart),
          original]
        refine (and_iff_left fun same => ?_).symm
        unfold Memory.Apart at apart
        omega

theorem UnhookFunction.Effect.allocations_iff
    (effect : UnhookFunction.Effect (unhook hook) hook target removed after) (base : Nat) :
    after.allocations base ≠ 0 ↔
      target.allocations base ≠ 0 ∧ (hook.trampolineAddress = base → ¬hook.Freed unhook) := by
  cases effect with
  | patchStays closed =>
      refine (and_iff_left fun _ freed => ?_).symm
      simp [freed.1.1.1, freed.1.1.2] at closed
  | slotStays _ _ unfinished =>
      refine (and_iff_left fun _ freed => ?_).symm
      simp [freed.1.2.1, freed.1.2.2.1, freed.1.2.2.2] at unfinished
  | removed protect restore finished =>
      rw [Bool.and_eq_true, Bool.and_eq_true] at finished
      have cleared : hook.Cleared unhook :=
        ⟨⟨protect, restore⟩, finished.1.1, finished.1.2, finished.2⟩
      by_cases other : base = hook.trampolineAddress
      · subst other
        cases free : unhook hook .free with
        | false => simp [Target.VirtualFreeEx, Target.withoutHook, Target.withOriginal,
            InstalledHook.Freed, free]
        | true => simp [Target.VirtualFreeEx, InstalledHook.Freed, cleared, free]
      · rw [Target.allocations_VirtualFreeEx_of_ne _ _ _ other]
        exact (and_iff_left fun same => absurd same.symm other).symm

namespace DebugSession.CleanupRemote

/-- A slot is still set exactly if it was and nobody who shares it is taken out. -/
theorem loop_slot_iff (valid : ∀ hook ∈ hooks, hook.Valid)
    (spanApart : ∀ hook ∈ hooks, Memory.Apart stray.trampolineSlot 8 hook.originalFunction
      hook.originalBytes.length)
    (shared : ∀ hook ∈ hooks, stray.trampolineSlot = hook.trampolineSlot ∨
      Memory.Apart stray.trampolineSlot 8 hook.trampolineSlot 8) (process : Target) :
    (loop unhook hooks process).2.memory.read stray.trampolineSlot 8 ≠ pointerBytes 0 ↔
      process.memory.read stray.trampolineSlot 8 ≠ pointerBytes 0 ∧
        ∀ hook ∈ hooks, hook.trampolineSlot = stray.trampolineSlot → ¬hook.Cleared unhook := by
  induction hooks generalizing process with
  | nil => simp [loop]
  | cons hook rest inductionHypothesis =>
      rw [List.forall_mem_cons] at valid spanApart shared
      have effect := UnhookFunction_effect (unhook hook) valid.1 process
      have first := effect.slot_iff spanApart.1 shared.1
      have others := inductionHypothesis valid.2 spanApart.2 shared.2
        (UnhookFunction (unhook hook) hook process).2
      rw [List.forall_mem_cons, ← and_assoc, ← first]
      exact others

theorem loop_allocations_iff (valid : ∀ hook ∈ hooks, hook.Valid) (base : Nat)
    (process : Target) :
    (loop unhook hooks process).2.allocations base ≠ 0 ↔
      process.allocations base ≠ 0 ∧
        ∀ hook ∈ hooks, hook.trampolineAddress = base → ¬hook.Freed unhook := by
  induction hooks generalizing process with
  | nil => simp [loop]
  | cons hook rest inductionHypothesis =>
      rw [List.forall_mem_cons] at valid
      have effect := UnhookFunction_effect (unhook hook) valid.1 process
      have first := effect.allocations_iff base
      have others := inductionHypothesis valid.2 (UnhookFunction (unhook hook) hook process).2
      rw [List.forall_mem_cons, ← and_assoc, ← first]
      exact others

/-- Bytes apart from the slots and the functions of the hooks are what they were. -/
theorem loop_read (valid : ∀ hook ∈ hooks, hook.Valid) {address count : Nat}
    (slots : ∀ hook ∈ hooks, Memory.Apart address count hook.trampolineSlot 8)
    (spans : ∀ hook ∈ hooks, Memory.Apart address count hook.originalFunction
      hook.originalBytes.length) (process : Target) :
    (loop unhook hooks process).2.memory.read address count =
      process.memory.read address count := by
  induction hooks generalizing process with
  | nil => rfl
  | cons hook rest inductionHypothesis =>
      rw [List.forall_mem_cons] at valid slots spans
      have effect := UnhookFunction_effect (unhook hook) valid.1 process
      exact (inductionHypothesis valid.2 slots.2 spans.2 _).trans
        (effect.read_apart slots.1 fun _ _ => spans.1)

end DebugSession.CleanupRemote

end Strays

/-- The null pointers that disconnect the transport miss the code and the slots. -/
theorem TraceSession.untouched_clearExports {code image : Nat → Prop}
    (disjoint : ∀ address, code address → ¬image address) {hook : InstalledHook}
    (placed : hook.Placed code image) {hookImageBase : Nat} {process : Target}
    (exports : ∀ exportName ∈ transportExports, ∀ remoteExport,
      process.GetRemoteExport hookImageBase (narrow exportName) = some remoteExport →
        Memory.Within image remoteExport.address 8 ∧
          Memory.Apart hook.trampolineSlot 8 remoteExport.address 8)
    (ok : TraceSession.CleanupRemote.Call → Bool) :
    hook.Untouched process (clearExports ok hookImageBase process).2 := by
  refine (@clearExports_induction
    (fun after => after.images = process.images ∧ hook.Untouched process after)
    hookImageBase ?_ process ⟨rfl, .refl hook process⟩ ok).2
  rintro succeeds exportName member after ⟨images, untouched⟩
  refine ⟨(images_WriteRemoteExport _ _ _ _ _).trans images, untouched.trans ?_⟩
  unfold WriteRemoteExport
  cases found : after.GetRemoteExport hookImageBase (narrow exportName) with
  | none => exact .refl hook after
  | some remoteExport =>
      have sameFound : process.GetRemoteExport hookImageBase (narrow exportName) =
          some remoteExport := by
        rw [Target.GetRemoteExport, ← images]
        exact found
      obtain ⟨imaged, apart⟩ := exports exportName member remoteExport sameFound
      have outside : Memory.Outside code remoteExport.address 8 :=
        imaged.outside fun address inImage inCode => disjoint address inCode inImage
      have nonempty : 0 < hook.originalBytes.length :=
        List.length_pos_of_ne_nil placed.valid.2.2.2
      dsimp only
      split_ifs
      · exact .refl hook after
      · refine ⟨?_, ?_, by simp⟩
        · refine Target.read_WriteProcessMemory_apart _ _ _ _ ?_
          rw [length_pointerBytes]
          exact placed.patched.apart outside nonempty (by decide)
        · refine Target.read_WriteProcessMemory_apart _ _ _ _ ?_
          rw [length_pointerBytes]
          exact apart

/-! ## After the cleanup -/

theorem JumpsInto.of_read {memory memory' : Memory} {hookImageBase hookImageSize function : Nat}
    (same : memory'.read function PATCH_SIZE = memory.read function PATCH_SIZE)
    (jumps : JumpsInto memory hookImageBase hookImageSize function) :
    JumpsInto memory' hookImageBase hookImageSize function := by
  obtain ⟨newAddress, lower, upper, code⟩ := jumps
  exact ⟨newAddress, lower, upper, same.trans code⟩

namespace DebugSession

/-- Where the hooks of a session lie within its hook image, and which functions they are on. -/
structure Housed (session : DebugSession) (strays : List InstalledHook) (function : Nat → Prop)
    (code : Nat → Prop) (initial : Target) (pristine : Memory) : Prop where
  handlers : ∀ exportName remoteExport,
    initial.GetRemoteExport session.hookImageBase exportName = some remoteExport →
      session.hookImageBase ≤ remoteExport.address ∧
        remoteExport.address < session.hookImageBase + session.hookImageSize
  transport : ∀ hook ∈ standing session.installedHooks strays,
    ∀ exportName ∈ TraceSession.transportExports, ∀ remoteExport,
      initial.GetRemoteExport session.hookImageBase (narrow exportName) = some remoteExport →
        Memory.Apart hook.trampolineSlot 8 remoteExport.address 8
  ring : session.traceSession.remoteRing ≠ 0 →
    initial.allocations session.traceSession.remoteRing ≠ 0 ∧
      session.traceSession.remoteRing ≠ session.hookImageBase
  functions : ∀ address, function address → Memory.Within code address PATCH_SIZE ∧
    ¬JumpsInto pristine session.hookImageBase session.hookImageSize address
  hooked : ∀ hook ∈ standing session.installedHooks strays, function hook.originalFunction

section Detached

variable {decode : Decoder} {function code image : Nat → Prop} {initial : Target}
  {pristine : Memory} {session : DebugSession} {strays : List InstalledHook} {hook : InstalledHook}

/-- A patch that stands jumps into the image. -/
theorem Housed.jumps (housed : session.Housed strays function code initial pristine)
    {memory : Memory}
    (stands : hook.Stands session.hookImageBase code image initial pristine memory) :
    JumpsInto memory session.hookImageBase session.hookImageSize hook.originalFunction := by
  obtain ⟨exportName, handlerExport, found, patched⟩ := stands.patch
  obtain ⟨lower, upper⟩ := housed.handlers exportName handlerExport found
  refine ⟨handlerExport.address, lower, upper, ?_⟩
  obtain ⟨more, length⟩ := Nat.exists_eq_add_of_le stands.long
  rw [patchCode_eq stands.long, length, Memory.read_add] at patched
  exact (List.append_inj patched (by simp)).1

/-- A function whose code is pristine does not jump into the image. -/
theorem Housed.not_jumps (housed : session.Housed strays function code initial pristine)
    {address : Nat} (isFunction : function address) {memory : Memory}
    (agree : Memory.AgreeOn code memory pristine) :
    ¬JumpsInto memory session.hookImageBase session.hookImageSize address := by
  obtain ⟨coded, unhooked⟩ := housed.functions address isFunction
  exact fun jumps => unhooked (jumps.of_read (agree.read coded).symm)

/-- A region that neither the trace session nor a hook holds stays allocated until
the image is freed. -/
theorem allocations_disconnected (equipped : session.Equipped image initial)
    (housed : session.Housed strays function code initial pristine) (calls : CleanupRemote.Calls)
    {base : Nat} (nonzero : base ≠ 0)
    (fresh : initial.allocations base ≠ 0 → base = session.hookImageBase) :
    (session.disconnected calls).2.2.allocations base =
      (session.unhooked calls).2.allocations base := by
  have bypass : ∀ bypass ∈ session.bypasses, bypass.address ≠ base := by
    rintro bypass member rfl
    obtain ⟨held, notImage⟩ := equipped.bypasses bypass member nonzero
    exact notImage (fresh held)
  refine TraceSession.allocations_CleanupRemote _ _ ?_ (bypass _ (by simp [bypasses]))
    (bypass _ (by simp [bypasses])) _
  rintro rfl
  obtain ⟨held, notImage⟩ := housed.ring nonzero
  exact notImage (fresh held)

theorem memory_CleanupRemote (equipped : session.Equipped image initial)
    (calls : CleanupRemote.Calls) :
    (session.CleanupRemote calls).2.process.memory =
      (TraceSession.clearExports calls.transport session.hookImageBase
        (session.unhooked calls).2).2.memory := by
  rw [(CleanupRemote_of_mapped equipped.mapped calls).2, Target.VirtualFreeEx_memory]
  exact TraceSession.memory_CleanupRemote _ _ _ _

/-- Where the null pointers go that disconnect the transport. -/
theorem Equipped.transport (equipped : session.Equipped image initial)
    (images : session.process.images session.hookImageBase =
      initial.images session.hookImageBase) (calls : CleanupRemote.Calls) :
    ∀ exportName ∈ TraceSession.transportExports, ∀ remoteExport,
      (session.unhooked calls).2.GetRemoteExport session.hookImageBase (narrow exportName) =
          some remoteExport →
        initial.GetRemoteExport session.hookImageBase (narrow exportName) = some remoteExport ∧
          Memory.Within image remoteExport.address 8 := by
  intro exportName isExport remoteExport found
  have same : initial.GetRemoteExport session.hookImageBase (narrow exportName) =
      some remoteExport := by
    rw [← found, Target.GetRemoteExport, Target.GetRemoteExport, ← images]
    exact congrArg (fun images : Nat → Option ExportTable =>
      (images session.hookImageBase).bind _) (CleanupRemote.images_loop _ _).symm
  obtain ⟨other, _, imaged, isOther⟩ := equipped.exports exportName isExport
  cases same.symm.trans isOther
  exact ⟨same, imaged⟩

/-- Once the hooks are out, the cleanup leaves the code alone. -/
theorem agreeOn_CleanupRemote (disjoint : ∀ address, code address → ¬image address)
    (equipped : session.Equipped image initial)
    (images : session.process.images session.hookImageBase =
      initial.images session.hookImageBase) (calls : CleanupRemote.Calls) :
    Memory.AgreeOn code (session.CleanupRemote calls).2.process.memory
      (session.unhooked calls).2.memory := by
  rw [memory_CleanupRemote equipped calls]
  exact agreeOn_clearExports disjoint (fun exportName isExport remoteExport found =>
    (equipped.transport images calls exportName isExport remoteExport found).2) calls.transport

/-- Once the hooks are out, the cleanup leaves their code, slots and trampolines alone. -/
theorem untouched_CleanupRemote (disjoint : ∀ address, code address → ¬image address)
    (stands : Standing session.hookImageBase code image initial pristine session.installedHooks
      strays session.process)
    (equipped : session.Equipped image initial)
    (housed : session.Housed strays function code initial pristine)
    (calls : CleanupRemote.Calls) (member : hook ∈ standing session.installedHooks strays) :
    hook.Untouched (session.unhooked calls).2 (session.CleanupRemote calls).2.process := by
  have placed := (stands.stands hook member).placed
  have notHeld : ∀ base, initial.allocations base ≠ 0 → hook.trampolineAddress ≠ base :=
    fun base held => (stands.held base held).2 hook member
  have cleared := TraceSession.untouched_clearExports disjoint placed
    (fun exportName isExport remoteExport found => by
      obtain ⟨same, imaged⟩ := equipped.transport stands.images calls exportName isExport
        remoteExport found
      exact ⟨imaged, housed.transport hook member exportName isExport remoteExport same⟩)
    calls.transport
  refine ⟨?_, ?_, ?_⟩
  · rw [memory_CleanupRemote equipped calls]
    exact cleared.span
  · rw [memory_CleanupRemote equipped calls]
    exact cleared.slot
  · rw [(CleanupRemote_of_mapped equipped.mapped calls).2,
      Target.allocations_VirtualFreeEx_of_ne _ _ _ (notHeld _ equipped.allocated)]
    exact allocations_disconnected equipped housed calls placed.valid.2.1
      fun held => absurd rfl (notHeld _ held)

/-- The image itself is only released by the last call. -/
theorem allocations_CleanupRemote
    (stands : Standing session.hookImageBase code image initial pristine session.installedHooks
      strays session.process)
    (equipped : session.Equipped image initial)
    (housed : session.Housed strays function code initial pristine)
    (calls : CleanupRemote.Calls) :
    (session.CleanupRemote calls).2.process.allocations session.hookImageBase ≠ 0 ↔
      calls.freeImage = false := by
  obtain ⟨held, apart⟩ := stands.held _ equipped.allocated
  have inBooks : ∀ hook ∈ session.installedHooks.reverse,
      hook ∈ standing session.installedHooks strays := fun hook member =>
    mem_standing.mpr (Or.inl (List.mem_reverse.mp member))
  have unhooked : (session.unhooked calls).2.allocations session.hookImageBase =
      session.process.allocations session.hookImageBase :=
    CleanupRemote.allocations_loop
      (fun hook member => (stands.stands hook (inBooks hook member)).placed.valid)
      (fun hook member => apart hook (inBooks hook member)) _
  have disconnected := allocations_disconnected equipped housed calls equipped.mapped fun _ => rfl
  rw [(CleanupRemote_of_mapped equipped.mapped calls).2]
  cases calls.freeImage with
  | false =>
      refine iff_of_true ?_ rfl
      have kept : (session.disconnected calls).2.2.allocations session.hookImageBase ≠ 0 := by
        rw [disconnected, unhooked]
        exact held
      exact kept
  | true => simp [Target.VirtualFreeEx]

/-- The hooks in the books share nothing with each other. -/
theorem Standing.separate
    (stands : Standing session.hookImageBase code image initial pristine session.installedHooks
      strays session.process) :
    session.installedHooks.reverse.Pairwise InstalledHook.Separate := by
  have distinct : session.installedHooks.Nodup := List.Nodup.of_map _ stands.trampolines
  refine List.Nodup.pairwise_of_forall_ne (List.nodup_reverse.mpr distinct) ?_
  intro hook member other member' different
  rw [List.mem_reverse] at member member'
  exact
    { spans := stands.spans hook (mem_standing.mpr (Or.inl member)) other
        (mem_standing.mpr (Or.inl member')) different
      slots := stands.slots hook member other member' different
      trampolines := fun same =>
        different (List.inj_on_of_nodup_map stands.trampolines member member' same) }

/-- Every hook in the books is either out or as it was before the cleanup. -/
theorem outcome_CleanupRemote (disjoint : ∀ address, code address → ¬image address)
    (stands : Standing session.hookImageBase code image initial pristine session.installedHooks
      strays session.process)
    (equipped : session.Equipped image initial)
    (housed : session.Housed strays function code initial pristine)
    (calls : CleanupRemote.Calls) (member : hook ∈ session.installedHooks) :
    (hook.Restored calls.unhook →
        (session.CleanupRemote calls).2.process.memory.read hook.originalFunction
          hook.originalBytes.length = hook.originalBytes) ∧
      (¬hook.Restored calls.unhook →
        hook.Untouched session.process (session.CleanupRemote calls).2.process) := by
  obtain ⟨restores, stays⟩ := CleanupRemote.loop_outcome disjoint
    (fun other inside => (stands.stood (List.mem_reverse.mp inside)).placed)
    (Standing.separate stands) session.process hook (List.mem_reverse.mpr member)
  have untouched := untouched_CleanupRemote disjoint stands equipped housed calls
    (mem_standing.mpr (Or.inl member))
  exact ⟨fun restored => untouched.span.trans (restores restored),
    fun unrestored => (stays unrestored).trans untouched⟩

/-- A hook that was left stands where it stood, and is served exactly if it was and nobody
takes away what it needs. -/
theorem stray_CleanupRemote (disjoint : ∀ address, code address → ¬image address)
    (stands : Standing session.hookImageBase code image initial pristine session.installedHooks
      strays session.process)
    (equipped : session.Equipped image initial)
    (housed : session.Housed strays function code initial pristine)
    (calls : CleanupRemote.Calls) {stray : InstalledHook} (left : stray ∈ strays)
    (patched : stray.originalBytes ≠ []) :
    stray.Stands session.hookImageBase code image initial pristine
        (session.CleanupRemote calls).2.process.memory ∧
      ((session.CleanupRemote calls).2.process.memory.read stray.trampolineSlot 8 ≠
            pointerBytes 0 ∧
          (session.CleanupRemote calls).2.process.allocations stray.trampolineAddress ≠ 0 ↔
        stray.Served session.installedHooks calls.unhook session.process) := by
  have member : stray ∈ standing session.installedHooks strays :=
    mem_standing.mpr (Or.inr ⟨left, patched⟩)
  have stood := stands.stands stray member
  have valid : ∀ hook ∈ session.installedHooks.reverse, hook.Valid := fun hook inside =>
    (stands.stood (List.mem_reverse.mp inside)).placed.valid
  have slotOutside : Memory.Outside code stray.trampolineSlot 8 :=
    stood.placed.slot.outside fun address imaged coded => disjoint address coded imaged
  have untouched := untouched_CleanupRemote disjoint stands equipped housed calls member
  have span : (session.unhooked calls).2.memory.read stray.originalFunction
      stray.originalBytes.length =
        session.process.memory.read stray.originalFunction stray.originalBytes.length := by
    refine CleanupRemote.loop_read valid (fun hook inside => ?_) (fun hook inside => ?_) _
    · exact stood.placed.patched.apart (stands.slot_outside disjoint (List.mem_reverse.mp inside))
        stood.nonempty (by decide)
    · rw [List.mem_reverse] at inside
      refine stands.spans stray member hook (mem_standing.mpr (Or.inl inside)) ?_
      rintro rfl
      exact stands.forgotten stray left patched inside
  have slot := @CleanupRemote.loop_slot_iff calls.unhook _ _ valid
    (fun hook inside => ((stands.stood (List.mem_reverse.mp inside)).placed.patched.apart
      slotOutside (stands.stood (List.mem_reverse.mp inside)).nonempty (by decide)).symm)
    (fun hook inside => stands.shared stray left patched hook (List.mem_reverse.mp inside))
    session.process
  have trampoline := @CleanupRemote.loop_allocations_iff calls.unhook _ valid
    stray.trampolineAddress session.process
  simp only [List.mem_reverse] at slot trampoline
  refine ⟨stood.of_reads rfl (untouched.span.trans span), ?_⟩
  rw [untouched.slot, untouched.trampoline]
  exact (and_congr slot trampoline).trans
    ⟨fun ⟨slot, trampoline⟩ => ⟨slot, trampoline⟩, fun ⟨slot, trampoline⟩ => ⟨slot, trampoline⟩⟩

/-- Where no patch was left and every hook is taken out, the code is pristine again. -/
theorem restored_CleanupRemote (disjoint : ∀ address, code address → ¬image address)
    (stands : Standing session.hookImageBase code image initial pristine session.installedHooks
      strays session.process)
    (equipped : session.Equipped image initial)
    (housed : session.Housed strays function code initial pristine)
    {calls : CleanupRemote.Calls} (nothing : ∀ stray ∈ strays, stray.originalBytes = [])
    (restored : ∀ hook ∈ session.installedHooks, hook.Restored calls.unhook) :
    Memory.AgreeOn code (session.CleanupRemote calls).2.process.memory pristine := by
  intro address coded
  by_cases covered : ∃ hook ∈ session.installedHooks, hook.Covers address
  · obtain ⟨hook, member, lower, upper⟩ := covered
    have back := (outcome_CleanupRemote disjoint stands equipped housed calls member).1
      (restored hook member)
    exact Memory.eq_of_read (back.trans (stands.stood member).saved) lower upper
  · push Not at covered
    have single : Memory.Within code address 1 := fun target lower upper => by
      rwa [show target = address by omega]
    have unhooked : (session.unhooked calls).2.memory.read address 1 =
        session.process.memory.read address 1 := by
      refine CleanupRemote.loop_read (fun hook inside => ?_) (fun hook inside => ?_)
        (fun hook inside => ?_) _
      · exact (stands.stood (List.mem_reverse.mp inside)).placed.valid
      · exact single.apart (stands.slot_outside disjoint (List.mem_reverse.mp inside)) (by decide)
          (by decide)
      · exact InstalledHook.apart_of_not_covers (covered hook (List.mem_reverse.mp inside))
    have same := agreeOn_CleanupRemote disjoint equipped stands.images calls address coded
    rw [same, Memory.eq_of_read unhooked (Nat.le_refl _) (by omega)]
    refine stands.unpatched address coded fun hook member => ?_
    rcases mem_standing.mp member with inside | ⟨left, patched⟩
    · exact covered hook inside
    · exact absurd (nothing hook left) patched

theorem pointerBytes_ne_zero {pointer : Nat} (nonnull : pointer ≠ 0)
    (addressable : pointer < 2 ^ 64) : pointerBytes pointer ≠ pointerBytes 0 := by
  intro same
  have values := congrArg Bytes.ofLittleEndian same
  rw [pointerBytes, pointerBytes, Bytes.ofLittleEndian_littleEndian,
    Bytes.ofLittleEndian_littleEndian] at values
  omega

/-- Where no function is patched any more, no patch dangles. -/
theorem noDanglingPatch_of_agree {calls : CleanupRemote.Calls}
    (housed : session.Housed strays function code initial pristine)
    (agree : Memory.AgreeOn code (session.CleanupRemote calls).2.process.memory pristine) :
    NoDanglingPatch function (standing session.installedHooks strays) session.hookImageBase
      session.hookImageSize (session.CleanupRemote calls).2.process where
  handlers := fun _ isFunction jumps => absurd jumps (housed.not_jumps isFunction agree)
  originals := fun hook member jumps =>
    absurd jumps (housed.not_jumps (housed.hooked hook member) agree)

/-- The image stays and every patch that was left behind is still served, or nothing was left
behind and every hook is restored. -/
def LeavesNoPatch (calls : CleanupRemote.Calls) (session : DebugSession)
    (strays : List InstalledHook) : Prop :=
  (calls.freeImage = false ∧ ∀ stray ∈ strays, stray.originalBytes ≠ [] →
      stray.Served session.installedHooks calls.unhook session.process) ∨
    ((∀ stray ∈ strays, stray.originalBytes = []) ∧
      ∀ hook ∈ session.installedHooks, hook.Restored calls.unhook)

theorem noDanglingPatch_of_history {calls : CleanupRemote.Calls} (within : DecodesWithin decode)
    (disjoint : ∀ address, code address → ¬image address)
    (equipped : session.Equipped image initial)
    (history : History decode session.hookImageBase code image initial pristine
      session.installedHooks strays session.process)
    (housed : session.Housed strays function code initial pristine) :
    NoDanglingPatch function (standing session.installedHooks strays) session.hookImageBase
        session.hookImageSize (session.CleanupRemote calls).2.process ↔
      LeavesNoPatch calls session strays := by
  have stands := history.standing within disjoint
  have image := allocations_CleanupRemote stands equipped housed calls
  constructor
  · intro safe
    by_cases kept : calls.freeImage = false
    · refine Or.inl ⟨kept, fun stray left patched => ?_⟩
      obtain ⟨stood, served⟩ := stray_CleanupRemote disjoint stands equipped housed calls left
        patched
      exact served.mp (safe.originals stray (mem_standing.mpr (Or.inr ⟨left, patched⟩))
        (housed.jumps stood))
    · have unhooked : ∀ hook ∈ standing session.installedHooks strays,
          ¬JumpsInto (session.CleanupRemote calls).2.process.memory session.hookImageBase
            session.hookImageSize hook.originalFunction := fun hook member jumps =>
        kept (image.mp (safe.handlers _ (housed.hooked hook member) jumps))
      refine Or.inr ⟨fun stray left => ?_, fun hook member => ?_⟩
      · by_contra patched
        have stood := (stray_CleanupRemote disjoint stands equipped housed calls left patched).1
        exact unhooked stray (mem_standing.mpr (Or.inr ⟨left, patched⟩)) (housed.jumps stood)
      · by_contra unrestored
        have untouched := (outcome_CleanupRemote disjoint stands equipped housed calls
          member).2 unrestored
        have stood := (stands.stood member).of_reads rfl untouched.span
        exact unhooked hook (mem_standing.mpr (Or.inl member)) (housed.jumps stood)
  · rintro (⟨kept, served⟩ | ⟨nothing, restored⟩)
    · refine ⟨fun _ _ _ => image.mpr kept, fun hook member jumps => ?_⟩
      rcases mem_standing.mp member with inside | ⟨left, patched⟩
      · have outcome := outcome_CleanupRemote disjoint stands equipped housed calls inside
        have stood := stands.stood inside
        by_cases isRestored : hook.Restored calls.unhook
        · have entry := Memory.read_mono stood.long ((outcome.1 isRestored).trans stood.saved)
          exact absurd (jumps.of_read entry.symm)
            (housed.functions _ (housed.hooked hook member)).2
        · have untouched := outcome.2 isRestored
          rw [untouched.slot, untouched.trampoline, stands.slot hook inside]
          exact ⟨pointerBytes_ne_zero stood.placed.valid.2.1 (stands.addressable hook inside),
            stands.allocated hook inside⟩
      · exact (stray_CleanupRemote disjoint stands equipped housed calls left patched).2.mpr
          (served hook left patched)
    · exact noDanglingPatch_of_agree housed (restored_CleanupRemote disjoint stands equipped
        housed nothing restored)

/-- What a cleanup does about the hooks it takes out, wherever they were installed on each
other, and what is exact where no patch was put on another one. -/
theorem noDanglingPatch_iff {calls : CleanupRemote.Calls} (within : DecodesWithin decode)
    (disjoint : ∀ address, code address → ¬image address)
    (equipped : session.Equipped image initial) :
    (History decode session.hookImageBase code image initial pristine session.installedHooks
        strays session.process →
      session.Housed strays function code initial pristine →
      (NoDanglingPatch function (standing session.installedHooks strays) session.hookImageBase
          session.hookImageSize (session.CleanupRemote calls).2.process ↔
        (calls.freeImage = false ∧ ∀ stray ∈ strays, stray.originalBytes ≠ [] →
          stray.Served session.installedHooks calls.unhook session.process) ∨
        ((∀ stray ∈ strays, stray.originalBytes = []) ∧
          ∀ hook ∈ session.installedHooks, hook.Restored calls.unhook))) ∧
    (Installs decode session.hookImageBase code image initial session.installedHooks
        session.process →
      session.Housed [] function code initial initial.memory →
      (∀ hook ∈ session.installedHooks, hook.Restored calls.unhook) →
      NoDanglingPatch function session.installedHooks session.hookImageBase session.hookImageSize
        (session.CleanupRemote calls).2.process) := by
  refine ⟨fun history housed => ?_, fun installs housed restored => ?_⟩
  · exact noDanglingPatch_of_history within disjoint equipped history housed
  · have agree : Memory.AgreeOn code (session.unhooked calls).2.memory initial.memory :=
      installs.restores within disjoint restored (.refl code _)
    have safe := noDanglingPatch_of_agree housed ((agreeOn_CleanupRemote disjoint equipped
      (congrFun installs.images _) calls).trans agree)
    rwa [standing, List.filter_nil, List.append_nil] at safe

/-- The hooks of a session that has come this far on its own have such a history. -/
theorem noDanglingPatch_of_path {options : CommandLineOptions} {labels : List SessionLabel}
    {first last : Tracked} {calls : CleanupRemote.Calls} (within : DecodesWithin decode)
    (disjoint : ∀ address, code address → ¬image address)
    (mapped : first.session.hookImageBase ≠ 0)
    (configured : first.session.transportConfigured = true)
    (unhooked : first.session.installedHooks = []) (nothing : first.strays = [])
    (path : ((tracked decode options).restrict (Attended decode code image)).Path first labels
      last)
    (equipped : last.session.Equipped image first.session.process)
    (housed : ∀ pristine, History decode last.session.hookImageBase code image
      first.session.process pristine last.session.installedHooks last.strays
        last.session.process →
      last.session.Housed last.strays function code first.session.process pristine) :
    NoDanglingPatch function (standing last.session.installedHooks last.strays)
        last.session.hookImageBase last.session.hookImageSize
        (last.session.CleanupRemote calls).2.process ↔
      LeavesNoPatch calls last.session last.strays := by
  obtain ⟨⟨isBase, _⟩, _, pristine, history⟩ :=
    recorded_of_path (recorded_of_unhooked mapped configured unhooked nothing) path
  rw [← isBase] at history
  exact noDanglingPatch_of_history within disjoint equipped history (housed pristine history)

end Detached

namespace Sample

/-- The hook on `g`, behind the patch of `f`, that another module forwards to. -/
def forwardedHook : InstalledHook :=
  { secondHook with
    sourceModuleBase := 0x34000
    originalFunction := 0x31020
    originalBytes := List.replicate 14 0x90 }

def hookedApart : Target :=
  (HookFunction decode (calls.install (hook "g")) 0x31020 0x90000 (hook "g") onceHooked).2

/-- The forwarding module goes, and the patch of `g` cannot be made writable again. -/
def unloading : ModuleEvent.Calls :=
  { calls with unhook := fun _ call => call != .protect }

/-- The session behind the unload. -/
def leftBehind : DebugSession :=
  { attached with
    process := (HandleUnloadDll.loop unloading 0x34000 [firstHook, forwardedHook]
      (hookedApart.unmapImage 0x34000)).2
    installedHooks := (HandleUnloadDll.loop unloading 0x34000 [firstHook, forwardedHook]
      (hookedApart.unmapImage 0x34000)).1 }

def strays : List InstalledHook :=
  ([] : List InstalledHook).map (leaveImage 0x34000) ++
    [firstHook, forwardedHook].filterMap (HandleUnloadDll.stray unloading 0x34000)

def pristine : Memory := equipped.memory.overlay hookedApart.memory 0x34000 0x1000

/-- The session when only the first hook is installed. -/
def onceAttached : DebugSession :=
  { attached with process := onceHooked, installedHooks := [firstHook] }

/-- The entries of `f` and `g`, wherever `g` lies. -/
def entry (address : Nat) : Prop := address ∈ [0x31000, 0x31005, 0x31020]

instance (address : Nat) : Decidable (entry address) :=
  inferInstanceAs (Decidable (address ∈ [0x31000, 0x31005, 0x31020]))

/-- The patch cannot be made writable again. -/
def refused : CleanupRemote.Calls :=
  { cleanup with unhook := fun _ call => call != .protect }

theorem fits (slot : Nat) {definition : HookDefinition} {hooks : List InstalledHook}
    {target : Target} {address : Nat} {calls : HookFunction.Calls}
    (free : target.allocations calls.allocation = 0)
    (behind : 0xE0000 ≤ calls.allocation ∧ calls.allocation < 2 ^ 64)
    (sized : CalculatePatchSize decode true address target = 14)
    (located : 0x30000 ≤ address ∧ address + 14 ≤ 0x40000)
    (unpatched : ∀ hook ∈ hooks, Memory.Apart hook.originalFunction hook.originalBytes.length
      address 14)
    (found : target.GetRemoteExport 0x90000 definition.trampolineExport = some ⟨slot, []⟩)
    (inside : 0x90000 ≤ slot ∧ slot + 8 ≤ 0x91000)
    (slots : ∀ hook ∈ hooks, Memory.Apart slot 8 hook.trampolineSlot 8) :
    HookFunction.Fits decode calls address 0x90000 definition moduleRegion imageRegion hooks []
      target where
  free := free
  addressable := behind.2
  outsideCode := (outside_regions behind.1).1
  outsideImage := (outside_regions behind.1).2
  function := fun _ target lower upper => by
    rw [sized] at upper
    exact ⟨by omega, by omega⟩
  unpatched := fun _ hook member => by
    rw [sized]
    rw [standing, List.filter_nil, List.append_nil] at member
    exact unpatched hook member
  slot := fun trampolineExport isExport => by
    cases found.symm.trans isExport
    refine ⟨fun target (lower : slot ≤ target) (upper : target < slot + 8) => ?_, slots, by simp⟩
    exact ⟨by omega, by omega⟩

theorem history_leftBehind :
    History decode 0x90000 moduleRegion imageRegion equipped pristine leftBehind.installedHooks
      strays leftBehind.process := by
  have first : (HookFunction decode (calls.install (hook "f")) 0x31000 0x90000 (hook "f")
      equipped).1 = some { firstHook with sourceModuleBase := 0, targetModuleBase := 0 } := by
    decide +kernel
  have second : (HookFunction decode (calls.install (hook "g")) 0x31020 0x90000 (hook "g")
      onceHooked).1 = some { forwardedHook with sourceModuleBase := 0, targetModuleBase := 0 } := by
    decide +kernel
  have once : History decode 0x90000 moduleRegion imageRegion equipped equipped.memory [firstHook]
      [] onceHooked :=
    .installs .start (fits 0x90200 (by decide) (by decide) (by decide +kernel)
      (by decide) (by simp) (by decide) (by decide) (by simp)) first
  have twice : History decode 0x90000 moduleRegion imageRegion equipped equipped.memory
      [firstHook, forwardedHook] [] hookedApart :=
    .installs once (fits 0x90400 (by decide +kernel) (by decide) (by decide +kernel)
      (by decide) (by decide) (by decide) (by decide) (by decide)) second
  have unloaded : History decode 0x90000 moduleRegion imageRegion equipped
      (equipped.memory.overlay hookedApart.memory 0x34000 0x1000)
      (HandleUnloadDll.loop unloading 0x34000 [firstHook, forwardedHook]
        (hookedApart.unmapImage 0x34000)).1
      strays
      (HandleUnloadDll.loop unloading 0x34000 [firstHook, forwardedHook]
        (hookedApart.unmapImage 0x34000)).2 :=
    .unloads twice (by decide) (by decide)
  exact unloaded

theorem inside_hookImage {exportName : List UInt8} {remoteExport : RemoteExport}
    (found : equipped.GetRemoteExport 0x90000 exportName = some remoteExport) :
    0x90000 ≤ remoteExport.address ∧ remoteExport.address < 0x91000 := by
  have located : ∀ entry ∈ [("fHandler", 0x90100), ("fTrampoline", 0x90200),
      ("gHandler", 0x90300), ("gTrampoline", 0x90400), ("ActiveHookCalls", 0x90500),
      ("TransportRing", 0x90600), ("TransportWakeEvent", 0x90610),
      ("TransportNtSetEvent", 0x90620), ("TransportNtReadVirtualMemory", 0x90630)],
      0x90000 ≤ entry.2 ∧ entry.2 < 0x91000 := by
    decide
  have listed : hookImage.exports exportName = some remoteExport := found
  obtain ⟨entry, isEntry, isExport⟩ := Option.map_eq_some_iff.mp listed
  rw [← isExport]
  exact located entry (List.mem_of_find?_eq_some isEntry)

/-- What a session with these hooks needs beside them. -/
theorem housed {session : DebugSession} {strays : List InstalledHook} {pristine : Memory}
    (mapped : session.hookImageBase = 0x90000 ∧ session.hookImageSize = 0x1000)
    (ring : session.traceSession.remoteRing = 0xA0000)
    (placed : ∀ hook ∈ standing session.installedHooks strays,
      (hook.trampolineSlot = 0x90200 ∨ hook.trampolineSlot = 0x90400) ∧
        hook.originalFunction ∈ [0x31000, 0x31005, 0x31020])
    (unhooked : ∀ address ∈ [0x31000, 0x31005, 0x31020], pristine.read address 1 = [0x90]) :
    session.Housed strays entry moduleRegion equipped pristine where
  handlers := fun exportName remoteExport found => by
    rw [mapped.1] at found
    rw [mapped.1, mapped.2]
    exact inside_hookImage found
  transport := fun hook member exportName isExport remoteExport found => by
    have spaced : ∀ exportName ∈ TraceSession.transportExports,
        ((equipped.GetRemoteExport 0x90000 (narrow exportName)).all fun remoteExport =>
          decide (0x90600 ≤ remoteExport.address)) = true := by
      decide +kernel
    have behind := spaced exportName isExport
    rw [mapped.1] at found
    rw [found, Option.all_some, decide_eq_true_eq] at behind
    refine Or.inl ?_
    rcases (placed hook member).1 with same | same <;> omega
  ring := fun _ => by
    rw [mapped.1, ring]
    exact ⟨by decide, by decide⟩
  functions := fun address isEntry => by
    refine ⟨fun target lower upper => ?_, ?_⟩
    · have bounds : 0x31000 ≤ address ∧ address ≤ 0x31020 := by
        simp only [entry, List.mem_cons, List.not_mem_nil, or_false] at isEntry
        omega
      rw [PATCH_SIZE] at upper
      exact ⟨by omega, by omega⟩
    · rintro ⟨newAddress, _, _, code⟩
      have isFirst : [pristine address] = [0x68] := congrArg (List.take 1) code
      have isOriginal : [pristine address] = [0x90] := unhooked address isEntry
      exact absurd (isFirst.symm.trans isOriginal) (by decide)
  hooked := fun hook member => (placed hook member).2

theorem isEquippedLeft : leftBehind.Equipped imageRegion equipped where
  mapped := by decide
  allocated := by decide
  bypasses := by decide
  distinct := by decide
  exports := isEquipped.exports

theorem isHousedLeft : leftBehind.Housed strays entry moduleRegion equipped pristine :=
  housed ⟨rfl, rfl⟩ rfl (by decide +kernel) (by decide +kernel)

end Sample

/-- A patch that was left behind an unload, and one that is taken out, leave nothing behind
as long as the image stays; when it is freed the first one dangles.  Two hooks on top of
each other that are taken out leave nothing behind. -/
theorem noDanglingPatch_sample :
    NoDanglingPatch Sample.entry (standing Sample.leftBehind.installedHooks Sample.strays) 0x90000
        0x1000 (Sample.leftBehind.CleanupRemote
          { Sample.cleanup with freeImage := false }).2.process ∧
      ¬NoDanglingPatch Sample.entry (standing Sample.leftBehind.installedHooks Sample.strays)
        0x90000 0x1000 (Sample.leftBehind.CleanupRemote Sample.cleanup).2.process ∧
      NoDanglingPatch Sample.entry Sample.attached.installedHooks 0x90000 0x1000
        (Sample.attached.CleanupRemote Sample.cleanup).2.process := by
  have kept := (@noDanglingPatch_iff _ Sample.entry _ _ _ Sample.pristine Sample.leftBehind
    Sample.strays { Sample.cleanup with freeImage := false } Sample.decodesWithin
    Sample.regions_disjoint Sample.isEquippedLeft).1 Sample.history_leftBehind Sample.isHousedLeft
  have freed := (@noDanglingPatch_iff _ Sample.entry _ _ _ Sample.pristine Sample.leftBehind
    Sample.strays Sample.cleanup Sample.decodesWithin Sample.regions_disjoint
    Sample.isEquippedLeft).1 Sample.history_leftBehind Sample.isHousedLeft
  have overlapping := (@noDanglingPatch_iff _ Sample.entry _ _ _ Sample.pristine Sample.attached
    Sample.strays Sample.cleanup Sample.decodesWithin Sample.regions_disjoint
    Sample.isEquipped).2 Sample.installs_twice
      (Sample.housed ⟨rfl, rfl⟩ rfl (by decide +kernel) (by decide +kernel))
  refine ⟨kept.mpr (Or.inl ⟨rfl, ?_⟩), fun safe => ?_, overlapping fun hook _ => ⟨rfl, rfl⟩⟩
  · have only : ∀ stray ∈ Sample.strays, stray = Sample.forwardedHook := by
      decide +kernel
    intro stray left _
    rw [only stray left]
    exact ⟨⟨by decide +kernel, by decide +kernel⟩, ⟨by decide +kernel, by decide +kernel⟩⟩
  · rcases freed.mp safe with ⟨stays, _⟩ | ⟨nothing, _⟩
    · exact absurd stays (by decide)
    · exact absurd (nothing Sample.forwardedHook (by decide +kernel)) (by decide)

/-- The patch of the only hook stays, and the handler it jumps to is freed. -/
theorem patch_left_dangling :
    Installs Sample.decode 0x90000 Sample.moduleRegion Sample.imageRegion Sample.equipped
        Sample.onceAttached.installedHooks Sample.onceAttached.process ∧
      ¬NoDanglingPatch Sample.entry Sample.onceAttached.installedHooks 0x90000 0x1000
        (Sample.onceAttached.CleanupRemote Sample.refused).2.process := by
  refine ⟨Sample.installs_once, fun safe => ?_⟩
  have left : (Sample.onceAttached.CleanupRemote Sample.refused).2.process.memory.read
        Sample.firstHook.originalFunction PATCH_SIZE = jumpCode 0x90100 ∧
      (Sample.onceAttached.CleanupRemote Sample.refused).2.process.allocations 0x90000 = 0 := by
    decide +kernel
  exact safe.handlers Sample.firstHook.originalFunction (by decide)
    ⟨0x90100, by decide, by decide, left.1⟩ left.2

end DebugSession

end ApiScope
