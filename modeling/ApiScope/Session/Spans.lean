import Mathlib.Data.List.Pairwise
import ApiScope.Session.Prospects
import ApiScope.Session.Strays

/-!
# Patched spans

A patch covers as many bytes as the first instructions of its function take, and the
loop over the selected hooks only compares where functions begin.  Spans stay apart as
long as the functions that are found keep their distance, from each other and from the
patches that stand, those of forgotten hooks among them.
-/

namespace ApiScope

/-- The patched bytes of two hooks have nothing in common. -/
def InstalledHook.SpansApart (hook other : InstalledHook) : Prop :=
  Memory.Apart hook.originalFunction hook.originalBytes.length other.originalFunction
    other.originalBytes.length

instance (hook other : InstalledHook) : Decidable (hook.SpansApart other) :=
  inferInstanceAs (Decidable (Memory.Apart _ _ _ _))

namespace DebugSession

def SpansApart (session : DebugSession) : Prop :=
  session.installedHooks.Pairwise InstalledHook.SpansApart

instance (session : DebugSession) : Decidable session.SpansApart :=
  inferInstanceAs (Decidable (List.Pairwise _ _))

/-- Hooks that are gone had nothing to do with the spans of the others. -/
theorem SpansApart.of_sublist {session next : DebugSession} (apart : next.SpansApart)
    (sublist : session.installedHooks.Sublist next.installedHooks) : session.SpansApart :=
  List.Pairwise.sublist sublist apart

/-- The functions the loop will find are as long as their patches, and none of these
patches stands there yet. -/
structure Spacious (decode : Decoder) (install : HookDefinition → HookFunction.Calls)
    (patches : List InstalledHook) (session : DebugSession) : Prop where
  undisturbed : session.Undisturbed decode install
  unpatched : ∀ definition ∈ session.options.hooks, ∀ address ∈ session.prospect definition,
    CalculatePatchSize decode true address session.process ≠ 0 → ∀ hook ∈ patches,
      Memory.Apart hook.originalFunction hook.originalBytes.length address
        (CalculatePatchSize decode true address session.process)

instance (decode : Decoder) (install : HookDefinition → HookFunction.Calls)
    (patches : List InstalledHook) (session : DebugSession) :
    Decidable (session.Spacious decode install patches) :=
  decidable_of_iff (_ ∧ ∀ definition ∈ session.options.hooks,
      ∀ address ∈ session.prospect definition,
        CalculatePatchSize decode true address session.process ≠ 0 → ∀ hook ∈ patches,
          Memory.Apart hook.originalFunction hook.originalBytes.length address
            (CalculatePatchSize decode true address session.process))
    ⟨fun ⟨undisturbed, unpatched⟩ => ⟨undisturbed, unpatched⟩,
      fun ⟨undisturbed, unpatched⟩ => ⟨undisturbed, unpatched⟩⟩

/-- The loop over the hooks is only entered where there is room for the patches. -/
def KeepsSpansApart (decode : Decoder) (state : Tracked) : SessionLabel → Prop
  | .targetRuns _ => True
  | .event event calls _ =>
      ∀ entered ∈ HandleModuleEvent.installing decode calls event state.session,
        entered.Spacious decode calls.install state.patches

instance (decode : Decoder) (state : Tracked) :
    (label : SessionLabel) → Decidable (KeepsSpansApart decode state label)
  | .targetRuns _ => isTrue trivial
  | .event event calls _ => inferInstanceAs (Decidable
      (∀ entered ∈ HandleModuleEvent.installing decode calls event state.session,
        entered.Spacious decode calls.install state.patches))

/-- The patches of two hooks that are found do not meet. -/
def Distant (decode : Decoder) (session : DebugSession) (first second : HookDefinition) : Prop :=
  ∀ address ∈ session.prospect first, ∀ other ∈ session.prospect second,
    CalculatePatchSize decode true address session.process ≠ 0 →
      CalculatePatchSize decode true other session.process ≠ 0 →
        Memory.Apart address (CalculatePatchSize decode true address session.process) other
          (CalculatePatchSize decode true other session.process)

instance (decode : Decoder) (session : DebugSession) : Std.Symm (session.Distant decode) where
  symm := fun _ _ distant address found other found' sized sized' =>
    (distant other found' address found sized' sized).symm

/-- The saved bytes and the trampoline of a hook are made of the code the loop has
found, in which none of these patches stands. -/
structure OwnCode (session : DebugSession) (patches : List InstalledHook) (log : List RemoteAction)
    (hook : InstalledHook) : Prop where
  saved : hook.originalBytes =
    session.process.memory.read hook.originalFunction hook.originalBytes.length
  moved : ∃ added, log = session.process.log ++ added ∧
    .write hook.trampolineAddress (trampolineCode hook.originalBytes
      (hook.originalFunction + hook.originalBytes.length)) ∈ added
  unpatched : ∀ other ∈ patches, other.SpansApart hook

section Spacious

variable {decode : Decoder} {install : HookDefinition → HookFunction.Calls}
  {patches : List InstalledHook} {session current : DebugSession} {done : List HookDefinition}

theorem Made.sized_ne_zero {definition : HookDefinition} {log : List RemoteAction}
    {hook : InstalledHook} (made : session.Made decode log definition hook) :
    CalculatePatchSize decode true hook.originalFunction session.process ≠ 0 := by
  rw [← made.sized]
  exact Nat.ne_of_gt (Nat.lt_of_lt_of_le (by decide) made.long)

/-- Two hooks of one loop do not meet. -/
theorem Undisturbed.spansApart (undisturbed : session.Undisturbed decode install)
    {definition other : HookDefinition} {log : List RemoteAction} {hook hook' : InstalledHook}
    (member : definition ∈ session.options.hooks) (member' : other ∈ session.options.hooks)
    (made : session.Made decode log definition hook) (made' : session.Made decode log other hook')
    (different : hook.canonicalName ≠ hook'.canonicalName) : hook.SpansApart hook' := by
  have distant : session.options.hooks.Pairwise (session.Distant decode) :=
    undisturbed.patches.imp fun reaches address found address' found' sized sized' => by
      have apart := reaches address found address' found' sized
      rwa [PatchReach_of_ne_zero sized'] at apart
  have distinct : definition ≠ other := by
    rintro rfl
    exact different (made.name.trans made'.name.symm)
  have apart := distant.forall member member' distinct _ made.prospect _ made'.prospect
    made.sized_ne_zero made'.sized_ne_zero
  rwa [← made.sized, ← made'.sized] at apart

/-- The hooks a loop installs where there is room are made of their own code. -/
theorem Spacious.ownCode (spacious : session.Spacious decode install patches)
    {definition : HookDefinition} {added : List RemoteAction} {hook : InstalledHook}
    (member : definition ∈ session.options.hooks)
    (made : session.Made decode added definition hook) (more : List RemoteAction) :
    session.OwnCode patches (session.process.log ++ (added ++ more)) hook where
  saved := made.saved
  moved := ⟨added ++ more, rfl, List.mem_append_left _ made.moved⟩
  unpatched := fun other isPatch => by
    have apart := spacious.unpatched definition member _ made.prospect made.sized_ne_zero other
      isPatch
    rwa [← made.sized] at apart

/-- Where there is room the loop leaves the spans apart, and its hooks are made of
their own code. -/
theorem Spacious.tryInstall (within : DecodesWithin decode) (alone : DecodesAlone decode)
    (spacious : session.Spacious decode install patches) (apart : session.SpansApart)
    (known : session.installedHooks ⊆ patches)
    (names : ((session.TryInstallPendingHooks decode install).2.installedHooks.map
      InstalledHook.canonicalName).Nodup) :
    (session.TryInstallPendingHooks decode install).2.SpansApart ∧
      ∀ hook ∈ (session.TryInstallPendingHooks decode install).2.installedHooks,
        hook ∈ session.installedHooks ∨ session.OwnCode patches
          (session.TryInstallPendingHooks decode install).2.process.log hook := by
  obtain ⟨before, behind, last, split, advanced, sameHooks, more, isMore⟩ :=
    Advanced.loop within alone spacious.undisturbed (.refl decode install session) rfl
  obtain ⟨installed, added, isInstalled, isAdded, made⟩ := advanced.made
  have selected : before ⊆ session.options.hooks := by
    rw [split]
    exact List.subset_append_left _ _
  have ownCode : ∀ hook ∈ installed, session.OwnCode patches
      (session.TryInstallPendingHooks decode install).2.process.log hook := by
    intro hook member
    obtain ⟨definition, inside, isMade⟩ := made hook member
    rw [TryInstallPendingHooks, isMore, isAdded, List.append_assoc]
    exact spacious.ownCode (selected inside) isMade more
  have hooks : (session.TryInstallPendingHooks decode install).2.installedHooks =
      session.installedHooks ++ installed := sameHooks.trans isInstalled
  rw [hooks] at names ⊢
  refine ⟨?_, fun hook member => (List.mem_append.mp member).imp_right (ownCode hook)⟩
  unfold SpansApart
  rw [hooks, List.pairwise_append]
  refine ⟨apart, ?_, fun hook member other new => (ownCode other new).unpatched hook
    (known member)⟩
  rw [List.map_append, List.nodup_append] at names
  refine (List.pairwise_map.mp names.2.1).imp_of_mem fun {hook hook'} member member' different => ?_
  obtain ⟨definition, inside, isMade⟩ := made hook member
  obtain ⟨other, inside', isMade'⟩ := made hook' member'
  exact spacious.undisturbed.spansApart (selected inside) (selected inside') isMade isMade'
    different

/-- One event leaves the spans apart. -/
theorem spansApart_handleModuleEvent (within : DecodesWithin decode) (alone : DecodesAlone decode)
    {calls : ModuleEvent.Calls} {event : ModuleEvent}
    (books : (session.HandleModuleEvent decode calls event).2.Invariant)
    (spacious : ∀ entered ∈ HandleModuleEvent.installing decode calls event session,
      entered.Spacious decode calls.install patches)
    (apart : session.SpansApart) (known : session.installedHooks ⊆ patches) :
    (session.HandleModuleEvent decode calls event).2.SpansApart ∧
      ∀ hook ∈ (session.HandleModuleEvent decode calls event).2.installedHooks,
        hook ∈ session.installedHooks ∨
          ∃ entered ∈ HandleModuleEvent.installing decode calls event session,
            entered.OwnCode patches
              (session.HandleModuleEvent decode calls event).2.process.log hook := by
  have names := books.distinctNames
  rcases HandleModuleEvent.loads decode calls event session with ⟨base, rfl⟩ | ⟨image, loads⟩
  · have kept : (session.HandleModuleEvent decode calls (.unloadDll base)).2.installedHooks =
        session.installedHooks.filter _ :=
      installedHooks_HandleUnloadDll calls base (session.withoutImage base)
    have sublist := kept ▸ List.filter_sublist
    exact ⟨apart.of_sublist sublist, fun hook member => Or.inl (sublist.subset member)⟩
  · generalize HandleModuleEvent.installing decode calls event session = entered at loads spacious ⊢
    generalize session.HandleModuleEvent decode calls event = outcome at loads names ⊢
    cases loads with
    | ends enters =>
        have same : _ = session.installedHooks := enters.installedHooks
        exact ⟨apart.of_sublist (by rw [same]), fun hook member => Or.inl (same ▸ member)⟩
    | @installs entered enters _ =>
        have same : entered.installedHooks = session.installedHooks := enters.installedHooks
        obtain ⟨spans, ownCode⟩ := (spacious entered rfl).tryInstall within alone
          (apart.of_sublist (by rw [same])) (by rw [same]; exact known) names
        refine ⟨spans, fun hook member => ?_⟩
        rw [← same]
        exact (ownCode hook member).imp_right fun own => ⟨entered, rfl, own⟩

end Spacious

section Runs

variable {decode : Decoder} {options : CommandLineOptions} {labels : List SessionLabel}
  {state next : Tracked}

/-- One step that enters the loop only where there is room. -/
theorem spansApart_step (within : DecodesWithin decode) (alone : DecodesAlone decode)
    {event : ModuleEvent} {calls : ModuleEvent.Calls} {handled : Bool}
    (books : state.session.Invariant) (apart : state.session.SpansApart)
    (taken : ((tracked decode options).restrict (KeepsSpansApart decode)).step state
      (.event event calls handled) next) :
    next.session.SpansApart ∧
      ∀ hook ∈ next.session.installedHooks, hook ∈ state.session.installedHooks ∨
        ∃ entered ∈ HandleModuleEvent.installing decode calls event state.session,
          entered.OwnCode state.patches next.session.process.log hook := by
  obtain ⟨⟨handles, _⟩, keeps⟩ := taken
  have isNext : (state.session.HandleModuleEvent decode calls event).2 = next.session :=
    congrArg Prod.snd handles
  rw [← isNext]
  exact spansApart_handleModuleEvent within alone (books.handleModuleEvent decode calls event)
    keeps apart (List.subset_append_left _ _)

theorem spansApart_of_run (within : DecodesWithin decode) (alone : DecodesAlone decode)
    (run : ((tracked decode options).restrict (KeepsSpansApart decode)).Run labels state) :
    state.session.Invariant ∧ state.session.SpansApart := by
  refine @Transition.System.Run.invariant _ _ _
    (fun _ state => state.session.Invariant ∧ state.session.SpansApart) ?_ ?_ _ _ run
  · rintro state ⟨⟨process, processId, stopEvent, isInitial⟩, _⟩
    rw [isInitial]
    exact ⟨invariant_construct options process processId stopEvent, .nil⟩
  · intro history state label next ⟨books, apart⟩ taken
    cases label with
    | targetRuns memory =>
        rw [show next.session = _ from taken.1.1]
        exact ⟨books.of_sameBooks ⟨rfl, rfl, rfl, rfl, rfl⟩, apart⟩
    | event event calls handled =>
        have isNext : (state.session.HandleModuleEvent decode calls event).2 = next.session :=
          congrArg Prod.snd taken.1.1
        exact ⟨isNext ▸ books.handleModuleEvent decode calls event,
          (spansApart_step within alone books apart taken).1⟩

/-- In a run that enters the loop only where there is room, the patched spans are apart
in every state, and every step makes its hooks of the code it has found, where no patch
stands. -/
theorem spans_stay_apart (within : DecodesWithin decode) (alone : DecodesAlone decode)
    (run : ((tracked decode options).restrict (KeepsSpansApart decode)).Run labels state) :
    state.session.SpansApart ∧
      ∀ event calls handled next,
        ((tracked decode options).restrict (KeepsSpansApart decode)).step state
            (.event event calls handled) next →
          ∀ hook ∈ next.session.installedHooks, hook ∈ state.session.installedHooks ∨
            ∃ entered ∈ HandleModuleEvent.installing decode calls event state.session,
              entered.OwnCode state.patches next.session.process.log hook := by
  obtain ⟨books, apart⟩ := spansApart_of_run within alone run
  exact ⟨apart, fun event calls handled next taken =>
    (spansApart_step within alone books apart taken).2⟩

end Runs

namespace Sample

theorem decodesAlone : DecodesAlone decode := by
  have shorter : ∀ {first : UInt8} {rest code : List UInt8} {length : Nat},
      code.take (length + 1) = (first :: rest).take (length + 1) →
        ∃ rest', code = first :: rest' ∧ rest'.take length = rest.take length := by
    intro first rest code length same
    cases code with
    | nil => simp at same
    | cons first' rest' =>
        simp only [List.take_succ_cons, List.cons.injEq] at same
        exact ⟨rest', by rw [same.1], same.2⟩
  intro code code' instruction decoded same
  unfold decode at decoded
  split at decoded
  · cases decoded
    obtain ⟨rest', rfl, _⟩ := shorter same
    rfl
  · cases decoded
    obtain ⟨rest', rfl, _⟩ := shorter same
    rfl
  · split_ifs at decoded with long
    cases decoded
    obtain ⟨rest', rfl, taken⟩ := shorter same
    have lengths := congrArg List.length taken
    rw [List.length_take, List.length_take] at lengths
    exact if_pos (by omega)
  · split_ifs at decoded with long
    cases decoded
    obtain ⟨rest', rfl, taken⟩ := shorter same
    have lengths := congrArg List.length taken
    rw [List.length_take, List.length_take] at lengths
    exact if_pos (by omega)
  · cases decoded

/-- `f` and `g` are far enough apart. -/
def apartLoaded : ModuleEvent × ModuleEvent.Calls :=
  loaded 0x30000 [("f", 0x31000), ("g", 0x31020)]

def tracked (events : List (ModuleEvent × ModuleEvent.Calls)) : Tracked :=
  Tracked.handleAll decode events ⟨construct (options ["f", "g"]) process 4 5, []⟩

theorem tracked_run (events : List (ModuleEvent × ModuleEvent.Calls))
    {allowed : Tracked → SessionLabel → Prop}
    (each : Tracked.Allowed decode allowed events
      ⟨construct (options ["f", "g"]) process 4 5, []⟩) :
    ((DebugSession.tracked decode (options ["f", "g"])).restrict allowed).Run
      (handleAll.labels decode events (construct (options ["f", "g"]) process 4 5))
      (tracked events) :=
  Tracked.handleAll_run decode (options ["f", "g"]) allowed events process 4 5 each

/-- `g` begins five bytes behind `f`. -/
def neighboursLoaded : List (ModuleEvent × ModuleEvent.Calls) :=
  started ++ [loaded 0x30000 [("f", 0x31000), ("g", 0x31005)]]

end Sample

/-- Both functions are hooked in one loop, each on its own code. -/
theorem spans_stay_apart_sample :
    (Sample.tracked (Sample.started ++ [Sample.apartLoaded])).session.SpansApart ∧
      (Sample.tracked (Sample.started ++ [Sample.apartLoaded])).session.installedHooks.map
        InstalledHook.originalFunction = [0x31000, 0x31020] ∧
      ∀ hook ∈ (Sample.tracked (Sample.started ++ [Sample.apartLoaded])).session.installedHooks,
        hook ∈ (Sample.tracked Sample.started).session.installedHooks ∨
          ∃ entered ∈ HandleModuleEvent.installing Sample.decode Sample.calls Sample.apartLoaded.1
              (Sample.tracked Sample.started).session,
            entered.OwnCode (Sample.tracked Sample.started).patches
              (Sample.tracked (Sample.started ++ [Sample.apartLoaded])).session.process.log hook := by
  have each : Tracked.Allowed Sample.decode (KeepsSpansApart Sample.decode)
      (Sample.started ++ [Sample.apartLoaded])
      ⟨construct (Sample.options ["f", "g"]) Sample.process 4 5, []⟩ := by
    decide +kernel
  refine ⟨(spans_stay_apart Sample.decodesWithin Sample.decodesAlone
    (Sample.tracked_run _ each)).1, by decide +kernel, ?_⟩
  have started := spans_stay_apart Sample.decodesWithin Sample.decodesAlone
    (Sample.tracked_run Sample.started ⟨each.1, each.2.1, trivial⟩)
  exact started.2 Sample.apartLoaded.1 Sample.apartLoaded.2 true _ ⟨⟨rfl, rfl⟩, each.2.2.1⟩

/-- Two exports a few bytes apart are both hooked, the second inside the first patch. -/
theorem spans_overlap :
    ¬∀ decode options labels session, (system decode options).Run labels session →
      session.SpansApart := by
  intro always
  have overlapping : ¬(Sample.session ["f", "g"] Sample.neighboursLoaded).SpansApart := by
    decide +kernel
  exact overlapping (always _ _ _ _ (handleAll_run Sample.decode (Sample.options ["f", "g"])
    Sample.neighboursLoaded Sample.process 4 5))

end DebugSession

end ApiScope
