import ApiScope.Library.Custody
import ApiScope.TraceSession.Resources
import Mathlib.Algebra.Order.Group.Multiset
import Mathlib.Tactic.Abel

/-!
# The resources of a trace session

Every call that acquires or releases something is entered on a ledger, one for
the target and one for the controller.  A session that is never asked to go on
after a failure knows by its members what it holds.
-/

namespace ApiScope

inductive RemoteResource where
  | region (base : Nat)
  | view (base : Nat)
  | handle (handle : Nat)
  deriving DecidableEq, Repr

inductive LocalResource where
  | handle (handle : Nat)
  | view (address : Nat)
  deriving DecidableEq, Repr

def RemoteAction.entry : RemoteAction → Option (Custody.Entry RemoteResource)
  | .write _ _ => none
  | .allocate base _ => some (.acquire (.region base))
  | .free base => some (.release (.region base))
  | .map base _ => some (.acquire (.view base))
  | .unmap base => some (.release (.view base))
  | .duplicateHandle handle => some (.acquire (.handle handle))
  | .closeHandle handle => some (.release (.handle handle))

def LocalAction.entry : LocalAction → Custody.Entry LocalResource
  | .createMapping handle => .acquire (.handle handle)
  | .mapView address => .acquire (.view address)
  | .createEvent handle => .acquire (.handle handle)
  | .unmapView address => .release (.view address)
  | .closeHandle handle => .release (.handle handle)

def Target.ledger (target : Target) : List (Custody.Entry RemoteResource) :=
  target.log.filterMap RemoteAction.entry

def TraceSession.ledger (session : TraceSession) : List (Custody.Entry LocalResource) :=
  session.log.map LocalAction.entry

theorem OnlyWrites.no_entry {actions : List RemoteAction} (onlyWrites : OnlyWrites actions) :
    actions.filterMap RemoteAction.entry = [] := by
  apply List.filterMap_eq_nil_iff.mpr
  intro action member
  obtain ⟨address, bytes, isWrite⟩ := onlyWrites action member
  rw [isWrite, RemoteAction.entry]

/-- The resource a member stands for, none if it is null. -/
def heldAt {Resource : Type} (kind : Nat → Resource) (value : Nat) : List Resource :=
  if value = 0 then [] else [kind value]

@[simp]
theorem heldAt_zero {Resource : Type} (kind : Nat → Resource) : heldAt kind 0 = [] := rfl

theorem heldAt_of_ne {Resource : Type} (kind : Nat → Resource) {value : Nat}
    (nonzero : value ≠ 0) : heldAt kind value = [kind value] :=
  if_neg nonzero

/-! ## The ledger of the target -/

/-- These resources of the target are outstanding. -/
def Target.Accounts (target : Target) (held : Multiset RemoteResource) : Prop :=
  Custody.Holds target.ledger held

namespace Target

variable {target : Target} {held : Multiset RemoteResource} {base : Nat}

theorem Accounts.write (accounts : target.Accounts held) (succeeds : Bool) (address : Nat)
    (bytes : List UInt8) : (target.WriteProcessMemory succeeds address bytes).Accounts held := by
  cases succeeds with
  | false => exact accounts
  | true =>
      have noEntry : [RemoteAction.write address bytes].filterMap RemoteAction.entry = [] := rfl
      simpa [Accounts, ledger, WriteProcessMemory, noEntry] using accounts

theorem Accounts.writtenTo {after : Target} (accounts : target.Accounts held)
    (written : target.WrittenTo after) : after.Accounts held := by
  obtain ⟨_, _, writes, onlyWrites, log⟩ := written
  rw [Accounts, ledger, log, List.filterMap_append, onlyWrites.no_entry, List.append_nil]
  exact accounts

theorem Accounts.allocate (accounts : target.Accounts held) (nonzero : base ≠ 0) (size : Nat) :
    (target.VirtualAllocEx base size).Accounts (.region base ::ₘ held) := by
  have acquired := accounts.acquire (.region base)
  simpa [Accounts, ledger, VirtualAllocEx, nonzero, RemoteAction.entry] using acquired

theorem Accounts.free (accounts : target.Accounts (.region base ::ₘ held)) {succeeds : Bool}
    (freed : succeeds = true) : (target.VirtualFreeEx succeeds base).Accounts held := by
  subst freed
  have released := Custody.Holds.release accounts
  simpa [Accounts, ledger, VirtualFreeEx, RemoteAction.entry] using released

theorem Accounts.map (accounts : target.Accounts held) (base size : Nat) :
    (target.NtMapViewOfSection true base size).Accounts (.view base ::ₘ held) := by
  have acquired := accounts.acquire (.view base)
  simpa [Accounts, ledger, NtMapViewOfSection, RemoteAction.entry] using acquired

theorem Accounts.unmap (accounts : target.Accounts (.view base ::ₘ held)) {succeeds : Bool}
    (unmapped : succeeds = true) :
    (target.NtUnmapViewOfSection succeeds base).Accounts held := by
  subst unmapped
  have released := Custody.Holds.release accounts
  simpa [Accounts, ledger, NtUnmapViewOfSection, RemoteAction.entry] using released

theorem Accounts.duplicate (accounts : target.Accounts held) (handle : Nat) :
    (target.DuplicateHandle true handle).Accounts (.handle handle ::ₘ held) := by
  have acquired := accounts.acquire (.handle handle)
  simpa [Accounts, ledger, DuplicateHandle, RemoteAction.entry] using acquired

theorem Accounts.withTrampoline (accounts : target.Accounts held) (nonzero : base ≠ 0)
    (originalFunction patchSize : Nat) :
    (target.withTrampoline originalFunction patchSize base).Accounts
      (.region base ::ₘ held) :=
  (accounts.allocate nonzero _).write _ _ _

theorem Accounts.withHook (accounts : target.Accounts held) (nonzero : base ≠ 0)
    (originalFunction patchSize trampolineSlot newAddress : Nat) :
    (target.withHook originalFunction patchSize base trampolineSlot newAddress).Accounts
      (.region base ::ₘ held) :=
  ((accounts.withTrampoline nonzero _ _).write _ _ _).write _ _ _

end Target

/-! ## Trampolines and hooks -/

namespace CreateBypassTrampoline.Effect

variable {decode : Decoder} {calls : CreateBypassTrampoline.Calls} {originalFunction : Nat}
  {target after : Target} {held : Multiset RemoteResource}

/-- A trampoline that is not made is given back. -/
theorem accounts_none
    (effect : CreateBypassTrampoline.Effect decode calls originalFunction target none after)
    (freed : calls.ok .free = true) (accounts : target.Accounts held) : after.Accounts held := by
  cases effect with
  | refused => exact accounts
  | abandoned _ allocated => exact (accounts.allocate allocated _).free freed
  | discarded _ allocated => exact (accounts.withTrampoline allocated _ _).free freed

theorem accounts_some {trampoline : RemoteTrampoline}
    (effect : CreateBypassTrampoline.Effect decode calls originalFunction target
      (some trampoline) after)
    (accounts : target.Accounts held) :
    trampoline.address ≠ 0 ∧ after.Accounts (.region trampoline.address ::ₘ held) := by
  cases effect with
  | created succeeds =>
      exact ⟨succeeds.allocated, accounts.withTrampoline succeeds.allocated _ _⟩

end CreateBypassTrampoline.Effect

namespace HookFunction.Effect

variable {decode : Decoder} {calls : HookFunction.Calls} {originalFunction hookImageBase : Nat}
  {definition : HookDefinition} {target after : Target} {held : Multiset RemoteResource}

/-- A hook that is not installed keeps no trampoline, even if its patch is left. -/
theorem accounts_none
    (effect : HookFunction.Effect decode calls originalFunction hookImageBase definition target
      none after)
    (freed : calls.ok .free = true) (freedInside : calls.ok (.trampoline .free) = true)
    (accounts : target.Accounts held) : after.Accounts held := by
  have released : ∀ {release : HookFunction.Call},
      release = .free ∨ release = .trampoline .free → calls.ok release = true := by
    rintro _ (rfl | rfl)
    · exact freed
    · exact freedInside
  cases effect with
  | refused => exact accounts
  | abandoned _ allocated release => exact (accounts.allocate allocated _).free (released release)
  | discarded _ allocated _ release =>
      exact (accounts.withTrampoline allocated _ _).free (released release)
  | withdrawn _ allocated =>
      exact (((accounts.withTrampoline allocated _ _).write _ _ _).write _ _ _).free freed
  | leftPatched overwrites =>
      have allocated := overwrites.trampoline.allocated
      exact ((accounts.withHook allocated _ _ _ _).write _ _ _).free freed

theorem accounts_some {hook : InstalledHook}
    (effect : HookFunction.Effect decode calls originalFunction hookImageBase definition target
      (some hook) after)
    (accounts : target.Accounts held) :
    hook.Valid ∧ after.Accounts (.region hook.trampolineAddress ::ₘ held) := by
  cases effect with
  | installed overwrites _ _ slot long =>
      have allocated := overwrites.trampoline.allocated
      refine ⟨⟨overwrites.resolved, allocated, slot, fun empty => ?_⟩,
        accounts.withHook allocated _ _ _ _⟩
      rw [← List.length_eq_zero_iff, Memory.length_read] at empty
      rw [empty] at long
      exact absurd long (by decide)

end HookFunction.Effect

/-! ## The ledger of the controller -/

namespace TraceSession

/-- What the session holds for its ring on the controller's side. -/
def localRingResources (session : TraceSession) : List LocalResource :=
  heldAt .handle session.wakeEvent ++ heldAt .view session.localRing ++
    heldAt .handle session.mappingHandle

def localResources (session : TraceSession) : List LocalResource :=
  session.localRingResources ++ heldAt .handle session.stopEvent

/-- The members say what is outstanding on the controller's side. -/
def LocalAccounts (session : TraceSession) : Prop :=
  Custody.Holds session.ledger session.localResources

theorem localAccounts_construct (stopEvent : Nat) : (construct stopEvent).LocalAccounts := by
  unfold LocalAccounts construct ledger localResources localRingResources
  split_ifs with null
  · subst null
    exact .start
  · have acquired := Custody.Holds.start.acquire (LocalResource.handle stopEvent)
    simpa [heldAt_of_ne _ null, LocalAction.entry] using acquired

section Local

variable {session : TraceSession}

/-- A resource that is acquired is entered under the member that was null. -/
theorem LocalAccounts.acquire (accounts : session.LocalAccounts) {next : TraceSession}
    {action : LocalAction} {resource : LocalResource} (log : next.log = session.log ++ [action])
    (acquires : action.entry = .acquire resource)
    (resources : (next.localResources : Multiset LocalResource) =
      resource ::ₘ (session.localResources : Multiset LocalResource)) : next.LocalAccounts := by
  have acquired := Custody.Holds.acquire resource accounts
  rw [LocalAccounts, ledger, log, resources, List.map_append, List.map_singleton, acquires]
  exact acquired

theorem LocalAccounts.createMapping (accounts : session.LocalAccounts)
    (null : session.mappingHandle = 0) {handle : Nat} (nonzero : handle ≠ 0) :
    { session with
      mappingHandle := handle
      log := session.log ++ [LocalAction.createMapping handle] }.LocalAccounts := by
  refine accounts.acquire rfl rfl ?_
  simp only [localResources, localRingResources, null, heldAt_of_ne _ nonzero, heldAt_zero,
    ← Multiset.coe_add, Multiset.coe_nil, Multiset.coe_singleton, ← Multiset.singleton_add]
  abel

theorem LocalAccounts.mapView (accounts : session.LocalAccounts)
    (null : session.localRing = 0) {address : Nat} (nonzero : address ≠ 0) :
    { session with
      localRing := address
      log := session.log ++ [LocalAction.mapView address] }.LocalAccounts := by
  refine accounts.acquire rfl rfl ?_
  simp only [localResources, localRingResources, null, heldAt_of_ne _ nonzero, heldAt_zero,
    ← Multiset.coe_add, Multiset.coe_nil, Multiset.coe_singleton, ← Multiset.singleton_add]
  abel

theorem LocalAccounts.createEvent (accounts : session.LocalAccounts)
    (null : session.wakeEvent = 0) {handle : Nat} (nonzero : handle ≠ 0) :
    { session with
      wakeEvent := handle
      log := session.log ++ [LocalAction.createEvent handle] }.LocalAccounts := by
  refine accounts.acquire rfl rfl ?_
  simp only [localResources, localRingResources, null, heldAt_of_ne _ nonzero, heldAt_zero,
    ← Multiset.coe_add, Multiset.coe_nil, Multiset.coe_singleton, ← Multiset.singleton_add]
  abel

/-- The calls `ReleaseLocalRing` makes. -/
def localReleases (session : TraceSession) : List LocalAction :=
  heldAt .closeHandle session.wakeEvent ++ heldAt .unmapView session.localRing ++
    heldAt .closeHandle session.mappingHandle

theorem ReleaseLocalRing_eq (session : TraceSession) :
    session.ReleaseLocalRing =
      { session with
        wakeEvent := 0
        localRing := 0
        mappingHandle := 0
        log := session.log ++ session.localReleases } := by
  obtain ⟨mappingHandle, localRing, _, wakeEvent⟩ := session
  unfold ReleaseLocalRing localReleases heldAt
  by_cases noEvent : wakeEvent = 0 <;> by_cases noView : localRing = 0 <;>
    by_cases noMapping : mappingHandle = 0 <;> simp [noEvent, noView, noMapping]

theorem LocalAccounts.releaseLocalRing (accounts : session.LocalAccounts) :
    session.ReleaseLocalRing.LocalAccounts := by
  have entries : session.localReleases.map LocalAction.entry =
      session.localRingResources.map .release := by
    unfold localReleases localRingResources heldAt
    split_ifs <;> rfl
  have whole : (session.localResources : Multiset LocalResource) =
      (session.localRingResources : Multiset LocalResource) +
        (heldAt LocalResource.handle session.stopEvent : Multiset LocalResource) :=
    (Multiset.coe_add _ _).symm
  unfold LocalAccounts at accounts ⊢
  rw [whole] at accounts
  have released := accounts.release_all
  rw [ReleaseLocalRing_eq, ledger, List.map_append, entries]
  exact released

end Local

/-! ## Starting -/

/-- What the session holds for its ring in the target. -/
def remoteRingResources (session : TraceSession) : List RemoteResource :=
  heldAt .view session.remoteRing ++ heldAt .handle session.remoteWakeEvent

/-- A session that has not been started. -/
structure Idle (session : TraceSession) : Prop where
  mappingHandle : session.mappingHandle = 0
  localRing : session.localRing = 0
  remoteRing : session.remoteRing = 0
  wakeEvent : session.wakeEvent = 0
  remoteWakeEvent : session.remoteWakeEvent = 0

theorem Idle.remoteRingResources {session : TraceSession} (idle : session.Idle) :
    session.remoteRingResources = [] := by
  rw [TraceSession.remoteRingResources, idle.remoteRing, idle.remoteWakeEvent]
  rfl

/-- The ring can be given back, and what the calls return is not null. -/
structure Start.Calls.Releases (calls : Start.Calls) : Prop where
  unmapRing : calls.ok .unmapRing = true
  mapped : calls.ok .mapViewOfSection = true → calls.remoteRing ≠ 0
  duplicated : calls.ok .duplicateHandle = true → calls.remoteWakeEvent ≠ 0

/-- Whatever has become of the ring, the members know of it. -/
structure Start.Outcome (session next : TraceSession) (after : Target)
    (held : Multiset RemoteResource) : Prop where
  onController : next.LocalAccounts
  onTarget : after.Accounts ((next.remoteRingResources : Multiset RemoteResource) + held)
  setEventBypass : next.setEventBypass = session.setEventBypass
  readMemoryBypass : next.readMemoryBypass = session.readMemoryBypass

theorem Start.Outcome.unchanged {session : TraceSession} {target : Target}
    {held : Multiset RemoteResource} (idle : session.Idle) (onController : session.LocalAccounts)
    (onTarget : target.Accounts held) : Start.Outcome session session target held where
  onController := onController
  onTarget := by simpa [idle.remoteRingResources] using onTarget
  setEventBypass := rfl
  readMemoryBypass := rfl

section Start

variable {calls : Start.Calls} {session : TraceSession} {target : Target}
  {held : Multiset RemoteResource}

theorem CreateSharedRing_outcome (releases : calls.Releases) (idle : session.Idle)
    (onController : session.LocalAccounts) (onTarget : target.Accounts held) :
    Start.Outcome session (session.CreateSharedRing calls target).2.1
        (session.CreateSharedRing calls target).2.2 held ∧
      ((session.CreateSharedRing calls target).1 = true →
        (session.CreateSharedRing calls target).2.1.remoteRing ≠ 0) := by
  unfold CreateSharedRing
  by_cases noMapping : calls.mappingHandle = 0
  · rw [if_pos noMapping]
    exact ⟨.unchanged idle onController onTarget, by simp⟩
  rw [if_neg noMapping]
  have withMapping := onController.createMapping idle.mappingHandle noMapping
  by_cases noView : calls.localRing = 0
  · rw [if_pos noView]
    refine ⟨⟨withMapping.releaseLocalRing, ?_, ?_, ?_⟩, by simp⟩ <;> rw [ReleaseLocalRing_eq]
    simpa [remoteRingResources, idle.remoteRing, idle.remoteWakeEvent] using onTarget
  rw [if_neg noView]
  have withView := withMapping.mapView idle.localRing noView
  dsimp only
  cases mapped : calls.ok .mapViewOfSection with
  | false =>
      refine ⟨⟨withView.releaseLocalRing, ?_, ?_, ?_⟩, by simp⟩
      · simpa [remoteRingResources, ReleaseLocalRing_eq, idle.remoteRing, idle.remoteWakeEvent,
          Target.NtMapViewOfSection] using onTarget
      · rw [Bool.not_false, if_pos rfl, ReleaseLocalRing_eq]
      · rw [Bool.not_false, if_pos rfl, ReleaseLocalRing_eq]
  | true =>
  have onMapped := onTarget.map calls.remoteRing sizeofTraceRing
  have unmapped := onMapped.unmap releases.unmapRing
  rw [if_neg (by simp)]
  by_cases noEvent : calls.wakeEvent = 0
  · rw [if_pos noEvent]
    refine ⟨⟨?_, ?_, ?_, ?_⟩, by simp⟩
    · exact LocalAccounts.releaseLocalRing withView
    · simpa [remoteRingResources, ReleaseLocalRing_eq, idle.remoteWakeEvent] using unmapped
    · rw [ReleaseLocalRing_eq]
    · rw [ReleaseLocalRing_eq]
  rw [if_neg noEvent]
  have withEvent := withView.createEvent idle.wakeEvent noEvent
  cases duplicated : calls.ok .duplicateHandle with
  | false =>
      rw [Bool.not_false, if_pos rfl]
      refine ⟨⟨?_, ?_, ?_, ?_⟩, by simp⟩
      · exact LocalAccounts.releaseLocalRing withEvent
      · simpa [remoteRingResources, ReleaseLocalRing_eq, idle.remoteWakeEvent] using unmapped
      · rw [ReleaseLocalRing_eq]
      · rw [ReleaseLocalRing_eq]
  | true =>
      rw [if_neg (by simp)]
      have handed := onMapped.duplicate calls.remoteWakeEvent
      refine ⟨⟨withEvent, ?_, rfl, rfl⟩, fun _ => releases.mapped mapped⟩
      simp only [remoteRingResources, heldAt_of_ne _ (releases.mapped mapped),
        heldAt_of_ne _ (releases.duplicated duplicated), ← Multiset.coe_add,
        Multiset.coe_singleton, Multiset.singleton_add, Multiset.cons_add]
      rw [Multiset.cons_swap] at handed
      exact handed

theorem writtenTo_andThen {result : Bool × Target} {next : Target → Bool × Target}
    (first : target.WrittenTo result.2)
    (second : ∀ process, Target.WrittenTo process (next process).2) :
    target.WrittenTo (WriteRemoteExport.andThen result next).2 := by
  unfold WriteRemoteExport.andThen
  split_ifs
  · exact first.trans (second _)
  · exact first

theorem writtenTo_Start_publish (calls : Start.Calls) (hookImageBase : Nat)
    (session : TraceSession) (target : Target) :
    target.WrittenTo (Start.publish calls hookImageBase session target).2 := by
  unfold Start.publish
  apply writtenTo_andThen (writtenTo_WriteRemoteExport _ _ _ _ _)
  intro process
  apply writtenTo_andThen (writtenTo_WriteRemoteExport _ _ _ _ _)
  exact fun process => writtenTo_WriteRemoteExport _ _ _ _ _

theorem writtenTo_ConfigureTransport_publish (calls : ConfigureTransport.Calls)
    (hookImageBase : Nat) (session : TraceSession) (target : Target) :
    target.WrittenTo (ConfigureTransport.publish calls hookImageBase session target).2 := by
  unfold ConfigureTransport.publish
  apply writtenTo_andThen (writtenTo_WriteRemoteExport _ _ _ _ _)
  exact fun process => writtenTo_WriteRemoteExport _ _ _ _ _

theorem Start_outcome (releases : calls.Releases) (idle : session.Idle)
    (onController : session.LocalAccounts) (onTarget : target.Accounts held)
    (outputOptions : TraceOutputOptions) (hookImageBase : Nat) :
    Start.Outcome session (session.Start calls outputOptions hookImageBase target).2.1
      (session.Start calls outputOptions hookImageBase target).2.2 held := by
  have shared := CreateSharedRing_outcome releases idle onController onTarget
  unfold Start
  split_ifs
  · exact .unchanged idle onController onTarget
  · exact .unchanged idle onController onTarget
  revert shared
  generalize session.CreateSharedRing calls target = outcome
  obtain ⟨created, next, process⟩ := outcome
  rintro ⟨outcome, mapped⟩
  cases created with
  | false => exact outcome
  | true =>
      have written := writtenTo_Start_publish calls hookImageBase next process
      have accounts := outcome.onTarget.writtenTo written
      dsimp only at mapped accounts ⊢
      revert accounts
      generalize Start.publish calls hookImageBase next process = published
      obtain ⟨published, after⟩ := published
      intro accounts
      cases published with
      | true => exact ⟨outcome.onController, accounts, outcome.setEventBypass, outcome.readMemoryBypass⟩
      | false =>
          -- the duplicated handle is left to `CleanupRemote`
          simp only [remoteRingResources, heldAt_of_ne _ (mapped rfl), ← Multiset.coe_add,
            Multiset.coe_singleton, Multiset.singleton_add, Multiset.cons_add] at accounts
          have onController := outcome.onController.releaseLocalRing
          refine ⟨?_, ?_, ?_, ?_⟩
          · rw [ReleaseLocalRing_eq] at onController ⊢
            exact onController
          · rw [ReleaseLocalRing_eq]
            simpa [remoteRingResources] using accounts.unmap releases.unmapRing
          · rw [ReleaseLocalRing_eq]
            exact outcome.setEventBypass
          · rw [ReleaseLocalRing_eq]
            exact outcome.readMemoryBypass

end Start

/-! ## The bypasses -/

/-- What the session holds for its bypasses. -/
def bypassResources (session : TraceSession) : List RemoteResource :=
  heldAt .region session.setEventBypass.address ++
    heldAt .region session.readMemoryBypass.address

structure ConfigureTransport.Calls.Releases (calls : ConfigureTransport.Calls) : Prop where
  setEvent : calls.setEvent.ok .free = true
  readMemory : calls.readMemory.ok .free = true

section Bypasses

variable {decode : Decoder} {target : Target} {held : Multiset RemoteResource}

theorem CreateBypassTrampolineForFunction_accounts {calls : CreateBypassTrampoline.Calls}
    (freed : calls.ok .free = true) (accounts : target.Accounts held) (moduleBase : Nat)
    (functionName : List UInt8) :
    match CreateBypassTrampolineForFunction decode calls moduleBase functionName target with
    | (none, after) => after.Accounts held
    | (some trampoline, after) =>
        trampoline.address ≠ 0 ∧ after.Accounts (.region trampoline.address ::ₘ held) := by
  unfold CreateBypassTrampolineForFunction
  cases target.GetRemoteExport moduleBase functionName with
  | none => exact accounts
  | some remoteExport =>
      dsimp only
      split_ifs
      · exact accounts
      · have effect := CreateBypassTrampoline_effect decode calls remoteExport.address target
        revert effect
        generalize CreateBypassTrampoline decode calls remoteExport.address target = made
        obtain ⟨trampoline, after⟩ := made
        intro effect
        cases trampoline with
        | none => exact effect.accounts_none freed accounts
        | some trampoline => exact effect.accounts_some accounts

/-- A bypass that was made is remembered, also if the other one is not. -/
theorem ConfigureTransport_accounts {calls : ConfigureTransport.Calls} (releases : calls.Releases)
    {session : TraceSession} (noSetEvent : session.setEventBypass.address = 0)
    (noReadMemory : session.readMemoryBypass.address = 0) (accounts : target.Accounts held)
    (ntdllBase hookImageBase : Nat) :
    (session.ConfigureTransport decode calls ntdllBase hookImageBase target).2.2.Accounts
      (((session.ConfigureTransport decode calls ntdllBase hookImageBase
        target).2.1.bypassResources : Multiset RemoteResource) + held) := by
  have first := @CreateBypassTrampolineForFunction_accounts decode target held _ releases.setEvent
    accounts ntdllBase (narrow "NtSetEvent")
  unfold ConfigureTransport
  revert first
  generalize CreateBypassTrampolineForFunction decode calls.setEvent ntdllBase
    (narrow "NtSetEvent") target = made
  obtain ⟨setEventBypass, process⟩ := made
  intro first
  cases setEventBypass with
  | none => simpa [bypassResources, noSetEvent, noReadMemory] using first
  | some setEventBypass =>
      obtain ⟨nonzero, onTarget⟩ := first
      have second := @CreateBypassTrampolineForFunction_accounts decode process _ _
        releases.readMemory onTarget ntdllBase (narrow "NtReadVirtualMemory")
      dsimp only
      revert second
      generalize CreateBypassTrampolineForFunction decode calls.readMemory ntdllBase
        (narrow "NtReadVirtualMemory") process = made
      obtain ⟨readMemoryBypass, after⟩ := made
      intro second
      cases readMemoryBypass with
      | none => simpa [bypassResources, heldAt_of_ne _ nonzero, noReadMemory] using second
      | some readMemoryBypass =>
          obtain ⟨alsoNonzero, both⟩ := second
          have published := both.writtenTo (writtenTo_ConfigureTransport_publish calls
            hookImageBase
              { session with
                setEventBypass := setEventBypass
                readMemoryBypass := readMemoryBypass } after)
          rw [Multiset.cons_swap] at published
          simp only [bypassResources, heldAt_of_ne _ nonzero, heldAt_of_ne _ alsoNonzero,
            ← Multiset.coe_add, Multiset.coe_singleton, Multiset.singleton_add, Multiset.cons_add]
          exact published

/-- Nothing but the bypasses is touched. -/
theorem ConfigureTransport_members (decode : Decoder) (calls : ConfigureTransport.Calls)
    (session : TraceSession) (ntdllBase hookImageBase : Nat) (target : Target) :
    ∃ setEventBypass readMemoryBypass,
      (session.ConfigureTransport decode calls ntdllBase hookImageBase target).2.1 =
        { session with
          setEventBypass := setEventBypass
          readMemoryBypass := readMemoryBypass } := by
  unfold ConfigureTransport
  rcases CreateBypassTrampolineForFunction decode calls.setEvent ntdllBase (narrow "NtSetEvent")
    target with ⟨_ | setEventBypass, process⟩
  · exact ⟨_, _, rfl⟩
  · dsimp only
    rcases CreateBypassTrampolineForFunction decode calls.readMemory ntdllBase
      (narrow "NtReadVirtualMemory") process with ⟨_ | readMemoryBypass, after⟩
    · exact ⟨_, _, rfl⟩
    · exact ⟨_, _, rfl⟩

end Bypasses

/-! ## Releasing -/

/-- What the session holds in the target, in the order in which it is released. -/
def remoteResources (session : TraceSession) : List RemoteResource :=
  session.remoteRingResources ++ session.bypassResources

theorem entries_heldReleases (session : TraceSession) :
    session.heldReleases.filterMap RemoteAction.entry = session.remoteResources.map .release := by
  unfold heldReleases remoteResources remoteRingResources bypassResources heldAt
  split_ifs <;> simp_all [RemoteAction.entry]

/-- Once the ring is released only the stop event is left. -/
theorem localResources_ReleaseLocalRing (session : TraceSession) :
    session.ReleaseLocalRing.localResources = heldAt .handle session.stopEvent := by
  rw [ReleaseLocalRing_eq]
  rfl

theorem LocalAccounts.stop {session : TraceSession} (accounts : session.LocalAccounts) :
    Custody.Holds session.Stop.ledger
      (heldAt LocalResource.handle session.stopEvent : Multiset LocalResource) := by
  have released := accounts.releaseLocalRing
  rw [LocalAccounts, localResources_ReleaseLocalRing] at released
  exact released

/-- A session that has stopped has nothing left to release but its stop event. -/
theorem stop_Stop (session : TraceSession) : session.Stop.Stop = session.Stop := by
  unfold Stop
  rw [ReleaseLocalRing_eq, ReleaseLocalRing_eq]
  simp [localReleases]

theorem log_destroy_Stop (session : TraceSession) :
    session.Stop.destroy.log = session.Stop.log ++ heldAt .closeHandle session.stopEvent := by
  have stopEvent : session.Stop.stopEvent = session.stopEvent := by
    rw [Stop, ReleaseLocalRing_eq]
  unfold destroy heldAt
  dsimp only
  rw [stop_Stop, stopEvent]
  by_cases null : session.stopEvent = 0 <;> simp [null]

theorem LocalAccounts.destroy {session : TraceSession} (accounts : session.LocalAccounts) :
    Custody.Holds session.Stop.destroy.ledger 0 := by
  have entries : (heldAt LocalAction.closeHandle session.stopEvent).map LocalAction.entry =
      (heldAt LocalResource.handle session.stopEvent).map .release := by
    unfold heldAt
    split_ifs <;> rfl
  have stopped := accounts.stop
  rw [← add_zero (heldAt LocalResource.handle session.stopEvent : Multiset LocalResource)]
    at stopped
  rw [ledger, log_destroy_Stop, List.map_append, entries]
  exact stopped.release_all

end TraceSession

end ApiScope
