import ApiScope.Session.Detach

/-!
# Threads in hooked calls

A thread is the stack of its frames, the innermost first, each with the address
at which it stands or to which the frame above it returns.  `ActiveHookCalls`
counts the frames that hold a guard; the frames it does not count never call
anything, so the instruction pointer gives them away.
-/

namespace ApiScope

namespace DebugSession

/-! ## Where instrumentation lies -/

def InHookImage (session : DebugSession) (address : Nat) : Prop :=
  session.hookImageBase ≠ 0 ∧ session.hookImageBase ≤ address ∧
    address < session.hookImageBase + session.hookImageSize

end DebugSession

def InstalledHook.InPatch (hook : InstalledHook) (address : Nat) : Prop :=
  hook.originalFunction ≤ address ∧ address < hook.originalFunction + hook.originalBytes.length

def InstalledHook.InTrampoline (hook : InstalledHook) (address : Nat) : Prop :=
  hook.trampolineAddress ≤ address ∧ address < hook.trampolineAddress + TRAMPOLINE_SIZE

def RemoteTrampoline.Contains (bypass : RemoteTrampoline) (address : Nat) : Prop :=
  bypass.address ≠ 0 ∧ bypass.address ≤ address ∧ address < bypass.address + TRAMPOLINE_SIZE

namespace DebugSession

/-- The address lies in memory that a cleanup frees. -/
def Freed (session : DebugSession) (address : Nat) : Prop :=
  session.InHookImage address ∨
    (∃ hook ∈ session.installedHooks, hook.InTrampoline address) ∨
    ∃ bypass ∈ session.bypasses, bypass.Contains address

theorem IsInstrumentationAddress_eq_false_iff (session : DebugSession) (address : Nat) :
    session.IsInstrumentationAddress address = false ↔
      ¬session.InHookImage address ∧
        ∀ hook ∈ session.installedHooks, ¬hook.InPatch address ∧ ¬hook.InTrampoline address := by
  unfold IsInstrumentationAddress InHookImage InstalledHook.InPatch InstalledHook.InTrampoline
    TRAMPOLINE_SIZE
  simp only [Bool.or_eq_false_iff, List.any_eq_false, Bool.or_eq_true, Bool.and_eq_true,
    decide_eq_true_eq, not_or, Bool.and_eq_false_iff, decide_eq_false_iff_not, not_and_or]
  simp only [ne_eq, Decidable.not_not, or_assoc]

end DebugSession

/-! ## Frames and threads -/

/-- How far a call of a hooked function has come.  The original function behind
its patch is code like any other. -/
inductive Phase where
  | outside
  | entry (hook : InstalledHook)
  | prologue (hook : InstalledHook)
  | guarded (hook : InstalledHook)
  | trampoline (hook : InstalledHook)
  | bypass (bypass : RemoteTrampoline)
  | epilogue (hook : InstalledHook)
  deriving DecidableEq, Repr

namespace Phase

/-- Phases from which a thread calls other code. -/
def Calls : Phase → Prop
  | .outside | .guarded _ | .trampoline _ | .bypass _ => True
  | .entry _ | .prologue _ | .epilogue _ => False

/-- Phases a thread leaves by a jump or by returning, with no guard to destroy. -/
def Leaves : Phase → Prop
  | .outside | .trampoline _ | .bypass _ => True
  | .entry _ | .prologue _ | .guarded _ | .epilogue _ => False

/-- Code that any code can get to; hooked functions are entered while they are patched. -/
def Enterable (patched : Bool) : Phase → Prop
  | .outside => True
  | .entry _ => patched = true
  | .prologue _ | .guarded _ | .trampoline _ | .bypass _ | .epilogue _ => False

/-- Trampolines are only entered from a handler that holds its guard. -/
def Sheltered : Phase → Prop
  | .trampoline _ | .bypass _ => True
  | .outside | .entry _ | .prologue _ | .guarded _ | .epilogue _ => False

/-- Guards that are alive in a frame of this phase. -/
def guards : Phase → Nat
  | .guarded _ => 1
  | .outside | .entry _ | .prologue _ | .trampoline _ | .bypass _ | .epilogue _ => 0

end Phase

/-- `address` is the instruction pointer of the innermost frame, and the return
address into every other one. -/
structure Frame where
  phase : Phase
  address : Nat
  deriving DecidableEq, Repr

abbrev Thread := List Frame

namespace Frame

/-- The address lies in the code of the phase. -/
def Located (session : DebugSession) (frame : Frame) : Prop :=
  match frame.phase with
  | .outside => ¬session.Freed frame.address
  | .entry hook => hook ∈ session.installedHooks ∧ hook.InPatch frame.address
  | .prologue _ | .guarded _ | .epilogue _ => session.InHookImage frame.address
  | .trampoline hook => hook ∈ session.installedHooks ∧ hook.InTrampoline frame.address
  | .bypass bypass => bypass ∈ session.bypasses ∧ bypass.Contains frame.address

end Frame

namespace Thread

/-- Guards that are alive on a stack. -/
def guards : Thread → Nat
  | [] => 0
  | frame :: rest => frame.phase.guards + guards rest

/-- What a step does to `ActiveHookCalls`. -/
inductive Action where
  | silent
  | increment
  | decrement
  deriving DecidableEq, Repr

/-- Steps of a thread, while functions are hooked or not. -/
inductive Step (session : DebugSession) (patched : Bool) : Thread → Action → Thread → Prop where
  | moves {phase : Phase} {address next : Nat} {rest : Thread} :
      Frame.Located session ⟨phase, next⟩ →
      Step session patched (⟨phase, address⟩ :: rest) .silent (⟨phase, next⟩ :: rest)
  | calls {caller callee : Frame} {rest : Thread} :
      caller.phase.Calls → callee.phase.Enterable patched → callee.Located session →
      Step session patched (caller :: rest) .silent (callee :: caller :: rest)
  /-- A jump, also the one at the end of a trampoline. -/
  | jumps {frame next : Frame} {rest : Thread} :
      frame.phase.Leaves → next.phase.Enterable patched → next.Located session →
      Step session patched (frame :: rest) .silent (next :: rest)
  | returns {frame : Frame} {rest : Thread} :
      frame.phase.Leaves → Step session patched (frame :: rest) .silent rest
  /-- The patch leads to the handler. -/
  | enters {hook : InstalledHook} {address handler : Nat} {rest : Thread} :
      session.InHookImage handler →
      Step session patched (⟨.entry hook, address⟩ :: rest) .silent
        (⟨.prologue hook, handler⟩ :: rest)
  /-- `HookCallGuard()` -/
  | constructs {hook : InstalledHook} {address next : Nat} {rest : Thread} :
      session.InHookImage next →
      Step session patched (⟨.prologue hook, address⟩ :: rest) .increment
        (⟨.guarded hook, next⟩ :: rest)
  /-- `CALL_ORIGINAL` -/
  | callsOriginal {hook : InstalledHook} {address : Nat} {rest : Thread} :
      hook ∈ session.installedHooks →
      Step session patched (⟨.guarded hook, address⟩ :: rest) .silent
        (⟨.trampoline hook, hook.trampolineAddress⟩ :: ⟨.guarded hook, address⟩ :: rest)
  /-- `TransportNtSetEvent` or `TransportNtReadVirtualMemory` -/
  | callsBypass {hook : InstalledHook} {bypass : RemoteTrampoline} {address : Nat}
      {rest : Thread} :
      bypass ∈ session.bypasses → bypass.address ≠ 0 →
      Step session patched (⟨.guarded hook, address⟩ :: rest) .silent
        (⟨.bypass bypass, bypass.address⟩ :: ⟨.guarded hook, address⟩ :: rest)
  /-- `~HookCallGuard()` -/
  | destroys {hook : InstalledHook} {address next : Nat} {rest : Thread} :
      session.InHookImage next →
      Step session patched (⟨.guarded hook, address⟩ :: rest) .decrement
        (⟨.epilogue hook, next⟩ :: rest)
  | leaves {hook : InstalledHook} {address : Nat} {rest : Thread} :
      Step session patched (⟨.epilogue hook, address⟩ :: rest) .silent rest

/-- Only frames that call lie below another one, and every trampoline is
sheltered by a guard below it. -/
def Stacked : Thread → Prop
  | [] => True
  | frame :: rest =>
      (∀ caller ∈ rest, caller.phase.Calls) ∧
        (frame.phase.Sheltered → ∃ caller ∈ rest, caller.phase.guards = 1) ∧ Stacked rest

structure Valid (session : DebugSession) (thread : Thread) : Prop where
  located : ∀ frame ∈ thread, frame.Located session
  stacked : Stacked thread

theorem Valid.tail {session : DebugSession} {frame : Frame} {rest : Thread}
    (valid : Valid session (frame :: rest)) : Valid session rest :=
  ⟨fun other member => valid.located other (List.mem_cons_of_mem _ member), valid.stacked.2.2⟩

/-- A frame that is not sheltered may stand on any stack of callers. -/
theorem Valid.cons {session : DebugSession} {frame : Frame} {rest : Thread}
    (valid : Valid session rest) (located : frame.Located session)
    (callers : ∀ caller ∈ rest, caller.phase.Calls)
    (sheltered : frame.phase.Sheltered → ∃ caller ∈ rest, caller.phase.guards = 1) :
    Valid session (frame :: rest) where
  located := List.forall_mem_cons.mpr ⟨located, valid.located⟩
  stacked := ⟨callers, sheltered, valid.stacked⟩

/-- What a step changes about the guards of a thread. -/
def Action.Counts : Action → Nat → Nat → Prop
  | .silent, before, after => after = before
  | .increment, before, after => after = before + 1
  | .decrement, before, after => before = after + 1

theorem not_sheltered_of_enterable {patched : Bool} {phase : Phase}
    (enterable : phase.Enterable patched) : ¬phase.Sheltered := by
  cases phase <;> simp_all [Phase.Enterable, Phase.Sheltered]

theorem guards_of_enterable {patched : Bool} {phase : Phase}
    (enterable : phase.Enterable patched) : phase.guards = 0 := by
  cases phase <;> simp_all [Phase.Enterable, Phase.guards]

theorem guards_of_leaves {phase : Phase} (leaves : phase.Leaves) : phase.guards = 0 := by
  cases phase <;> simp_all [Phase.Leaves, Phase.guards]

theorem Step.valid {session : DebugSession} {patched : Bool} {thread next : Thread}
    {action : Action} (step : Step session patched thread action next)
    (valid : Valid session thread) : Valid session next := by
  have callers := valid.stacked
  cases step with
  | moves located => exact valid.tail.cons located callers.1 callers.2.1
  | calls calling enterable located =>
      refine valid.cons located ?_ fun sheltered =>
        absurd sheltered (not_sheltered_of_enterable enterable)
      exact List.forall_mem_cons.mpr ⟨calling, callers.1⟩
  | jumps _ enterable located =>
      exact valid.tail.cons located callers.1 fun sheltered =>
        absurd sheltered (not_sheltered_of_enterable enterable)
  | returns => exact valid.tail
  | enters located => exact valid.tail.cons located callers.1 False.elim
  | constructs located => exact valid.tail.cons located callers.1 False.elim
  | @callsOriginal hook _ _ installed =>
      have located : Frame.Located session ⟨.trampoline hook, hook.trampolineAddress⟩ :=
        ⟨installed, Nat.le_refl _, Nat.lt_add_of_pos_right (by decide)⟩
      exact valid.cons located (List.forall_mem_cons.mpr ⟨trivial, callers.1⟩) fun _ =>
        ⟨_, List.mem_cons_self, rfl⟩
  | @callsBypass _ bypass _ _ member nonzero =>
      have located : Frame.Located session ⟨.bypass bypass, bypass.address⟩ :=
        ⟨member, nonzero, Nat.le_refl _, Nat.lt_add_of_pos_right (by decide)⟩
      exact valid.cons located (List.forall_mem_cons.mpr ⟨trivial, callers.1⟩) fun _ =>
        ⟨_, List.mem_cons_self, rfl⟩
  | destroys located => exact valid.tail.cons located callers.1 False.elim
  | leaves => exact valid.tail

theorem Step.counts {session : DebugSession} {patched : Bool} {thread next : Thread}
    {action : Action} (step : Step session patched thread action next) :
    action.Counts (guards thread) (guards next) := by
  cases step with
  | moves => rfl
  | calls _ enterable => simp [Action.Counts, guards, guards_of_enterable enterable]
  | jumps leaves enterable =>
      simp [Action.Counts, guards, guards_of_enterable enterable, guards_of_leaves leaves]
  | returns leaves => simp [Action.Counts, guards, guards_of_leaves leaves]
  | enters => rfl
  | constructs => simp [Action.Counts, guards, Phase.guards, Nat.add_comm]
  | callsOriginal => simp [Action.Counts, guards, Phase.guards]
  | callsBypass => simp [Action.Counts, guards, Phase.guards]
  | destroys => simp [Action.Counts, guards, Phase.guards, Nat.add_comm]
  | leaves => simp [Action.Counts, guards, Phase.guards]

end Thread

/-! ## All threads together -/

namespace HookCalls

/-- The threads of the target, and `ActiveHookCalls`, which is a `LONG`. -/
structure State where
  threads : List Thread
  activeHookCalls : BitVec 32
  patched : Bool

def liveGuards : List Thread → Nat
  | [] => 0
  | thread :: rest => thread.guards + liveGuards rest

/-- `_InterlockedIncrement` and `_InterlockedDecrement` -/
def count (activeHookCalls : BitVec 32) : Thread.Action → BitVec 32
  | .silent => activeHookCalls
  | .increment => activeHookCalls + 1
  | .decrement => activeHookCalls - 1

/-- A thread takes a step or a new one is started in code of the target. -/
inductive Step (session : DebugSession) (state : State) : Thread.Action → State → Prop where
  | thread {before after : List Thread} {thread next : Thread} {action : Thread.Action} :
      state.threads = before ++ thread :: after →
      Thread.Step session state.patched thread action next →
      Step session state action
        { state with
          threads := before ++ next :: after
          activeHookCalls := count state.activeHookCalls action }
  | starts {address : Nat} :
      ¬session.Freed address →
      Step session state .silent
        { state with threads := state.threads ++ [[⟨.outside, address⟩]] }

/-- At first no thread has entered a hook. -/
def system (session : DebugSession) : Transition.System State Thread.Action where
  initial := fun state =>
    state.activeHookCalls = 0 ∧
      ∀ thread ∈ state.threads, ∀ frame ∈ thread,
        frame.phase = .outside ∧ ¬session.Freed frame.address
  step := Step session

/-- What `IsCleanupQuiescent` finds: no active call, and no thread stands at an
instrumentation address. -/
def Quiescent (session : DebugSession) (state : State) : Prop :=
  state.activeHookCalls = 0 ∧
    ∀ thread ∈ state.threads, ∀ frame ∈ thread.head?,
      session.IsInstrumentationAddress frame.address = false

/-- No thread executes in or returns to memory that a cleanup frees. -/
def Clear (session : DebugSession) (state : State) : Prop :=
  ∀ thread ∈ state.threads, ∀ frame ∈ thread, ¬session.Freed frame.address

/-! ## The counter counts the guards -/

structure Invariant (session : DebugSession) (state : State) : Prop where
  counted : state.activeHookCalls = BitVec.ofNat 32 (liveGuards state.threads)
  valid : ∀ thread ∈ state.threads, Thread.Valid session thread

variable {session : DebugSession}

theorem liveGuards_append (before after : List Thread) :
    liveGuards (before ++ after) = liveGuards before + liveGuards after := by
  induction before with
  | nil => simp [liveGuards]
  | cons thread rest inductionHypothesis =>
      rw [List.cons_append, liveGuards, liveGuards, inductionHypothesis, Nat.add_assoc]

theorem liveGuards_middle (before after : List Thread) (thread : Thread) :
    liveGuards (before ++ thread :: after) =
      thread.guards + (liveGuards before + liveGuards after) := by
  rw [liveGuards_append, liveGuards]
  omega

theorem liveGuards_eq_zero_iff (threads : List Thread) :
    liveGuards threads = 0 ↔ ∀ thread ∈ threads, thread.guards = 0 := by
  induction threads with
  | nil => simp [liveGuards]
  | cons thread rest inductionHypothesis =>
      rw [liveGuards, Nat.add_eq_zero_iff, inductionHypothesis, List.forall_mem_cons]

theorem count_eq {action : Thread.Action} {guards guards' others : Nat}
    (counts : action.Counts guards guards') :
    count (BitVec.ofNat 32 (guards + others)) action = BitVec.ofNat 32 (guards' + others) := by
  cases action with
  | silent =>
      have same : guards' = guards := counts
      rw [same]
      rfl
  | increment =>
      have more : guards' = guards + 1 := counts
      rw [more, count, Nat.add_right_comm, BitVec.ofNat_add (guards + others) 1]
      rfl
  | decrement =>
      have less : guards = guards' + 1 := counts
      rw [less, count, Nat.add_right_comm, BitVec.ofNat_add (guards' + others) 1]
      exact BitVec.add_sub_cancel _ _

theorem Invariant.step {state next : State} {action : Thread.Action}
    (invariant : Invariant session state) (step : Step session state action next) :
    Invariant session next := by
  cases step with
  | @thread before after thread next _ split step =>
      have counted := invariant.counted
      have valid := invariant.valid
      rw [split] at counted valid
      rw [liveGuards_middle] at counted
      refine ⟨?_, ?_⟩
      · dsimp only
        rw [liveGuards_middle, counted]
        exact count_eq step.counts
      · intro other member
        rcases List.mem_append.mp member with inBefore | inRest
        · exact valid other (List.mem_append_left _ inBefore)
        · rcases List.mem_cons.mp inRest with rfl | inAfter
          · exact step.valid (valid thread (by simp))
          · exact valid other (by simp [inAfter])
  | @starts address elsewhere =>
      refine ⟨?_, ?_⟩
      · simpa [liveGuards_append, liveGuards, Thread.guards, Phase.guards] using
          invariant.counted
      · intro other member
        rcases List.mem_append.mp member with old | new
        · exact invariant.valid other old
        · have located : Frame.Located session ⟨.outside, address⟩ := elsewhere
          rw [List.mem_singleton.mp new]
          exact ⟨by simpa using located, by simp [Thread.Stacked, Phase.Sheltered]⟩

theorem guards_of_outside {thread : Thread}
    (outside : ∀ frame ∈ thread, frame.phase = .outside) : thread.guards = 0 := by
  induction thread with
  | nil => rfl
  | cons frame rest inductionHypothesis =>
      rw [List.forall_mem_cons] at outside
      rw [Thread.guards, outside.1, inductionHypothesis outside.2]
      rfl

theorem stacked_of_outside {thread : Thread}
    (outside : ∀ frame ∈ thread, frame.phase = .outside) : Thread.Stacked thread := by
  induction thread with
  | nil => trivial
  | cons frame rest inductionHypothesis =>
      rw [List.forall_mem_cons] at outside
      refine ⟨fun caller member => ?_, fun sheltered => ?_, inductionHypothesis outside.2⟩
      · rw [outside.2 caller member]
        trivial
      · rw [outside.1] at sheltered
        exact sheltered.elim

theorem invariant_of_initial {state : State} (isInitial : (system session).initial state) :
    Invariant session state := by
  obtain ⟨zero, outside⟩ := isInitial
  have noGuards : liveGuards state.threads = 0 :=
    (liveGuards_eq_zero_iff _).mpr fun thread member =>
      guards_of_outside fun frame inside => (outside thread member frame inside).1
  refine ⟨by rw [zero, noGuards]; rfl, fun thread member => ⟨fun frame inside => ?_, ?_⟩⟩
  · obtain ⟨phase, elsewhere⟩ := outside thread member frame inside
    rw [Frame.Located, phase]
    exact elsewhere
  · exact stacked_of_outside fun frame inside => (outside thread member frame inside).1

theorem Run.invariant {labels : List Thread.Action} {state : State}
    (run : (system session).Run labels state) : Invariant session state :=
  @Transition.System.Run.invariant _ _ _ (fun _ state => Invariant session state)
    (fun _ isInitial => invariant_of_initial isInitial)
    (fun _ _ _ _ invariant step => invariant.step step) _ _ run

/-! ## Quiescence -/

theorem guards_frame {thread : Thread} (none : thread.guards = 0) :
    ∀ frame ∈ thread, frame.phase.guards = 0 := by
  induction thread with
  | nil => simp
  | cons frame rest inductionHypothesis =>
      rw [Thread.guards, Nat.add_eq_zero_iff] at none
      exact List.forall_mem_cons.mpr ⟨none.1, inductionHypothesis none.2⟩

/-- A frame without a guard that is not sheltered and may call is outside. -/
theorem outside_of_calls {phase : Phase} (calls : phase.Calls) (unguarded : phase.guards = 0)
    (unsheltered : ¬phase.Sheltered) : phase = .outside := by
  cases phase <;> simp_all [Phase.Calls, Phase.guards, Phase.Sheltered]

/-- On a stack without guards every frame that lies below another one is outside. -/
theorem callers_outside {thread : Thread} (stacked : Thread.Stacked thread)
    (unguarded : ∀ frame ∈ thread, frame.phase.guards = 0)
    (calling : ∀ frame ∈ thread, frame.phase.Calls) :
    ∀ frame ∈ thread, frame.phase = .outside := by
  induction thread with
  | nil => simp
  | cons frame rest inductionHypothesis =>
      obtain ⟨_, sheltered, stackedRest⟩ := stacked
      rw [List.forall_mem_cons] at unguarded calling ⊢
      refine ⟨outside_of_calls calling.1 unguarded.1 fun isSheltered => ?_,
        inductionHypothesis stackedRest unguarded.2 calling.2⟩
      obtain ⟨caller, member, guarded⟩ := sheltered isSheltered
      rw [unguarded.2 caller member] at guarded
      exact absurd guarded (by decide)

/-- The frames the counter does not count are given away by the instruction pointer. -/
theorem top_outside {frame : Frame} (located : frame.Located session)
    (elsewhere : session.IsInstrumentationAddress frame.address = false)
    (unguarded : frame.phase.guards = 0) (unsheltered : ¬frame.phase.Sheltered) :
    frame.phase = .outside := by
  obtain ⟨notImage, notHook⟩ := (session.IsInstrumentationAddress_eq_false_iff _).mp elsewhere
  obtain ⟨phase, address⟩ := frame
  cases phase with
  | outside => rfl
  | entry hook => exact absurd located.2 (notHook hook located.1).1
  | prologue => exact absurd located notImage
  | guarded => exact absurd unguarded Nat.one_ne_zero
  | trampoline => exact absurd trivial unsheltered
  | bypass => exact absurd trivial unsheltered
  | epilogue => exact absurd located notImage

/-- A thread without guards is outside if its innermost frame is. -/
theorem thread_outside {thread : Thread} (stacked : Thread.Stacked thread)
    (unguarded : ∀ frame ∈ thread, frame.phase.guards = 0)
    (top : ∀ frame ∈ thread.head?, frame.phase.guards = 0 → ¬frame.phase.Sheltered →
      frame.phase = .outside) :
    ∀ frame ∈ thread, frame.phase = .outside := by
  cases thread with
  | nil => simp
  | cons frame rest =>
      obtain ⟨calling, sheltered, stackedRest⟩ := stacked
      rw [List.forall_mem_cons] at unguarded ⊢
      refine ⟨top frame rfl unguarded.1 fun isSheltered => ?_,
        callers_outside stackedRest unguarded.2 calling⟩
      obtain ⟨caller, member, guarded⟩ := sheltered isSheltered
      rw [unguarded.2 caller member] at guarded
      exact absurd guarded (by decide)

/-- As long as the counter has not wrapped, a zero is no guard at all. -/
theorem guards_of_zero {state : State}
    (counted : state.activeHookCalls = BitVec.ofNat 32 (liveGuards state.threads))
    (few : liveGuards state.threads < 2 ^ 32) (zero : state.activeHookCalls = 0) :
    ∀ thread ∈ state.threads, ∀ frame ∈ thread, frame.phase.guards = 0 := by
  have noGuards : liveGuards state.threads = 0 := by
    have value := congrArg BitVec.toNat (counted.symm.trans zero)
    rw [BitVec.toNat_ofNat, Nat.mod_eq_of_lt few] at value
    exact value
  exact fun thread member => guards_frame ((liveGuards_eq_zero_iff _).mp noGuards thread member)

theorem Invariant.outside {state : State} (invariant : Invariant session state)
    (few : liveGuards state.threads < 2 ^ 32) (quiescent : Quiescent session state) :
    ∀ thread ∈ state.threads, ∀ frame ∈ thread, frame.phase = .outside := by
  obtain ⟨zero, elsewhere⟩ := quiescent
  intro thread member
  have valid := invariant.valid thread member
  exact thread_outside valid.stacked (guards_of_zero invariant.counted few zero thread member)
    fun frame isTop => top_outside (valid.located frame (List.mem_of_mem_head? isTop))
      (elsewhere thread member frame isTop)

/-! ## After the cleanup -/

/-- Every frame is outside and no function leads back in. -/
structure Unhooked (session : DebugSession) (state : State) : Prop where
  unpatched : state.patched = false
  outside : ∀ thread ∈ state.threads, ∀ frame ∈ thread,
    frame.phase = .outside ∧ ¬session.Freed frame.address

/-- Without a patch only code outside can be entered. -/
theorem outside_of_enterable {frame : Frame} (enterable : frame.phase.Enterable false)
    (located : frame.Located session) :
    frame.phase = .outside ∧ ¬session.Freed frame.address := by
  obtain ⟨phase, address⟩ := frame
  cases phase with
  | outside => exact ⟨rfl, located⟩
  | entry => exact absurd enterable (by simp [Phase.Enterable])
  | prologue => exact enterable.elim
  | guarded => exact enterable.elim
  | trampoline => exact enterable.elim
  | bypass => exact enterable.elim
  | epilogue => exact enterable.elim

theorem Thread.Step.outside {thread next : Thread} {action : Thread.Action}
    (step : Thread.Step session false thread action next)
    (outside : ∀ frame ∈ thread, frame.phase = .outside ∧ ¬session.Freed frame.address) :
    ∀ frame ∈ next, frame.phase = .outside ∧ ¬session.Freed frame.address := by
  cases step with
  | moves located =>
      rw [List.forall_mem_cons] at outside ⊢
      obtain ⟨rfl, _⟩ := outside.1
      exact ⟨⟨rfl, located⟩, outside.2⟩
  | calls _ enterable located =>
      exact List.forall_mem_cons.mpr ⟨outside_of_enterable enterable located, outside⟩
  | jumps _ enterable located =>
      rw [List.forall_mem_cons] at outside ⊢
      exact ⟨outside_of_enterable enterable located, outside.2⟩
  | returns => exact (List.forall_mem_cons.mp outside).2
  | enters => exact absurd (List.forall_mem_cons.mp outside).1.1 (by simp)
  | constructs => exact absurd (List.forall_mem_cons.mp outside).1.1 (by simp)
  | callsOriginal => exact absurd (List.forall_mem_cons.mp outside).1.1 (by simp)
  | callsBypass => exact absurd (List.forall_mem_cons.mp outside).1.1 (by simp)
  | destroys => exact absurd (List.forall_mem_cons.mp outside).1.1 (by simp)
  | leaves => exact absurd (List.forall_mem_cons.mp outside).1.1 (by simp)

theorem Unhooked.step {state next : State} {action : Thread.Action}
    (unhooked : Unhooked session state) (step : Step session state action next) :
    Unhooked session next := by
  cases step with
  | thread split step =>
      have outside := unhooked.outside
      rw [split] at outside
      rw [unhooked.unpatched] at step
      refine ⟨unhooked.unpatched, fun other member => ?_⟩
      rcases List.mem_append.mp member with inBefore | inRest
      · exact outside other (List.mem_append_left _ inBefore)
      · rcases List.mem_cons.mp inRest with rfl | inAfter
        · exact Thread.Step.outside step (outside _ (by simp))
        · exact outside other (by simp [inAfter])
  | starts elsewhere =>
      refine ⟨unhooked.unpatched, fun other member => ?_⟩
      rcases List.mem_append.mp member with old | new
      · exact unhooked.outside other old
      · rw [List.mem_singleton.mp new]
        intro frame inside
        rw [List.mem_singleton.mp inside]
        exact ⟨rfl, elsewhere⟩

/-- In a state that is found quiescent nobody is in or returns to what a cleanup
frees, and once the entry bytes are restored nobody gets there again. -/
theorem quiescence_sufficient {labels : List Thread.Action} {state : State}
    (run : (system session).Run labels state) (few : liveGuards state.threads < 2 ^ 32)
    (quiescent : Quiescent session state) :
    Clear session state ∧
      ∀ labels' after, (system session).Path { state with patched := false } labels' after →
        Clear session after := by
  have invariant := Run.invariant run
  have outside := invariant.outside few quiescent
  have elsewhere : Clear session state := by
    intro thread member frame inside
    have located := (invariant.valid thread member).located frame inside
    rw [Frame.Located, outside thread member frame inside] at located
    exact located
  refine ⟨elsewhere, fun labels' after path => ?_⟩
  have unhooked : Unhooked session { state with patched := false } :=
    ⟨rfl, fun thread member frame inside =>
      ⟨outside thread member frame inside, elsewhere thread member frame inside⟩⟩
  have still := @Transition.System.Path.invariant _ _ _ (fun _ state => Unhooked session state) []
    _ _ _ path unhooked fun _ _ _ _ held step => Unhooked.step held step
  exact fun thread member frame inside => (still.outside thread member frame inside).2

/-! ## As many guards as the counter has values -/

namespace Sample

/-- Hooked calls that call the hooked function again before they return. -/
def callers : Nat → Thread
  | 0 => []
  | depth + 1 =>
      ⟨.guarded DebugSession.Sample.firstHook, 0x90100⟩ :: ⟨.outside, 0x31020⟩ :: callers depth

/-- A thread in the original function, so many hooked calls deep. -/
def nested (depth : Nat) : State :=
  { threads := [⟨.outside, 0x31020⟩ :: callers depth]
    activeHookCalls := BitVec.ofNat 32 depth
    patched := true }

theorem step_only {session : DebugSession} {thread next : Thread} {action : Thread.Action}
    {activeHookCalls : BitVec 32}
    (step : Thread.Step session true thread action next) :
    (system session).step ⟨[thread], activeHookCalls, true⟩ action
      ⟨[next], count activeHookCalls action, true⟩ :=
  @Step.thread session ⟨[thread], activeHookCalls, true⟩ [] [] thread next action rfl step

theorem not_freed : ¬DebugSession.Sample.attached.Freed 0x31020 := by
  rintro (⟨_, lower, _⟩ | ⟨hook, member, lower, _⟩ | ⟨bypass, member, _, lower, _⟩)
  · exact absurd lower (by decide)
  · revert lower
    simp only [DebugSession.Sample.attached, List.mem_cons, List.not_mem_nil, or_false] at member
    rcases member with rfl | rfl <;> decide
  · revert lower
    simp only [DebugSession.bypasses, List.mem_cons, List.not_mem_nil, or_false] at member
    rcases member with rfl | rfl <;> decide

theorem inHookImage : DebugSession.Sample.attached.InHookImage 0x90100 := by
  unfold DebugSession.InHookImage
  decide

/-- A call of the hooked function up to the construction of its guard. -/
theorem path_guarded (rest : Thread) (activeHookCalls : BitVec 32) :
    (system DebugSession.Sample.attached).Path
      ⟨[⟨.outside, 0x31020⟩ :: rest], activeHookCalls, true⟩ [.silent, .silent, .increment]
      ⟨[⟨.guarded DebugSession.Sample.firstHook, 0x90100⟩ :: ⟨.outside, 0x31020⟩ :: rest],
        activeHookCalls + 1, true⟩ := by
  have entry : Frame.Located DebugSession.Sample.attached
      ⟨.entry DebugSession.Sample.firstHook, 0x31000⟩ :=
    ⟨List.mem_cons_self, by unfold InstalledHook.InPatch; decide⟩
  have called : Thread.Step DebugSession.Sample.attached true (⟨.outside, 0x31020⟩ :: rest)
      .silent (⟨.entry DebugSession.Sample.firstHook, 0x31000⟩ :: ⟨.outside, 0x31020⟩ :: rest) :=
    .calls trivial rfl entry
  refine .cons (step_only called) (.cons (step_only (.enters inHookImage)) ?_)
  exact .single (step_only (.constructs inHookImage))

/-- One more hooked call. -/
theorem path_deeper (depth : Nat) :
    (system DebugSession.Sample.attached).Path (nested depth)
      ([.silent, .silent, .increment] ++ [.silent, .silent]) (nested (depth + 1)) := by
  have counted : BitVec.ofNat 32 (depth + 1) = BitVec.ofNat 32 depth + 1 :=
    BitVec.ofNat_add depth 1
  have original : Thread.Step DebugSession.Sample.attached true (callers (depth + 1)) .silent
      (⟨.trampoline DebugSession.Sample.firstHook, 0xE0000⟩ :: callers (depth + 1)) :=
    .callsOriginal List.mem_cons_self
  have behind : Thread.Step DebugSession.Sample.attached true
      (⟨.trampoline DebugSession.Sample.firstHook, 0xE0000⟩ :: callers (depth + 1)) .silent
      (⟨.outside, 0x31020⟩ :: callers (depth + 1)) :=
    .jumps trivial trivial not_freed
  refine .trans (path_guarded (callers depth) _) ?_
  rw [nested, counted]
  exact .cons (step_only original) (.single (step_only behind))

theorem run_nested (depth : Nat) :
    ∃ labels, (system DebugSession.Sample.attached).Run labels (nested depth) := by
  induction depth with
  | zero =>
      refine ⟨[], .start ⟨rfl, fun thread member frame inside => ?_⟩⟩
      rw [List.mem_singleton.mp member] at inside
      rw [List.mem_singleton.mp inside]
      exact ⟨rfl, not_freed⟩
  | succ depth inductionHypothesis =>
      obtain ⟨labels, run⟩ := inductionHypothesis
      exact ⟨_, run.extend (path_deeper depth)⟩

theorem quiescent_of_overflow {depth : Nat} (overflow : BitVec.ofNat 32 depth = 0) :
    Quiescent DebugSession.Sample.attached (nested depth) := by
  refine ⟨overflow, fun thread member frame isTop => ?_⟩
  rw [List.mem_singleton.mp member] at isTop
  cases isTop
  decide

theorem not_clear {depth : Nat} (positive : 0 < depth) :
    ¬Clear DebugSession.Sample.attached (nested depth) := by
  intro clear
  obtain ⟨depth, rfl⟩ := Nat.exists_eq_succ_of_ne_zero (Nat.ne_of_gt positive)
  exact clear _ List.mem_cons_self ⟨.guarded DebugSession.Sample.firstHook, 0x90100⟩
    (List.mem_cons_of_mem _ List.mem_cons_self) (Or.inl inHookImage)

end Sample

/-- A hooked call has come and gone again. -/
theorem quiescence_sufficient_sample :
    Clear DebugSession.Sample.attached (Sample.nested 0) := by
  obtain ⟨labels, run⟩ := Sample.run_nested 0
  have destroyed : Thread.Step DebugSession.Sample.attached true (Sample.callers 1) .decrement
      [⟨.epilogue DebugSession.Sample.firstHook, 0x90100⟩, ⟨.outside, 0x31020⟩] :=
    .destroys Sample.inHookImage
  have gone : (system DebugSession.Sample.attached).Path (Sample.nested 0)
      ([.silent, .silent, .increment] ++ [.decrement, .silent]) (Sample.nested 0) :=
    .trans (Sample.path_guarded [] 0)
      (.cons (Sample.step_only destroyed) (.single (Sample.step_only .leaves)))
  have few : liveGuards (Sample.nested 0).threads < 2 ^ 32 := by decide
  exact (quiescence_sufficient (run.extend gone) few (Sample.quiescent_of_overflow rfl)).1

/-- After `2 ^ 32` nested calls the counter is back at zero. -/
theorem quiescent_while_calling :
    ¬∀ (session : DebugSession) (labels : List Thread.Action) (state : State),
      (system session).Run labels state → Quiescent session state → Clear session state := by
  intro claim
  obtain ⟨labels, run⟩ := Sample.run_nested (2 ^ 32)
  have overflow : BitVec.ofNat 32 (2 ^ 32) = 0 := by decide
  exact Sample.not_clear (Nat.two_pow_pos 32)
    (claim _ labels _ run (Sample.quiescent_of_overflow overflow))

end HookCalls

end ApiScope
