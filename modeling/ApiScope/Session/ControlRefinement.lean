import ApiScope.Session.Control

/-!
# The session conducts itself as a debugger

Whatever the target does, and whichever calls fail, the calls of `Run` and `Attach`
follow the rules of `Debugger`.
-/

namespace ApiScope

namespace DebugSession

open Debugger

namespace EventLoop

/-! ## Closing the handles of an event -/

theorem log_closeIfOpen (handle : Nat) :
    (closeIfOpen handle).log = ([handle].filter (· ≠ 0)).map ControlAction.closeHandle := by
  unfold closeIfOpen
  split_ifs with isOpen
  · rw [List.filter_cons_of_pos (by simpa using isOpen)]
    rfl
  · rw [List.filter_cons_of_neg (by simpa using isOpen)]
    rfl

theorem log_closeDebugEventHandles (event : DEBUG_EVENT) :
    (CloseDebugEventHandles event).log = event.handles.map ControlAction.closeHandle := by
  obtain ⟨processId, threadId, info⟩ := event
  have append : ∀ first rest : List Nat, (first ++ rest).filter (· ≠ 0) =
      first.filter (· ≠ 0) ++ rest.filter (· ≠ 0) := fun _ _ => List.filter_append ..
  cases info with
  | createProcess image hFile hThread hProcess =>
      have split : [hFile, hThread, hProcess] = [hFile] ++ ([hThread] ++ [hProcess]) := rfl
      simp only [CloseDebugEventHandles, DEBUG_EVENT.handles, Logged.log_bind, log_closeIfOpen]
      rw [split, append, append, List.map_append, List.map_append]
  | createThread hThread => exact log_closeIfOpen hThread
  | loadDll image hFile => exact log_closeIfOpen hFile
  | unloadDll | exception | exitProcess | other => rfl

theorem path_closeHandles {debugger : Debugger} {held : HeldEvent} {handles : List Nat}
    (holding : debugger.held = some held) (left : held.handles = handles) :
    Debugger.system.Path debugger (handles.map ControlAction.closeHandle)
      { debugger with held := some { held with handles := [] } } := by
  induction handles generalizing debugger held with
  | nil =>
      have same : { debugger with held := some { held with handles := [] } } = debugger := by
        rw [← left, ← holding]
      rw [same]
      exact .refl debugger
  | cons handle handles inductionHypothesis =>
      exact .cons (.closeEventHandle holding left)
        (@inductionHypothesis { debugger with held := some { held with handles := handles } }
          { held with handles := handles } rfl rfl)

/-! ## Where the loop stands -/

/-- At the head of the loop. -/
structure Awaits (locals : Locals) (debugger : Debugger) : Prop where
  process : locals.process ≠ 0
  opened : debugger.opened = [locals.process]
  debugged : debugger.debugged = some locals.session.processId
  handlerSet : debugger.handlerSet = true
  tracing : debugger.tracing = true
  held : debugger.held = none
  stopping : debugger.stopping = locals.session.stopBreakRequested
  breakIns : debugger.stopping = true → 0 < debugger.breakIns
  breakpointSeen : debugger.breakpointSeen = locals.session.initialBreakpointSeen
  cleaned : debugger.cleaned = false
  succeeded : debugger.succeeded = false
  result : locals.result = 1
  unfinished : locals.finished = false
  unnatural : locals.naturalExit = false

theorem Awaits.mayWait {locals : Locals} {debugger : Debugger} (awaits : Awaits locals debugger) :
    debugger.MayWait :=
  ⟨awaits.held, by simp [awaits.debugged], awaits.handlerSet, awaits.tracing, awaits.breakIns⟩

/-- Behind the loop. -/
structure Left (locals : Locals) (debugger : Debugger) : Prop where
  process : locals.process ≠ 0
  opened : debugger.opened = [locals.process]
  handlerSet : debugger.handlerSet = true
  held : ∀ held, debugger.held = some held → held.refused = true ∧ held.handles = []
  natural : locals.naturalExit = true → debugger.tracing = false
  finished : locals.finished = true →
    debugger.debugged = none ∧ locals.result = if debugger.succeeded then 0 else 1
  broken : locals.finished = false →
    debugger.debugged = some locals.session.processId ∧ debugger.cleaned = false ∧
      debugger.succeeded = false ∧ locals.result = 1

/-- The loop goes on, or it has been left. -/
def Stands (outcome : Bool × Locals) (debugger : Debugger) : Prop :=
  if outcome.1 = true ∧ outcome.2.finished = false then Awaits outcome.2 debugger
  else Left outcome.2 debugger

/-- The loop has been left, or the turns are used up. -/
def Ends (outcome : Bool × Locals) (debugger : Debugger) : Prop :=
  if outcome.1 then Left outcome.2 debugger else Awaits outcome.2 debugger

/-! ## One event -/

/-- The event that the loop has in hand. -/
def inHand (event : DEBUG_EVENT) (verdict : Verdict) (cleaned : Bool) : HeldEvent :=
  ⟨event, event.handles, verdict.continueStatus, cleaned, false⟩

/-- The event is in hand and the `switch` has decided. -/
structure Decided (event : DEBUG_EVENT) (verdict : Verdict) (locals : Locals)
    (debugger : Debugger) : Prop where
  process : locals.process ≠ 0
  opened : debugger.opened = [locals.process]
  handlerSet : debugger.handlerSet = true
  held : debugger.held = some (inHand event verdict false)
  stopping : debugger.stopping = locals.session.stopBreakRequested
  breakpointSeen : debugger.breakpointSeen = locals.session.initialBreakpointSeen
  cleaned : debugger.cleaned = false
  cleanStop : verdict.cleanStop = true →
    event.isBreakpoint = true ∧ debugger.stopping = true ∧ verdict.eventOk = true
  retry : verdict.retryCleanStop = true →
    event.isBreakpoint = true ∧ debugger.stopping = true ∧ verdict.leaves = false
  notOk : verdict.eventOk = false → event.isBreakpoint = false
  breakIns : debugger.stopping = true → 0 < debugger.breakIns ∨ verdict.retryCleanStop = true ∨
    verdict.cleanStop = true
  natural : locals.naturalExit = event.exitCode?.isSome
  finished : locals.finished = event.exitCode?.isSome
  staying : event.exitCode? = none → debugger.debugged = some locals.session.processId ∧
    debugger.tracing = true ∧ debugger.succeeded = false ∧ locals.result = 1
  exited : event.exitCode?.isSome = true → debugger.debugged = none ∧ debugger.tracing = false ∧
    verdict.leaves = false ∧ verdict.retryCleanStop = false ∧
    locals.result = if debugger.succeeded then 0 else 1

section Switch

variable {locals : Locals} {debugger : Debugger} {event : DEBUG_EVENT}

theorem Awaits.of_sameControl (awaits : Awaits locals debugger) {next : DebugSession}
    (same : SameControl locals.session next) :
    Awaits { locals with session := next } debugger :=
  { awaits with
    debugged := awaits.debugged.trans (congrArg some same.processId.symm)
    stopping := awaits.stopping.trans same.stopBreakRequested.symm
    breakpointSeen := awaits.breakpointSeen.trans same.initialBreakpointSeen.symm }

theorem isException_of_isBreakpoint (breakpoint : event.isBreakpoint = true) :
    event.isException = true := by
  obtain ⟨processId, threadId, info⟩ := event
  cases info <;> first | rfl | cases breakpoint

/-- An event that is no exception and not the end of the target. -/
theorem decided_quiet (awaits : Awaits locals debugger) (quiet : event.isException = false)
    (alive : event.exitCode? = none) (eventOk : Bool) :
    Decided event { eventOk } locals (debugger.receive event) := by
  have noBreakpoint : event.isBreakpoint = false :=
    Bool.eq_false_iff.mpr fun breakpoint => by
      simp [isException_of_isBreakpoint breakpoint] at quiet
  have status : debugger.statusFor event = DBG_CONTINUE := by simp [statusFor, quiet]
  constructor
  case process => exact awaits.process
  case opened => exact awaits.opened
  case handlerSet => exact awaits.handlerSet
  case held => simp only [receive, status, inHand]
  case stopping => exact awaits.stopping
  case breakpointSeen => simpa [receive, noBreakpoint] using awaits.breakpointSeen
  case cleaned => exact awaits.cleaned
  case cleanStop => exact fun clean => by cases clean
  case retry => exact fun retry => by cases retry
  case notOk => exact fun _ => noBreakpoint
  case breakIns => simpa [receive, noBreakpoint] using awaits.breakIns
  case natural => simpa [alive] using awaits.unnatural
  case finished => simpa [alive] using awaits.unfinished
  case staying =>
    exact fun _ => ⟨by simp [receive, alive, awaits.debugged], awaits.tracing,
      by simp [receive, alive], awaits.result⟩
  case exited => simp [alive]

/-- An exception of the target, or a breakpoint, with the verdict of the source on it. -/
theorem decided_exception (awaits : Awaits locals debugger) (exception : event.isException = true)
    {verdict : Verdict} {next : DebugSession}
    (processId : next.processId = locals.session.processId)
    (status : verdict.continueStatus = debugger.statusFor event)
    (ok : verdict.eventOk = true)
    (stopping : next.stopBreakRequested = locals.session.stopBreakRequested)
    (seen : next.initialBreakpointSeen = (locals.session.initialBreakpointSeen ||
      (event.isBreakpoint && !locals.session.stopBreakRequested)))
    (either : verdict.cleanStop = true → verdict.retryCleanStop = false)
    (asked : verdict.cleanStop = true ∨ verdict.retryCleanStop = true ↔
      event.isBreakpoint = true ∧ locals.session.stopBreakRequested = true) :
    Decided event verdict { locals with session := next } (debugger.receive event) := by
  have alive : event.exitCode? = none := by
    obtain ⟨process, thread, info⟩ := event
    cases info <;> first | rfl | cases exception
  constructor
  case process => exact awaits.process
  case opened => exact awaits.opened
  case handlerSet => exact awaits.handlerSet
  case held => simp only [receive, ← status, inHand]
  case stopping => exact awaits.stopping.trans stopping.symm
  case breakpointSeen =>
    rw [seen, ← awaits.breakpointSeen, ← awaits.stopping]
    rfl
  case cleaned => exact awaits.cleaned
  case cleanStop =>
    intro clean
    obtain ⟨breakpoint, requested⟩ := asked.mp (.inl clean)
    exact ⟨breakpoint, awaits.stopping.trans requested, ok⟩
  case retry =>
    intro retry
    obtain ⟨breakpoint, requested⟩ := asked.mp (.inr retry)
    have dirty : verdict.cleanStop = false := Bool.eq_false_iff.mpr fun clean => by
      simp [either clean] at retry
    exact ⟨breakpoint, awaits.stopping.trans requested, by simp [Verdict.leaves, ok, dirty]⟩
  case notOk => exact fun notOk => by simp [ok] at notOk
  case breakIns =>
    intro isStopping
    by_cases breakpoint : event.isBreakpoint = true
    · exact .inr (asked.mpr ⟨breakpoint, awaits.stopping.symm.trans isStopping⟩).symm
    · exact .inl (by simpa [receive, breakpoint] using awaits.breakIns isStopping)
  case natural => simpa [alive] using awaits.unnatural
  case finished => simpa [alive] using awaits.unfinished
  case staying =>
    exact fun _ => ⟨by simp [receive, alive, awaits.debugged, processId], awaits.tracing,
      by simp [receive, alive], awaits.result⟩
  case exited => simp [alive]

theorem switch_spec (decode : Decoder) (calls : Calls) (event : DEBUG_EVENT)
    (awaits : Awaits locals debugger) :
    ∃ next, Follows (debugger.receive event) (switch decode calls event locals) next ∧
      Decided event (switch decode calls event locals).value.1
        (switch decode calls event locals).value.2 next := by
  obtain ⟨processId, threadId, info⟩ := event
  cases info with
  | createProcess image hFile hThread hProcess =>
      refine ⟨_, follows_pure _, decided_quiet (awaits.of_sameControl ?_) rfl rfl _⟩
      have mapped : SameControl locals.session (locals.session.withImage image) := ⟨rfl, rfl, rfl⟩
      exact mapped.trans (sameControl_HandleCreateProcess decode calls.module image _)
  | loadDll image hFile =>
      refine ⟨_, follows_pure _, decided_quiet (awaits.of_sameControl ?_) rfl rfl _⟩
      have mapped : SameControl locals.session (locals.session.withImage image) := ⟨rfl, rfl, rfl⟩
      exact mapped.trans (sameControl_RegisterModule decode calls.module image _)
  | unloadDll base =>
      have same : SameControl locals.session
          ((locals.session.withoutImage base).HandleUnloadDll calls.module base) := ⟨rfl, rfl, rfl⟩
      exact ⟨_, follows_pure _, decided_quiet (awaits.of_sameControl same) rfl rfl true⟩
  | createThread | other => exact ⟨_, follows_pure _, decided_quiet awaits rfl rfl true⟩
  | exception exceptionCode =>
      have status := awaits.stopping
      have seen := awaits.breakpointSeen
      unfold switch
      dsimp only
      split_ifs with breakpoint requested quiescent first
      · subst breakpoint
        refine ⟨_, follows_pure _, decided_exception awaits rfl rfl ?_ rfl rfl ?_ ?_ ?_⟩
        · simp [statusFor, DEBUG_EVENT.isException, DEBUG_EVENT.isBreakpoint, status, requested]
        · simp [requested]
        · simp
        · simp [DEBUG_EVENT.isBreakpoint, requested]
      · subst breakpoint
        refine ⟨_, follows_pure _, decided_exception awaits rfl rfl ?_ rfl rfl ?_ ?_ ?_⟩
        · simp [statusFor, DEBUG_EVENT.isException, DEBUG_EVENT.isBreakpoint, status, requested]
        · simp [requested]
        · simp
        · simp [DEBUG_EVENT.isBreakpoint, requested]
      · subst breakpoint
        have unseen : locals.session.initialBreakpointSeen = false := by simpa using first
        refine ⟨_, follows_pure _, decided_exception awaits rfl rfl ?_ rfl rfl ?_ ?_ ?_⟩
        · simp [statusFor, DEBUG_EVENT.isException, DEBUG_EVENT.isBreakpoint, seen, unseen]
        · simp [DEBUG_EVENT.isBreakpoint, requested]
        · simp
        · simp [requested]
      · subst breakpoint
        have again : locals.session.initialBreakpointSeen = true := by simpa using first
        refine ⟨_, follows_pure _, decided_exception awaits rfl rfl ?_ rfl rfl ?_ ?_ ?_⟩
        · simp [statusFor, DEBUG_EVENT.isException, DEBUG_EVENT.isBreakpoint, status, requested,
            seen, again]
        · simp [again]
        · simp
        · simp [requested]
      · have other : (exceptionCode == EXCEPTION_BREAKPOINT) = false := by simpa using breakpoint
        refine ⟨_, follows_pure _, decided_exception awaits rfl rfl ?_ rfl rfl ?_ ?_ ?_⟩
        · simp [statusFor, DEBUG_EVENT.isException, DEBUG_EVENT.isBreakpoint, other]
        · simp [DEBUG_EVENT.isBreakpoint, other]
        · simp
        · simp [DEBUG_EVENT.isBreakpoint, other]
  | exitProcess exitCode =>
      refine ⟨_, follows_emit (.drain rfl (by simp [DEBUG_EVENT.exitCode?]) awaits.tracing), ?_⟩
      constructor
      case process => exact awaits.process
      case opened => exact awaits.opened
      case handlerSet => exact awaits.handlerSet
      case held => rfl
      case stopping => exact awaits.stopping
      case breakpointSeen =>
        exact (Bool.or_false _).trans awaits.breakpointSeen
      case cleaned => exact awaits.cleaned
      case cleanStop => exact fun clean => by cases clean
      case retry => exact fun retry => by cases retry
      case notOk => exact fun _ => rfl
      case breakIns => exact fun isStopping => .inl (awaits.breakIns isStopping)
      case natural => rfl
      case finished => rfl
      case staying => exact fun alive => by cases alive
      case exited =>
        refine fun _ => ⟨rfl, rfl, rfl, rfl, ?_⟩
        have zero : (receive debugger ⟨processId, threadId, .exitProcess exitCode⟩).succeeded =
            (exitCode == 0) := rfl
        simp [switch, zero]

end Switch

/-! ## From the verdict to the end of the turn -/

section Conclude

variable {locals : Locals} {debugger : Debugger} {event : DEBUG_EVENT} {verdict : Verdict}

theorem follows_closeDebugEventHandles {held : HeldEvent} (holding : debugger.held = some held)
    (untouched : held.handles = event.handles) :
    Follows debugger (CloseDebugEventHandles event)
      { debugger with held := some { held with handles := [] } } := by
  unfold Follows
  rw [log_closeDebugEventHandles]
  exact path_closeHandles holding untouched

theorem conclude_refused {turn : Turn} {cleaned : Bool} (refused : turn.continued = false)
    (holding : debugger.held = some (inHand event verdict cleaned)) :
    Follows debugger (conclude turn event verdict locals)
        { debugger with
          held := some ⟨event, [], verdict.continueStatus, cleaned, true⟩ } ∧
      (conclude turn event verdict locals).value = (false, locals) := by
  have closing := follows_closeDebugEventHandles holding rfl
  have refusing := @Debugger.Step.continueFailed
    { debugger with held := some { inHand event verdict cleaned with handles := [] } }
    { inHand event verdict cleaned with handles := [] } rfl rfl
  unfold conclude
  rw [refused]
  exact ⟨follows_bind closing (follows_bind (follows_emit refusing) (follows_pure _)), rfl⟩

/-- What is left to do once the event has been continued. -/
def afterwards (turn : Turn) (verdict : Verdict) (locals : Locals) :
    Logged ControlAction (Bool × Locals) := do
  let retried ← retry turn verdict locals
  if !retried then pure (false, locals) else detach turn verdict locals

theorem conclude_continued {turn : Turn} {cleaned : Bool} {next : Debugger}
    (continued : turn.continued = true)
    (holding : debugger.held = some (inHand event verdict cleaned))
    (rest : Follows { debugger with held := none, cleaned := cleaned && event.isBreakpoint }
      (afterwards turn verdict locals) next) :
    Follows debugger (conclude turn event verdict locals) next ∧
      (conclude turn event verdict locals).value = (afterwards turn verdict locals).value := by
  have closing := follows_closeDebugEventHandles holding rfl
  have continuing := @Debugger.Step.continueEvent
    { debugger with held := some { inHand event verdict cleaned with handles := [] } }
    { inHand event verdict cleaned with handles := [] } rfl rfl
  unfold conclude
  rw [continued]
  exact ⟨follows_bind closing (follows_bind (follows_emit continuing) rest), rfl⟩

theorem cleanup_of_leaves {turn : Turn} (leaves : verdict.leaves = true) :
    cleanup turn verdict locals = Logged.emit .cleanupRemote
      { locals with session := (locals.session.CleanupRemote turn.cleanup).2 } := by
  unfold cleanup
  rw [if_pos leaves]

theorem cleanup_of_stays {turn : Turn} (stays : verdict.leaves = false) :
    cleanup turn verdict locals = pure locals := by
  unfold cleanup
  rw [if_neg (by simp [stays])]

theorem afterwards_of_leaves {turn : Turn} (leaves : verdict.leaves = true)
    (once : verdict.retryCleanStop = false) :
    afterwards turn verdict locals = Logged.emit
      (.debugActiveProcessStop locals.session.processId turn.detached)
      (true, { locals with
        session := { locals.session with debugActive := false }
        result := if verdict.cleanStop then 0 else 1
        finished := true }) := by
  unfold afterwards retry detach
  rw [if_neg (by simp [once]), if_pos leaves]
  rfl

theorem afterwards_of_stays {turn : Turn} (stays : verdict.leaves = false)
    (once : verdict.retryCleanStop = false) :
    afterwards turn verdict locals = pure (true, locals) := by
  unfold afterwards retry detach
  rw [if_neg (by simp [once]), if_neg (by simp [stays])]
  rfl

theorem afterwards_of_retries {turn : Turn} (stays : verdict.leaves = false)
    (retries : verdict.retryCleanStop = true) :
    afterwards turn verdict locals = Logged.emit (.debugBreakProcess locals.process turn.retryBreak)
      (turn.retryBreak, locals) := by
  unfold afterwards retry detach
  rw [if_pos retries, if_neg (by simp [stays])]
  cases turn.retryBreak <;> rfl

/-- The target has been told to stop, or one of its events could not be handled. -/
theorem conclude_leaving (turn : Turn) (decided : Decided event verdict locals debugger)
    (leaves : verdict.leaves = true) :
    ∃ next, Follows debugger
        (cleanup turn verdict locals >>= conclude turn event verdict) next ∧
      Stands (cleanup turn verdict locals >>= conclude turn event verdict).value next := by
  have alive : event.exitCode? = none := by
    by_contra ended
    have stays := (decided.exited (Option.isSome_iff_ne_none.mpr ended)).2.2.1
    simp [stays] at leaves
  have once : verdict.retryCleanStop = false := Bool.eq_false_iff.mpr fun retry => by
    simp [(decided.retry retry).2.2] at leaves
  have clean : event.isBreakpoint = verdict.cleanStop := by
    cases stop : verdict.cleanStop with
    | true => exact (decided.cleanStop stop).1
    | false => exact decided.notOk (by simpa [Verdict.leaves, stop] using leaves)
  have asked : event.isBreakpoint = true → debugger.stopping = true := fun breakpoint =>
    (decided.cleanStop (clean ▸ breakpoint)).2.1
  obtain ⟨debugged, -, lost, result⟩ := decided.staying alive
  have unfinished : locals.finished = false := by simp [decided.finished, alive]
  rw [cleanup_of_leaves leaves]
  have same := (sameControl_CleanupRemote turn.cleanup locals.session).processId
  generalize (locals.session.CleanupRemote turn.cleanup).2 = session at same
  have still : debugger.debugged = some session.processId :=
    debugged.trans (congrArg some same.symm)
  have cleaning : Follows debugger (Logged.emit .cleanupRemote { locals with session })
      { debugger with tracing := false, held := some (inHand event verdict true) } :=
    follows_emit (.cleanupRemote decided.held rfl alive asked)
  cases continued : turn.continued with
  | false =>
      obtain ⟨refusing, value⟩ := @conclude_refused { locals with session }
        { debugger with tracing := false, held := some (inHand event verdict true) } event verdict
        turn true continued rfl
      refine ⟨_, follows_bind cleaning refusing, ?_⟩
      rw [Logged.value_bind, Logged.value_emit, value]
      refine (if_neg (by simp)).mpr ?_
      exact {
        process := decided.process
        opened := decided.opened
        handlerSet := decided.handlerSet
        held := by
          rintro _ ⟨⟩
          exact ⟨rfl, rfl⟩
        natural := fun _ => rfl
        finished := fun finished => by simp [unfinished] at finished
        broken := fun _ => ⟨still, decided.cleaned, lost, result⟩
      }
  | true =>
      have rest := @afterwards_of_leaves { locals with session } verdict turn leaves once
      have detaching : Follows
          { debugger with tracing := false, held := none, cleaned := event.isBreakpoint }
          (afterwards turn verdict { locals with session })
          { debugger with
            tracing := false
            held := none
            cleaned := event.isBreakpoint
            debugged := none
            succeeded := event.isBreakpoint } := by
        rw [rest]
        exact follows_emit (.detach still)
      obtain ⟨continuing, value⟩ := @conclude_continued { locals with session }
        { debugger with tracing := false, held := some (inHand event verdict true) } event verdict
        turn true _ continued rfl detaching
      refine ⟨_, follows_bind cleaning continuing, ?_⟩
      rw [Logged.value_bind, Logged.value_emit, value, rest]
      refine (if_neg (by simp)).mpr ?_
      exact {
        process := decided.process
        opened := decided.opened
        handlerSet := decided.handlerSet
        held := fun _ holding => by cases holding
        natural := fun _ => rfl
        finished := fun _ => ⟨rfl, by simp only [clean, Logged.value_emit]⟩
        broken := fun unfinished => by cases unfinished
      }

/-- Once the event has been continued the loop may wait again, if a breakpoint is on its way. -/
theorem Decided.awaits (decided : Decided event verdict locals debugger)
    (alive : event.exitCode? = none) {stopping : Bool} {breakIns : Nat}
    (same : stopping = debugger.stopping) (owed : stopping = true → 0 < breakIns) :
    Awaits locals { debugger with held := none, stopping, breakIns, cleaned := false } := by
  have staying := decided.staying alive
  exact {
    process := decided.process
    opened := decided.opened
    debugged := staying.1
    handlerSet := decided.handlerSet
    tracing := staying.2.1
    held := rfl
    stopping := same.trans decided.stopping
    breakIns := owed
    breakpointSeen := decided.breakpointSeen
    cleaned := rfl
    succeeded := staying.2.2.1
    result := staying.2.2.2
    unfinished := by simp [decided.finished, alive]
    unnatural := by simp [decided.natural, alive]
  }

/-- The loop has been left with an event in hand that the system has refused to continue, or
with none. -/
theorem Decided.left (decided : Decided event verdict locals debugger) {held : Option HeldEvent}
    {cleaned : Bool} (dirty : cleaned = false)
    (owed : ∀ holding, held = some holding → holding.refused = true ∧ holding.handles = []) :
    Left locals { debugger with held, cleaned } where
  process := decided.process
  opened := decided.opened
  handlerSet := decided.handlerSet
  held := owed
  natural natural := (decided.exited (decided.natural ▸ natural)).2.1
  finished finished :=
    have exited := decided.exited (decided.finished ▸ finished)
    ⟨exited.1, exited.2.2.2.2⟩
  broken unfinished :=
    have staying := decided.staying (by simpa [decided.finished] using unfinished)
    ⟨staying.1, dirty, staying.2.2.1, staying.2.2.2⟩

theorem stands_broken (left : Left locals debugger) : Stands (false, locals) debugger :=
  (if_neg (by simp)).mpr left

/-- The target goes on, or it has ended by itself. -/
theorem conclude_staying (turn : Turn) (decided : Decided event verdict locals debugger)
    (stays : verdict.leaves = false) :
    ∃ next, Follows debugger (conclude turn event verdict locals) next ∧
      Stands (conclude turn event verdict locals).value next := by
  have dirty : verdict.cleanStop = false := by
    by_contra clean
    simp [Verdict.leaves, clean] at stays
  cases continued : turn.continued with
  | false =>
      obtain ⟨refusing, value⟩ := @conclude_refused locals debugger event verdict turn false
        continued decided.held
      refine ⟨_, refusing, ?_⟩
      rw [value]
      refine stands_broken (decided.left decided.cleaned ?_)
      rintro _ ⟨⟩
      exact ⟨rfl, rfl⟩
  | true =>
      have continuing := fun next => @conclude_continued locals debugger event verdict turn false
        next continued decided.held
      cases retries : verdict.retryCleanStop with
      | false =>
          have rest := @afterwards_of_stays locals verdict turn stays retries
          obtain ⟨going, value⟩ := continuing _ (by rw [rest]; exact follows_pure _)
          refine ⟨_, going, ?_⟩
          rw [value, rest]
          cases ended : event.exitCode?.isSome with
          | false =>
              refine (if_pos ⟨rfl, decided.finished.trans ended⟩).mpr
                (decided.awaits (by simpa using ended) rfl fun stopping => ?_)
              simpa [retries, dirty] using decided.breakIns stopping
          | true =>
              exact (if_neg (by simp [decided.finished, ended])).mpr
                (decided.left rfl fun _ holding => by cases holding)
      | true =>
          obtain ⟨-, stopping, -⟩ := decided.retry retries
          have alive : event.exitCode? = none := by
            by_contra ended
            have once := (decided.exited (Option.isSome_iff_ne_none.mpr ended)).2.2.2.1
            simp [once] at retries
          have debugged := (decided.staying alive).1
          have own : locals.process ∈ debugger.opened := by simp [decided.opened]
          have rest := @afterwards_of_retries locals verdict turn stays retries
          cases retryBreak : turn.retryBreak with
          | false =>
              rw [retryBreak] at rest
              obtain ⟨going, value⟩ := continuing { debugger with held := none, cleaned := false }
                (by rw [rest]; exact follows_emit (.breakInFailed rfl (by simp [debugged]) own))
              refine ⟨_, going, ?_⟩
              rw [value, rest]
              exact stands_broken (decided.left rfl fun _ holding => by cases holding)
          | true =>
              rw [retryBreak] at rest
              obtain ⟨going, value⟩ := continuing { debugger with
                held := none, stopping := true, breakIns := debugger.breakIns + 1, cleaned := false }
                (by rw [rest]; exact follows_emit (.breakIn rfl (by simp [debugged]) own))
              refine ⟨_, going, ?_⟩
              rw [value, rest]
              exact (if_pos ⟨rfl, by simp [decided.finished, alive]⟩).mpr
                (decided.awaits alive stopping.symm fun _ => Nat.succ_pos _)

theorem conclude_spec (turn : Turn) (decided : Decided event verdict locals debugger) :
    ∃ next, Follows debugger
        (cleanup turn verdict locals >>= conclude turn event verdict) next ∧
      Stands (cleanup turn verdict locals >>= conclude turn event verdict).value next := by
  cases leaves : verdict.leaves with
  | true => exact conclude_leaving turn decided leaves
  | false =>
      obtain ⟨next, follows, stands⟩ := conclude_staying turn decided leaves
      rw [cleanup_of_stays leaves]
      exact ⟨next, follows_bind (follows_pure _) follows, stands⟩

end Conclude

/-! ## Whole turns -/

section Turns

variable {locals : Locals} {debugger : Debugger}

/-- The target has run up to an event. -/
theorem handle_spec (decode : Decoder) (turn : Turn) (event : DEBUG_EVENT)
    (awaits : Awaits locals debugger) :
    ∃ next, Follows (debugger.receive event) (handle decode turn event locals) next ∧
      Stands (handle decode turn event locals).value next := by
  have same : SameControl locals.session (resumed locals.session turn.memory) := ⟨rfl, rfl, rfl⟩
  obtain ⟨middle, switching, decided⟩ :=
    switch_spec decode turn.calls event (awaits.of_sameControl same)
  obtain ⟨next, concluding, stands⟩ := conclude_spec turn decided
  exact ⟨next, follows_bind switching concluding, stands⟩

theorem Awaits.left (awaits : Awaits locals debugger) : Left locals debugger where
  process := awaits.process
  opened := awaits.opened
  handlerSet := awaits.handlerSet
  held holding isHeld := by simp [awaits.held] at isHeld
  natural natural := by simp [awaits.unnatural] at natural
  finished finished := by simp [awaits.unfinished] at finished
  broken _ := ⟨awaits.debugged, awaits.cleaned, awaits.succeeded, awaits.result⟩

theorem requestStop_spec (turn : Turn) (awaits : Awaits locals debugger) :
    ∃ next, Follows debugger (requestStop turn locals) next ∧
      Awaits (requestStop turn locals).value.2 next := by
  have own : locals.process ∈ debugger.opened := by simp [awaits.opened]
  have debugged : debugger.debugged ≠ none := by simp [awaits.debugged]
  unfold requestStop
  split_ifs with asked broken
  · have failed : turn.debugBreak = false := by simpa using broken
    rw [failed]
    exact ⟨debugger, follows_emit (.breakInFailed awaits.held debugged own), awaits⟩
  · have succeeded : turn.debugBreak = true := by simpa using broken
    rw [succeeded]
    exact ⟨_, follows_emit (.breakIn awaits.held debugged own),
      { awaits with stopping := rfl, breakIns := fun _ => Nat.succ_pos _ }⟩
  · exact ⟨debugger, follows_pure _, awaits⟩

theorem turn_spec (decode : Decoder) (turn : Turn) (awaits : Awaits locals debugger) :
    ∃ next, Follows debugger (EventLoop.turn decode turn locals) next ∧
      Stands (EventLoop.turn decode turn locals).value next := by
  obtain ⟨middle, requesting, still⟩ := requestStop_spec turn awaits
  unfold EventLoop.turn
  generalize requestStop turn locals = request at requesting still ⊢
  obtain ⟨⟨goesOn, locals⟩, log⟩ := request
  cases goesOn with
  | false => exact ⟨middle, follows_bind requesting (follows_pure _), stands_broken still.left⟩
  | true =>
      cases waited : turn.waited with
      | timedOut =>
          refine ⟨middle, follows_bind requesting
            (follows_bind (follows_emit (.timedOut still.mayWait)) (follows_pure _)), ?_⟩
          exact (if_pos ⟨rfl, still.unfinished⟩).mpr still
      | failed =>
          exact ⟨middle, follows_bind requesting
            (follows_bind (follows_emit (.waitFailed still.mayWait)) (follows_pure _)),
            stands_broken still.left⟩
      | event event =>
          obtain ⟨next, handling, stands⟩ := handle_spec decode turn event still
          exact ⟨next, follows_bind requesting
            (follows_bind (follows_emit (.event still.mayWait)) handling), stands⟩

theorem turns_spec (decode : Decoder) (turns : List Turn) (awaits : Awaits locals debugger) :
    ∃ next, Follows debugger (EventLoop.turns decode turns locals) next ∧
      Ends (EventLoop.turns decode turns locals).value next := by
  induction turns generalizing locals debugger with
  | nil => exact ⟨debugger, follows_pure _, awaits⟩
  | cons first rest inductionHypothesis =>
      obtain ⟨middle, turning, stands⟩ := turn_spec decode first awaits
      unfold EventLoop.turns
      generalize EventLoop.turn decode first locals = outcome at turning stands ⊢
      obtain ⟨⟨goesOn, locals⟩, log⟩ := outcome
      by_cases stays : goesOn = true ∧ locals.finished = false
      · obtain ⟨next, following, ends⟩ := inductionHypothesis ((if_pos stays).mp stands)
        have goes : ¬(!goesOn || locals.finished) = true := by simp [stays]
        refine ⟨next, follows_bind turning ?_, ?_⟩
        · dsimp only
          rw [if_neg goes]
          exact following
        · dsimp only [Logged.value_bind]
          rw [if_neg goes]
          exact ends
      · have leaves : (!goesOn || locals.finished) = true := by
          cases goesOn <;> simp_all
        refine ⟨middle, follows_bind turning ?_, ?_⟩
        · dsimp only
          rw [if_pos leaves]
          exact follows_pure _
        · dsimp only [Logged.value_bind]
          rw [if_pos leaves]
          exact (if_neg stays).mp stands

end Turns

/-! ## Behind the loop -/

/-- The console handler is gone, and so is the target if it has ever been initialized. -/
structure LetGo (locals : Locals) (debugger : Debugger) : Prop where
  process : locals.process ≠ 0
  opened : debugger.opened = [locals.process]
  handlerSet : debugger.handlerSet = false
  held : ∀ held, debugger.held = some held → held.refused = true ∧ held.handles = []
  natural : locals.naturalExit = true → debugger.tracing = false
  debugged : debugger.debugged ≠ none → locals.session.debugActive = false
  result : locals.result = if debugger.succeeded then 0 else 1

/-- Nothing is left open, and no event is left in hand that could have been continued. -/
structure Released (result : Nat) (session : DebugSession) (debugger : Debugger) : Prop where
  opened : debugger.opened = []
  handlerSet : debugger.handlerSet = false
  held : ∀ held, debugger.held = some held → held.refused = true ∧ held.handles = []
  tracing : debugger.tracing = true → debugger = {}
  debugged : debugger.debugged ≠ none → session.debugActive = false
  result : result = if debugger.succeeded then 0 else 1

section Epilogue

variable {locals : Locals} {debugger : Debugger}

theorem letGo_spec (detached : Bool) (left : Left locals debugger) :
    ∃ next, Follows { debugger with handlerSet := false } (letGo detached locals) next ∧
      LetGo locals next := by
  cases finished : locals.finished with
  | true =>
      obtain ⟨ended, result⟩ := left.finished finished
      refine ⟨{ debugger with handlerSet := false }, ?_, ?_⟩
      · unfold letGo
        rw [if_neg (by simp [finished])]
        exact follows_pure _
      · exact ⟨left.process, left.opened, rfl, left.held, left.natural,
          fun debugged => (debugged ended).elim, result⟩
  | false =>
      obtain ⟨debugged, dirty, lost, result⟩ := left.broken finished
      cases active : locals.session.debugActive with
      | false =>
          refine ⟨{ debugger with handlerSet := false }, ?_, ?_⟩
          · unfold letGo
            rw [if_neg (by simp [active])]
            exact follows_pure _
          · exact ⟨left.process, left.opened, rfl, left.held, left.natural, fun _ => active,
              by simp [result, lost]⟩
      | true =>
          refine ⟨{ debugger with
            handlerSet := false, debugged := none, succeeded := debugger.cleaned }, ?_, ?_⟩
          · unfold letGo
            rw [if_pos (by simp [active, finished])]
            exact follows_emit (.detach debugged)
          · exact ⟨left.process, left.opened, rfl, left.held, left.natural,
              fun debugged => (debugged rfl).elim, by simp [result, dirty]⟩

theorem stopTracing_spec (letGo : LetGo locals debugger) :
    Follows debugger (stopTracing locals) { debugger with tracing := false } ∧
      (stopTracing locals).value.debugActive = locals.session.debugActive := by
  unfold stopTracing
  split_ifs with natural
  · have stopped : { debugger with tracing := false } = debugger := by
      rw [← letGo.natural natural]
    rw [stopped]
    exact ⟨follows_pure _, rfl⟩
  · exact ⟨follows_emit .stop, rfl⟩

theorem epilogue_spec (detached : Bool) (left : Left locals debugger) :
    ∃ next, Follows debugger (epilogue detached locals) next ∧
      Released (epilogue detached locals).value.1 (epilogue detached locals).value.2 next := by
  obtain ⟨alone, letting, letGo⟩ := letGo_spec detached left
  obtain ⟨stopping, active⟩ := stopTracing_spec letGo
  have own : locals.process ∈ alone.opened := by simp [letGo.opened]
  have closing : Follows { alone with tracing := false } (closeIfOpen locals.process)
      { alone with tracing := false, opened := alone.opened.erase locals.process } := by
    unfold closeIfOpen
    rw [if_pos letGo.process]
    exact follows_emit (.closeOwn own)
  refine ⟨_, follows_bind (follows_emit (.resetHandler left.handlerSet)) (follows_bind letting
    (follows_bind stopping (follows_bind closing (follows_pure _)))), ?_⟩
  exact {
    opened := by simp [letGo.opened]
    handlerSet := letGo.handlerSet
    held := letGo.held
    tracing := fun tracing => by cases tracing
    debugged := fun debugged => active.trans (letGo.debugged debugged)
    result := letGo.result
  }

end Epilogue

end EventLoop

open EventLoop

/-! ## The whole session -/

/-- What a debugger is left with: no result yet, or everything given back. -/
def Outcome (outcome : Option Nat × DebugSession) (debugger : Debugger) : Prop :=
  ∀ result, outcome.1 = some result → Released result outcome.2 debugger

theorem eventLoop_spec (decode : Decoder) (turns : List Turn) (detached : Bool) {process : Nat}
    {session : DebugSession} {debugger : Debugger}
    (head : Awaits { session, process } { debugger with handlerSet := true })
    (unset : debugger.handlerSet = false) :
    ∃ next, Follows debugger (EventLoop decode turns detached process session) next ∧
      Outcome (EventLoop decode turns detached process session).value next := by
  obtain ⟨middle, looping, ends⟩ := turns_spec decode turns head
  unfold DebugSession.EventLoop
  generalize EventLoop.turns decode turns { session, process } = outcome at looping ends ⊢
  obtain ⟨⟨left, locals⟩, log⟩ := outcome
  have setting := @follows_emit _ _ _ (.setConsoleCtrlHandler true) () (.setHandler unset)
  cases left with
  | false =>
      exact ⟨middle, follows_bind setting (follows_bind looping (follows_pure _)),
        fun result none => by cases none⟩
  | true =>
      obtain ⟨next, ending, released⟩ := epilogue_spec detached ends
      refine ⟨next, follows_bind setting (follows_bind looping
        (follows_bind ending (follows_pure _))), ?_⟩
      rintro _ ⟨⟩
      exact released

/-- The first time at the head of the loop. -/
theorem awaits_construct (options : CommandLineOptions) (launch : Launch) (processId : Nat)
    {process : Nat} (opened : process ≠ 0) :
    Awaits { session := construct options launch.target processId launch.stopEvent, process }
      { opened := [process], debugged := some processId, handlerSet := true } where
  process := opened
  opened := rfl
  debugged := rfl
  handlerSet := rfl
  tracing := rfl
  held := rfl
  stopping := rfl
  breakIns stopping := by cases stopping
  breakpointSeen := rfl
  cleaned := rfl
  succeeded := rfl
  result := rfl
  unfinished := rfl
  unnatural := rfl

/-- Nothing has come of it. -/
theorem released_failed (session : DebugSession) : Released 1 session {} where
  opened := rfl
  handlerSet := rfl
  held _ holding := by cases holding
  tracing _ := rfl
  debugged debugged := (debugged rfl).elim
  result := rfl

theorem run_spec (decode : Decoder) (options : CommandLineOptions) (launch : Launch)
    (processInfo : Option ProcessInformation) :
    ∃ next, Follows {} (Run decode options launch processInfo) next ∧
      Outcome (Run decode options launch processInfo).value next := by
  cases processInfo with
  | none =>
      refine ⟨{}, follows_bind (follows_emit .createProcessFailed) (follows_pure _), ?_⟩
      rintro _ ⟨⟩
      exact released_failed _
  | some processInfo =>
      have closing := @Debugger.Step.closeOwn
        { opened := [processInfo.hThread, processInfo.hProcess]
          debugged := some processInfo.processId } processInfo.hThread List.mem_cons_self
      simp only [List.erase_cons_head] at closing
      have head := awaits_construct options launch processInfo.processId
        processInfo.process_ne_zero
      obtain ⟨next, looping, outcome⟩ := @eventLoop_spec decode launch.turns launch.detached _ _
        { opened := [processInfo.hProcess], debugged := some processInfo.processId } head rfl
      exact ⟨next, follows_bind (follows_emit (.createProcess rfl))
        (follows_bind (follows_emit closing) looping), outcome⟩

theorem attach_spec (decode : Decoder) (options : CommandLineOptions) (launch : Launch)
    (process : Nat) (attached : Bool) :
    ∃ next, Follows {} (Attach decode options launch process attached) next ∧
      Outcome (Attach decode options launch process attached).value next := by
  unfold Attach
  dsimp only
  split_ifs with refused denied
  · subst refused
    refine ⟨{}, follows_bind (follows_emit .openProcessFailed) (follows_pure _), ?_⟩
    rintro _ ⟨⟩
    exact released_failed _
  · have failed : attached = false := by simpa using denied
    subst failed
    have closing := @Debugger.Step.closeOwn { opened := [process] } process List.mem_cons_self
    simp only [List.erase_cons_head] at closing
    refine ⟨{}, follows_bind (follows_emit (.openProcess refused))
      (follows_bind (follows_emit .debugActiveProcessFailed)
        (follows_bind (follows_emit closing) (follows_pure _))), ?_⟩
    rintro _ ⟨⟩
    exact released_failed _
  · have succeeded : attached = true := by simpa using denied
    subst succeeded
    have head := awaits_construct options launch options.targetProcessId refused
    obtain ⟨next, looping, outcome⟩ := @eventLoop_spec decode launch.turns launch.detached _ _
      { opened := [process], debugged := some options.targetProcessId } head rfl
    exact ⟨next, follows_bind (follows_emit (.openProcess refused))
      (follows_bind (follows_emit (.debugActiveProcess rfl)) looping), outcome⟩

end DebugSession

/-! ## What the calls add up to -/

namespace ControlAction

/-- The handles that a call has handed out. -/
def obtained : ControlAction → List Nat
  | .createProcess _ _ (some processInfo) => [processInfo.hThread, processInfo.hProcess]
  | .openProcess _ process => if process ≠ 0 then [process] else []
  | .waitForDebugEvent (.event event) => event.handles
  | _ => []

def closed : ControlAction → List Nat
  | .closeHandle handle => [handle]
  | _ => []

/-- The process and the thread of an event that has stopped the target. -/
def received : ControlAction → List (Nat × Nat)
  | .waitForDebugEvent (.event event) => [(event.processId, event.threadId)]
  | _ => []

/-- The process and the thread that have been told to go on. -/
def continued : ControlAction → List (Nat × Nat)
  | .continueDebugEvent processId threadId _ true => [(processId, threadId)]
  | _ => []

/-- The process and the thread that the system has refused to continue. -/
def refused : ControlAction → List (Nat × Nat)
  | .continueDebugEvent processId threadId _ false => [(processId, threadId)]
  | _ => []

end ControlAction

namespace Debugger

/-- The handles of the event in hand that are still open. -/
def owed (debugger : Debugger) : List Nat := debugger.held.elim [] HeldEvent.handles

def pending (debugger : Debugger) : List (Nat × Nat) :=
  debugger.held.elim [] fun held => [(held.event.processId, held.event.threadId)]

/-- The event in hand that cannot be continued. -/
def stuck (debugger : Debugger) : List (Nat × Nat) :=
  debugger.held.elim [] fun held =>
    if held.refused then [(held.event.processId, held.event.threadId)] else []

/-- What has been handed out is what has been given back and what is still owed. -/
structure Ledger (history : List ControlAction) (debugger : Debugger) : Prop where
  handles : ∀ handle, (history.flatMap ControlAction.obtained).count handle =
    (history.flatMap ControlAction.closed).count handle + debugger.opened.count handle +
      debugger.owed.count handle
  events : history.flatMap ControlAction.received =
    history.flatMap ControlAction.continued ++ debugger.pending
  stuck : ∀ ids ∈ debugger.stuck, ids ∈ history.flatMap ControlAction.refused

/-- What a single call adds to the account. -/
structure Balances (debugger : Debugger) (action : ControlAction) (next : Debugger) : Prop where
  handles : ∀ handle, action.obtained.count handle + debugger.opened.count handle +
      debugger.owed.count handle =
    action.closed.count handle + next.opened.count handle + next.owed.count handle
  events : debugger.pending ++ action.received = action.continued ++ next.pending
  stuck : ∀ ids ∈ next.stuck, ids ∈ debugger.stuck ∨ ids ∈ action.refused

variable {debugger next : Debugger} {action : ControlAction}

theorem Ledger.snoc {history : List ControlAction} (ledger : Ledger history debugger)
    (balances : Balances debugger action next) : Ledger (history ++ [action]) next where
  handles handle := by
    have before := ledger.handles handle
    have taken := balances.handles handle
    simp only [List.flatMap_append, List.flatMap_singleton, List.count_append]
    omega
  events := by
    simp only [List.flatMap_append, List.flatMap_singleton, ledger.events, List.append_assoc,
      balances.events]
  stuck ids isStuck := by
    simp only [List.flatMap_append, List.flatMap_singleton, List.mem_append]
    exact (balances.stuck ids isStuck).imp_left (ledger.stuck ids)

/-- A call that hands nothing out and takes nothing back. -/
theorem balances_of_same (opened : next.opened = debugger.opened) (owed : next.owed = debugger.owed)
    (pending : next.pending = debugger.pending) (stuck : next.stuck = debugger.stuck)
    (obtained : action.obtained = []) (closed : action.closed = [])
    (received : action.received = []) (continued : action.continued = []) :
    Balances debugger action next where
  handles handle := by simp [obtained, closed, opened, owed]
  events := by simp [received, continued, pending]
  stuck ids isStuck := .inl (stuck ▸ isStuck)

theorem balances_step (step : Step debugger action next) : Balances debugger action next := by
  cases step with
  | createProcess undebugged =>
      refine ⟨fun handle => ?_, by simp [ControlAction.received, ControlAction.continued, pending],
        fun ids isStuck => .inl isStuck⟩
      simp only [ControlAction.obtained, ControlAction.closed, owed, List.count_cons,
        List.count_nil]
      omega
  | openProcess opens =>
      refine ⟨fun handle => ?_, by simp [ControlAction.received, ControlAction.continued, pending],
        fun ids isStuck => .inl isStuck⟩
      simp only [ControlAction.obtained, if_pos opens, ControlAction.closed, owed, List.count_cons,
        List.count_nil]
      omega
  | event mayWait =>
      refine ⟨fun handle => ?_, ?_, fun ids isStuck => by cases isStuck⟩
      · simp [ControlAction.obtained, ControlAction.closed, owed, mayWait.held, receive, add_comm]
      · simp [ControlAction.received, ControlAction.continued, pending, mayWait.held, receive]
  | cleanupRemote holding untouched alive asked =>
      exact balances_of_same rfl (by simp [owed, holding]) (by simp [pending, holding])
        (by simp [stuck, holding]) rfl rfl rfl rfl
  | closeEventHandle holding first =>
      refine ⟨fun handle => ?_, ?_, fun ids isStuck => .inl (by simpa [stuck, holding] using isStuck)⟩
      · simp only [ControlAction.obtained, ControlAction.closed, owed, holding, first,
          Option.elim_some, List.count_cons, List.count_nil]
        omega
      · simp [ControlAction.received, ControlAction.continued, pending, holding]
  | continueEvent holding closed =>
      refine ⟨fun handle => ?_, ?_, fun ids isStuck => by cases isStuck⟩
      · simp [ControlAction.obtained, ControlAction.closed, owed, holding, closed]
      · simp [ControlAction.received, ControlAction.continued, pending, holding]
  | continueFailed holding closed =>
      refine ⟨fun handle => ?_, ?_, fun ids isStuck => .inr ?_⟩
      · simp [ControlAction.obtained, ControlAction.closed, owed, holding]
      · simp [ControlAction.received, ControlAction.continued, pending, holding]
      · simpa [stuck, ControlAction.refused] using isStuck
  | closeOwn member =>
      refine ⟨fun handle => ?_, by simp [ControlAction.received, ControlAction.continued, pending],
        fun ids isStuck => .inl isStuck⟩
      have split := (List.perm_cons_erase member).count_eq handle
      simp only [List.count_cons] at split
      simp only [ControlAction.obtained, ControlAction.closed, owed, List.count_cons,
        List.count_nil]
      omega
  | createProcessFailed | openProcessFailed | debugActiveProcess | debugActiveProcessFailed
  | setHandler | resetHandler | breakIn | breakInFailed | timedOut | waitFailed | drain | detach
  | stop => exact balances_of_same rfl rfl rfl rfl rfl rfl rfl rfl

theorem ledger_of_run {history : List ControlAction} {last : Debugger}
    (run : system.Run history last) : Ledger history last := by
  refine run.invariant ?_ fun _ _ _ _ ledger step => ledger.snoc (balances_step step)
  rintro _ ⟨⟩
  exact ⟨fun _ => rfl, rfl, fun _ isStuck => by cases isStuck⟩

end Debugger

namespace DebugSession

open EventLoop

/-! ### A session that is stopped by its user -/

namespace Sample

/-- A turn of the loop in which every call succeeds. -/
def quietTurn : EventLoop.Turn :=
  { stopRequested := false
    debugBreak := true
    waited := .timedOut
    memory := process.memory
    calls := ⟨calls, ⟨true, some [⟨4, .stopped 0x31020⟩]⟩⟩
    cleanup := cleanup
    continued := true
    retryBreak := true
    detached := true }

def turnOf (info : DebugEventInfo) : EventLoop.Turn :=
  { quietTurn with waited := .event ⟨4, 1, info⟩ }

def breakpoint : EventLoop.Turn := turnOf (.exception EXCEPTION_BREAKPOINT)

/-- The bytes of `ActiveHookCalls` are null. -/
def vacatedMemory : Memory := process.memory.write 0x90500 [0, 0, 0, 0]

/-- Somebody is inside a hook at the first breakpoint behind the request, nobody at the second. -/
def launch : Launch where
  target := process
  stopEvent := 5
  turns :=
    [turnOf (.createProcess (image 0x10000 "app.exe" []) 11 12 13),
      turnOf (.loadDll (image 0x20000 "ntdll.dll"
        [("NtSetEvent", 0x21000), ("NtReadVirtualMemory", 0x22000)]) 14),
      breakpoint, quietTurn,
      { turnOf (.loadDll (image 0x30000 "a.dll" [("f", 0x31000)]) 15) with stopRequested := true },
      { breakpoint with stopRequested := true },
      { breakpoint with stopRequested := true, memory := vacatedMemory }]
  detached := true

def processInfo : ProcessInformation := ⟨21, 22, 4, by decide⟩

/-- The user asks for the end of a started target. -/
def stoppedRun : Logged ControlAction (Option Nat × DebugSession) :=
  Run decode (options ["f"]) launch (some processInfo)

theorem stoppedRun_ends : stoppedRun.value.1 = some 0 := by decide +kernel

end Sample

/-- Every call of a session is one that a debugger may make.  A session that has come to an end
has closed every handle and has no event in hand that could have been continued; its result is
that of the target, or of a stop that has cleaned up. -/
theorem session_conducts_debugger (decode : Decoder) (options : CommandLineOptions)
    (launch : Launch) (processInfo : Option ProcessInformation) (process : Nat) (attached : Bool) :
    (∃ debugger, Debugger.system.Path {} (Run decode options launch processInfo).log debugger ∧
      ∀ result, (Run decode options launch processInfo).value.1 = some result →
        Released result (Run decode options launch processInfo).value.2 debugger) ∧
    ∃ debugger,
      Debugger.system.Path {} (Attach decode options launch process attached).log debugger ∧
      ∀ result, (Attach decode options launch process attached).value.1 = some result →
        Released result (Attach decode options launch process attached).value.2 debugger :=
  ⟨run_spec decode options launch processInfo, attach_spec decode options launch process attached⟩

theorem session_conducts_debugger_stopped :
    ∃ debugger, Debugger.system.Path {} Sample.stoppedRun.log debugger ∧
      Released 0 Sample.stoppedRun.value.2 debugger := by
  obtain ⟨debugger, path, outcome⟩ := (session_conducts_debugger Sample.decode
    (Sample.options ["f"]) Sample.launch (some Sample.processInfo) 21 true).1
  exact ⟨debugger, path, outcome 0 Sample.stoppedRun_ends⟩

/-- The calls of a session as a balanced account. -/
structure Settled (history : List ControlAction) : Prop where
  handles : (history.flatMap ControlAction.closed).Perm (history.flatMap ControlAction.obtained)
  events : history.flatMap ControlAction.received = history.flatMap ControlAction.continued ∨
    ∃ ids ∈ history.flatMap ControlAction.refused,
      history.flatMap ControlAction.received = history.flatMap ControlAction.continued ++ [ids]

theorem settled_of_released {history : List ControlAction} {debugger : Debugger} {result : Nat}
    {session : DebugSession} (path : Debugger.system.Path {} history debugger)
    (released : Released result session debugger) : Settled history := by
  have ledger := Debugger.ledger_of_run ⟨{}, rfl, path⟩
  have nothingOwed : debugger.owed = [] := by
    unfold Debugger.owed
    cases holding : debugger.held with
    | none => rfl
    | some held => exact (released.held held holding).2
  constructor
  · refine List.perm_iff_count.mpr fun handle => ?_
    have balance := ledger.handles handle
    rw [released.opened, nothingOwed] at balance
    simpa using balance.symm
  · have events := ledger.events
    cases holding : debugger.held with
    | none => exact .inl (by simpa [Debugger.pending, holding] using events)
    | some held =>
        refine .inr ⟨(held.event.processId, held.event.threadId), ledger.stuck _ ?_, ?_⟩
        · simp [Debugger.stuck, holding, (released.held held holding).1]
        · simpa [Debugger.pending, holding] using events

/-- Whatever the target does, and whichever calls fail: once a session has come to an end, every
handle has been closed exactly once, and every event has been continued in the order in which they
came, except for a last one that the system has refused to continue. -/
theorem session_settles (decode : Decoder) (options : CommandLineOptions) (launch : Launch)
    (processInfo : Option ProcessInformation) (process : Nat) (attached : Bool) :
    ((Run decode options launch processInfo).value.1 ≠ none →
      Settled (Run decode options launch processInfo).log) ∧
    ((Attach decode options launch process attached).value.1 ≠ none →
      Settled (Attach decode options launch process attached).log) := by
  constructor
  · intro ended
    obtain ⟨result, ends⟩ := Option.ne_none_iff_exists'.mp ended
    obtain ⟨debugger, path, outcome⟩ := run_spec decode options launch processInfo
    exact settled_of_released path (outcome result ends)
  · intro ended
    obtain ⟨result, ends⟩ := Option.ne_none_iff_exists'.mp ended
    obtain ⟨debugger, path, outcome⟩ := attach_spec decode options launch process attached
    exact settled_of_released path (outcome result ends)

theorem session_settles_stopped : Settled Sample.stoppedRun.log := by
  refine (session_settles Sample.decode (Sample.options ["f"]) Sample.launch
    (some Sample.processInfo) 21 true).1 fun endless => ?_
  have ends := Sample.stoppedRun_ends
  unfold Sample.stoppedRun at ends
  rw [endless] at ends
  cases ends

end DebugSession

end ApiScope
