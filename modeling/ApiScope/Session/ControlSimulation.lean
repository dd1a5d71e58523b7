import ApiScope.Session.ControlRefinement
import ApiScope.TraceSession.Custody

/-!
# The two loops

The loop of calls is the event loop of `EventLoop`, with the calls between two
events left out.  What is known of the sessions of the one holds for the other.
-/

namespace ApiScope

/-- An event as the loop without calls sees it. -/
def DEBUG_EVENT.seen (event : DEBUG_EVENT) : DebugSession.DebugEvent :=
  match event.info with
  | .createProcess image _ _ _ => .module (.createProcess image)
  | .loadDll image _ => .module (.loadDll image)
  | .unloadDll base => .module (.unloadDll base)
  | .exception exceptionCode =>
      if exceptionCode = EXCEPTION_BREAKPOINT then .breakpoint else .other
  | .exitProcess _ => .exitProcess
  | .createThread _ | .other => .other

theorem TraceSession.Stop_Stop (session : TraceSession) : session.Stop.Stop = session.Stop := by
  simp [TraceSession.Stop, ReleaseLocalRing_eq, localReleases, heldAt]

namespace DebugSession

namespace EventLoop

/-! ## One event -/

/-- Where the loop without calls stands after an event. -/
def Verdict.progress (verdict : Verdict) (locals : Locals) : Progress :=
  if locals.finished then .finished
  else if verdict.leaves then .cleaning verdict.cleanStop
  else .waiting

theorem dispatch_module {decode : Decoder} {calls : Calls} {locals : Locals} {event : ModuleEvent}
    {outcome : Bool × DebugSession}
    (handled : locals.session.HandleModuleEvent decode calls.module event = outcome)
    (unfinished : locals.finished = false) :
    dispatch decode calls (.module event) locals.session =
      (({ eventOk := outcome.1 } : Verdict).progress { locals with session := outcome.2 },
        outcome.2) := by
  obtain ⟨eventOk, session⟩ := outcome
  unfold dispatch
  dsimp only
  rw [handled]
  cases eventOk <;> simp [Verdict.progress, Verdict.leaves, unfinished]

theorem dispatch_switch (decode : Decoder) (calls : Calls) (event : DEBUG_EVENT) (locals : Locals)
    (unfinished : locals.finished = false) :
    dispatch decode calls event.seen locals.session =
      ((switch decode calls event locals).value.1.progress
          (switch decode calls event locals).value.2,
        (switch decode calls event locals).value.2.session) := by
  obtain ⟨processId, threadId, info⟩ := event
  cases info with
  | createProcess image => exact dispatch_module rfl unfinished
  | loadDll image => exact dispatch_module rfl unfinished
  | unloadDll base => exact dispatch_module rfl unfinished
  | exception exceptionCode =>
      unfold DEBUG_EVENT.seen switch
      dsimp only
      split_ifs with breakpoint requested quiescent first
      · simp [dispatch, requested, quiescent, Verdict.progress, Verdict.leaves, unfinished]
      · simp [dispatch, requested, quiescent, Verdict.progress, Verdict.leaves, unfinished]
      · simp [dispatch, requested, Verdict.progress, Verdict.leaves, unfinished]
      · have seen : locals.session.initialBreakpointSeen = true := by simpa using first
        have again : { locals.session with initialBreakpointSeen := true } = locals.session := by
          rw [← seen]
        unfold dispatch
        dsimp only
        rw [if_neg requested, again]
        simp [Verdict.progress, Verdict.leaves, unfinished]
      · simp [dispatch, Verdict.progress, Verdict.leaves, unfinished]
  | exitProcess exitCode => rfl
  | createThread | other => simp [dispatch, DEBUG_EVENT.seen, switch, Verdict.progress,
      Verdict.leaves, unfinished]

/-! ## One turn -/

/-- The same session, but for what only the last calls of a session read. -/
def Alike (session other : DebugSession) : Prop :=
  other = { session with debugActive := other.debugActive }

/-- Both loops wait. -/
structure BothWait (locals : Locals) (state : State) : Prop where
  progress : state.progress = .waiting
  session : state.session = locals.session
  unnatural : locals.naturalExit = false

/-- Both loops have been left.  A broken loop is still waiting where there are no calls that could
fail. -/
def BothLeft (locals : Locals) (state : State) : Prop :=
  BothWait locals state ∨
    state.progress = .finished ∧ Alike state.session locals.session ∧
      locals.session.traceSession.Stop = locals.session.traceSession

/-- What one turn comes to, and the hooks that are forgotten then. -/
def Mirrors (outcome : Bool × Locals) (strays : List InstalledHook) (state : State) : Prop :=
  if outcome.1 = true ∧ outcome.2.finished = false then
    BothWait outcome.2 state ∧ state.strays = strays
  else BothLeft outcome.2 state

/-- What all turns come to. -/
def MirrorsAll (outcome : Bool × Locals) (state : State) : Prop :=
  if outcome.1 then BothLeft outcome.2 state else BothWait outcome.2 state

/-- The target stands as it does for the loop without calls. -/
def Watched (locals : Locals) (strays : List InstalledHook) (turn : Turn)
    (target : HookCalls.State) : Prop :=
  ∀ event, turn.waited = .event event → event.seen.Based ∧
    Stopped (resumed (requestStop turn locals).value.2.session turn.memory) strays target

/-- The hooks that are forgotten once a turn has been made. -/
def forgets (decode : Decoder) (turn : Turn) (locals : Locals) (strays : List InstalledHook) :
    List InstalledHook :=
  match turn.waited with
  | .event event =>
      forget decode turn.calls event.seen
        (resumed (requestStop turn locals).value.2.session turn.memory) strays
  | .timedOut | .failed => strays

/-- A loop that is still running, at its head. -/
structure Running (locals : Locals) : Prop where
  unfinished : locals.finished = false
  unnatural : locals.naturalExit = false

section Turns

variable {decode : Decoder} {options : CommandLineOptions} {locals : Locals}
  {strays : List InstalledHook} {target : HookCalls.State}

theorem mirrors_broken (running : Running locals) {forgotten : List InstalledHook} :
    Mirrors (false, locals) forgotten ⟨locals.session, strays, target, .waiting⟩ :=
  (if_neg (by simp)).mpr (.inl ⟨rfl, rfl, running.unnatural⟩)

theorem requestStop_simulated (turn : Turn) (running : Running locals) :
    (∃ labels, (system decode options).Path ⟨locals.session, strays, target, .waiting⟩ labels
      ⟨(requestStop turn locals).value.2.session, strays, target, .waiting⟩) ∧
    Running (requestStop turn locals).value.2 := by
  unfold requestStop
  split_ifs
  · exact ⟨⟨[], .refl _⟩, running⟩
  · exact ⟨⟨[.requestStop], .single .requestStop⟩, running.unfinished, running.unnatural⟩
  · exact ⟨⟨[], .refl _⟩, running⟩

/-- The end of the target is the only event that the loop does not survive. -/
theorem switch_ends (decode : Decoder) (calls : Calls) (event : DEBUG_EVENT)
    (running : Running locals) :
    Running (switch decode calls event locals).value.2 ∨
      (switch decode calls event locals).value.2.finished = true ∧
        (switch decode calls event locals).value.1.leaves = false ∧
        (switch decode calls event locals).value.2.session.traceSession.Stop =
          (switch decode calls event locals).value.2.session.traceSession := by
  obtain ⟨processId, threadId, info⟩ := event
  cases info with
  | exitProcess exitCode => exact .inr ⟨rfl, rfl, TraceSession.Stop_Stop _⟩
  | exception exceptionCode =>
      unfold switch
      dsimp only
      split_ifs <;> exact .inl ⟨running.unfinished, running.unnatural⟩
  | createProcess | loadDll | unloadDll | createThread | other =>
      exact .inl ⟨running.unfinished, running.unnatural⟩

theorem value_conclude (turn : Turn) (event : DEBUG_EVENT) (verdict : Verdict) (locals : Locals) :
    (conclude turn event verdict locals).value =
      if turn.continued && (!verdict.retryCleanStop || turn.retryBreak) then
        (detach turn verdict locals).value
      else (false, locals) := by
  unfold conclude retry
  cases turn.continued with
  | false => rfl
  | true =>
      cases verdict.retryCleanStop with
      | false => rfl
      | true => cases turn.retryBreak <;> rfl

theorem stop_CleanupRemote (calls : CleanupRemote.Calls) (session : DebugSession) :
    (session.CleanupRemote calls).2.traceSession.Stop =
      (session.CleanupRemote calls).2.traceSession := by
  unfold DebugSession.CleanupRemote
  dsimp only
  split_ifs <;> exact TraceSession.Stop_Stop _

theorem handle_simulated (turn : Turn) (event : DEBUG_EVENT) (running : Running locals)
    (based : event.seen.Based) {target' : HookCalls.State}
    (stopped : Stopped (resumed locals.session turn.memory) strays target') :
    ∃ labels state,
      (system decode options).Path ⟨locals.session, strays, target, .waiting⟩ labels state ∧
      Mirrors (handle decode turn event locals).value
        (forget decode turn.calls event.seen (resumed locals.session turn.memory) strays)
        state := by
  have resuming : Running { locals with session := resumed locals.session turn.memory } :=
    ⟨running.unfinished, running.unnatural⟩
  have dispatched := dispatch_switch decode turn.calls event _ resuming.unfinished
  have ends := switch_ends decode turn.calls event resuming
  have step := @Step.event decode locals.session _ strays target target' turn.memory event.seen
    turn.calls _ based stopped dispatched
  unfold handle
  rw [Logged.value_bind]
  generalize (switch decode turn.calls event
    { locals with session := resumed locals.session turn.memory }).value = outcome at ends step ⊢
  obtain ⟨verdict, next⟩ := outcome
  dsimp only at ends step ⊢
  rw [Logged.value_bind, value_conclude]
  by_cases leaves : verdict.leaves = true
  · have running := ends.resolve_right fun ended => by simp [leaves] at ended
    have cleaned : (cleanup turn verdict next).value =
        { next with session := (next.session.CleanupRemote turn.cleanup).2 } := by
      rw [cleanup, if_pos leaves]
      rfl
    have progress : verdict.progress next = .cleaning verdict.cleanStop := by
      simp [Verdict.progress, running.unfinished, leaves]
    rw [progress] at step
    rw [cleaned]
    have stops := stop_CleanupRemote turn.cleanup next.session
    refine ⟨_, _, .cons step (.single (@Step.cleanup decode _ _ target' _ turn.cleanup)), ?_⟩
    split_ifs
    · refine (if_neg ?_).mpr (.inr ⟨rfl, ?_, ?_⟩)
      · simp [detach, leaves]
      · simp [detach, leaves, Alike]
      · simpa [detach, leaves] using stops
    · exact (if_neg (by simp)).mpr (.inr ⟨rfl, rfl, stops⟩)
  · have untouched : (cleanup turn verdict next).value = next := by
      rw [cleanup, if_neg leaves]
      rfl
    have attached : (detach turn verdict next).value = (true, next) := by
      rw [detach, if_neg leaves]
      rfl
    refine ⟨_, _, .single step, ?_⟩
    rw [untouched, attached]
    rcases ends with running | ⟨finished, -, stops⟩
    · have progress : verdict.progress next = .waiting := by
        simp [Verdict.progress, running.unfinished, leaves]
      rw [progress]
      split_ifs
      · exact (if_pos ⟨rfl, running.unfinished⟩).mpr ⟨⟨rfl, rfl, running.unnatural⟩, rfl⟩
      · exact mirrors_broken running
    · have progress : verdict.progress next = .finished := by simp [Verdict.progress, finished]
      rw [progress]
      split_ifs
      · exact (if_neg (by simp [finished])).mpr (.inr ⟨rfl, rfl, stops⟩)
      · exact (if_neg (by simp)).mpr (.inr ⟨rfl, rfl, stops⟩)

theorem turn_simulated (turn : Turn) (running : Running locals) {target' : HookCalls.State}
    (watched : Watched locals strays turn target') :
    ∃ labels state,
      (system decode options).Path ⟨locals.session, strays, target, .waiting⟩ labels state ∧
      Mirrors (EventLoop.turn decode turn locals).value (forgets decode turn locals strays)
        state := by
  obtain ⟨⟨labels, path⟩, still⟩ :=
    @requestStop_simulated decode options locals strays target turn running
  unfold EventLoop.turn forgets
  unfold Watched at watched
  rw [Logged.value_bind]
  generalize (requestStop turn locals).value = request at path still watched ⊢
  obtain ⟨goesOn, locals'⟩ := request
  cases goesOn with
  | false => exact ⟨_, _, path, mirrors_broken still⟩
  | true =>
      cases waited : turn.waited with
      | timedOut =>
          exact ⟨_, _, path,
            (if_pos ⟨rfl, still.unfinished⟩).mpr ⟨⟨rfl, rfl, still.unnatural⟩, rfl⟩⟩
      | failed => exact ⟨_, _, path, mirrors_broken still⟩
      | event event =>
          obtain ⟨based, stopped⟩ := watched event waited
          obtain ⟨more, state, rest, mirrors⟩ :=
            @handle_simulated decode options locals' strays target turn event still based target'
              stopped
          exact ⟨_, state, path.trans rest, mirrors⟩

end Turns

/-! ## Whole sessions -/

/-- The target stands, turn by turn, as it does for the loop without calls. -/
def WatchedAll (decode : Decoder) : List Turn → Locals → List InstalledHook → Prop
  | [], _, _ => True
  | turn :: rest, locals, strays =>
      (∃ target, Watched locals strays turn target) ∧
        ((EventLoop.turn decode turn locals).value.1 = true →
          (EventLoop.turn decode turn locals).value.2.finished = false →
          WatchedAll decode rest (EventLoop.turn decode turn locals).value.2
            (forgets decode turn locals strays))

theorem turns_simulated {decode : Decoder} {options : CommandLineOptions} (turns : List Turn)
    {locals : Locals} {strays : List InstalledHook} {target : HookCalls.State}
    (running : Running locals) (watched : WatchedAll decode turns locals strays) :
    ∃ labels state,
      (system decode options).Path ⟨locals.session, strays, target, .waiting⟩ labels state ∧
      MirrorsAll (EventLoop.turns decode turns locals).value state := by
  induction turns generalizing locals strays target with
  | nil => exact ⟨[], _, .refl _, rfl, rfl, running.unnatural⟩
  | cons first rest inductionHypothesis =>
      obtain ⟨⟨target', watchedFirst⟩, watchedRest⟩ := watched
      obtain ⟨labels, state, path, mirrors⟩ :=
        @turn_simulated decode options locals strays target first running target' watchedFirst
      unfold EventLoop.turns
      rw [Logged.value_bind]
      generalize (EventLoop.turn decode first locals).value = outcome at watchedRest mirrors ⊢
      obtain ⟨goesOn, next⟩ := outcome
      dsimp only at watchedRest ⊢
      by_cases stays : goesOn = true ∧ next.finished = false
      · obtain ⟨⟨progress, session, unnatural⟩, isStrays⟩ := (if_pos stays).mp mirrors
        obtain ⟨_, _, _, _⟩ := state
        cases progress
        cases session
        cases isStrays
        rw [if_neg (by simp [stays])]
        obtain ⟨more, last, continues, ends⟩ :=
          inductionHypothesis ⟨stays.2, unnatural⟩ (watchedRest stays.1 stays.2)
        exact ⟨_, last, path.trans continues, ends⟩
      · rw [if_pos (by cases goesOn <;> simp_all)]
        exact ⟨labels, state, path, (if_neg stays).mp mirrors⟩

theorem session_epilogue (detached : Bool) (locals : Locals) :
    (epilogue detached locals).value.2 =
      if locals.naturalExit then locals.session
      else { locals.session with traceSession := locals.session.traceSession.Stop } := by
  unfold epilogue stopTracing
  simp only [Logged.value_bind, Logged.value_pure]
  split_ifs <;> rfl

/-- Behind both loops. -/
theorem epilogue_simulated {decode : Decoder} {options : CommandLineOptions} (detached : Bool)
    {locals : Locals} {state : State} (left : BothLeft locals state) :
    ∃ labels last, (system decode options).Path state labels last ∧
      last.progress = .finished ∧
      Alike last.session (epilogue detached locals).value.2 := by
  rw [session_epilogue]
  rcases left with ⟨progress, session, unnatural⟩ | ⟨progress, alike, stops⟩
  · obtain ⟨_, _, target, _⟩ := state
    cases progress
    cases session
    rw [if_neg (by simp [unnatural])]
    exact ⟨[.breaksOff], _, .single .breaksOff, rfl, rfl⟩
  · refine ⟨[], state, .refl _, progress, ?_⟩
    split_ifs
    · exact alike
    · have same : { locals.session with traceSession := locals.session.traceSession.Stop } =
          locals.session := by
        rw [stops]
      rw [same]
      exact alike

end EventLoop

open EventLoop

/-- The sessions of the loop with its calls are sessions of the loop without them: as long as the
target stands, turn by turn, as that loop has it, whatever the calls answer. -/
theorem eventLoop_simulated (decode : Decoder) (options : CommandLineOptions) (launch : Launch)
    (processId process : Nat) (target : HookCalls.State)
    (unmapped : launch.target.images 0 = none)
    (watched : WatchedAll decode launch.turns
      { session := construct options launch.target processId launch.stopEvent, process } []) :
    ∃ labels state, (EventLoop.system decode options).Run labels state ∧
      Alike state.session (EventLoop decode launch.turns launch.detached process
        (construct options launch.target processId launch.stopEvent)).value.2 ∧
      ((EventLoop decode launch.turns launch.detached process
        (construct options launch.target processId launch.stopEvent)).value.1 ≠ none →
          state.progress = .finished) := by
  obtain ⟨labels, state, path, mirrors⟩ :=
    @turns_simulated decode options launch.turns _ [] target ⟨rfl, rfl⟩ watched
  have run : (EventLoop.system decode options).Run labels state :=
    ⟨_, ⟨launch.target, processId, launch.stopEvent, target, unmapped, rfl⟩, path⟩
  unfold DebugSession.EventLoop
  rw [Logged.value_bind, Logged.value_bind]
  generalize (EventLoop.turns decode launch.turns
    { session := construct options launch.target processId launch.stopEvent, process }).value =
    outcome at mirrors ⊢
  obtain ⟨left, locals⟩ := outcome
  cases left with
  | false =>
      refine ⟨labels, state, run, ?_, fun ended => absurd rfl ended⟩
      have session : state.session = locals.session := BothWait.session mirrors
      rw [session]
      rfl
  | true =>
      obtain ⟨more, last, continues, finished, alike⟩ :=
        @epilogue_simulated decode options launch.detached locals state mirrors
      exact ⟨_, last, run.extend continues, alike, fun _ => finished⟩

namespace Sample

/-- `ActiveHookCalls` is zero whenever the target is stopped. -/
def idleTurn (info : DebugEventInfo) : EventLoop.Turn :=
  { turnOf info with memory := vacatedMemory }

/-- A hook is installed, and the target ends by itself. -/
def idleLaunch : Launch :=
  { launch with
    turns :=
      [idleTurn (.createProcess (image 0x10000 "app.exe" []) 11 12 13),
        idleTurn (.loadDll (image 0x20000 "ntdll.dll"
          [("NtSetEvent", 0x21000), ("NtReadVirtualMemory", 0x22000)]) 14),
        idleTurn (.loadDll (image 0x30000 "a.dll" [("f", 0x31000)]) 15),
        idleTurn (.exitProcess 0)] }

theorem watched_of_idle {locals : Locals} {strays : List InstalledHook} {turn : EventLoop.Turn}
    {event : DEBUG_EVENT} (waited : turn.waited = .event event) (based : event.seen.Based)
    (zero : CountsNone (resumed (requestStop turn locals).value.2.session turn.memory)) :
    Watched locals strays turn idle := by
  intro other same
  cases waited.symm.trans same
  exact ⟨based, stopped_idle zero⟩

theorem watched_idle : WatchedAll decode idleLaunch.turns
    { session := construct (options ["f"]) idleLaunch.target 4 idleLaunch.stopEvent
      process := 21 } [] := by
  refine ⟨⟨idle, watched_of_idle rfl ?_ ?_⟩, fun _ _ => ⟨⟨idle, watched_of_idle rfl ?_ ?_⟩,
    fun _ _ => ⟨⟨idle, watched_of_idle rfl ?_ ?_⟩, fun _ _ => ⟨⟨idle, watched_of_idle rfl ?_ ?_⟩,
      fun _ _ => trivial⟩⟩⟩⟩
  · exact (by decide : 0x10000 ≠ 0)
  · decide +kernel
  · exact (by decide : 0x20000 ≠ 0)
  · decide +kernel
  · exact (by decide : 0x30000 ≠ 0)
  · decide +kernel
  · trivial
  · decide +kernel

end Sample

theorem eventLoop_simulated_idle :
    ∃ labels state, (EventLoop.system Sample.decode (Sample.options ["f"])).Run labels state ∧
      Alike state.session (EventLoop Sample.decode Sample.idleLaunch.turns true 21
        (construct (Sample.options ["f"]) Sample.process 4 5)).value.2 ∧
      state.progress = .finished := by
  obtain ⟨labels, state, run, alike, finished⟩ := eventLoop_simulated Sample.decode
    (Sample.options ["f"]) Sample.idleLaunch 4 21 idle rfl Sample.watched_idle
  exact ⟨labels, state, run, alike, finished (by decide +kernel)⟩

end DebugSession

end ApiScope
