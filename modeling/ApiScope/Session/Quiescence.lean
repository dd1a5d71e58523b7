import ApiScope.Session.HookCalls

/-!
# The enumeration of threads

`IsCleanupQuiescent` walks a snapshot of the threads of the system.  Its walk
ends where `Thread32First` or `Thread32Next` returns false, be it the end of the
snapshot or a failure, and what it has not seen it does not ask about.
-/

namespace ApiScope

namespace DebugSession

def ERROR_INVALID_PARAMETER : Nat := 87

/-- A thread of the snapshot, which may have exited since. -/
structure SnapshotThread where
  threadId : Nat
  ownerProcessId : Nat
  alive : Bool
  instructionPointer : Nat
  deriving DecidableEq, Repr

namespace IsCleanupQuiescent

/-- How the calls end.  `OpenThread` opens a thread or sets an error; the calls
of `Thread32Next` are numbered. -/
structure Attempts where
  readCounter : Bool
  createSnapshot : Bool
  thread32First : Bool
  thread32Next : Nat → Bool
  openThread : Nat → Option Nat
  getThreadContext : Nat → Bool

/-- The body of the loop, given what the rest of the loop finds.  Beside the
result stand the threads whose instruction pointer has been read. -/
def visit (session : DebugSession) (attempts : Attempts) (entry : SnapshotThread)
    (next : Bool × List SnapshotThread) : Bool × List SnapshotThread :=
  if entry.ownerProcessId ≠ session.processId then next
  else
    match attempts.openThread entry.threadId with
    | some error => if error = ERROR_INVALID_PARAMETER then next else (false, [])
    | none =>
        if attempts.getThreadContext entry.threadId then
          if session.IsInstrumentationAddress entry.instructionPointer then (false, [entry])
          else (next.1, entry :: next.2)
        else (false, [])

/-- The loop with an entry in hand. -/
def walk (session : DebugSession) (attempts : Attempts) :
    Nat → SnapshotThread → List SnapshotThread → Bool × List SnapshotThread
  | _, entry, [] => visit session attempts entry (true, [])
  | count, entry, following :: rest =>
      visit session attempts entry
        (if attempts.thread32Next count then walk session attempts (count + 1) following rest
        else (true, []))

/-- The loop is entered with the first entry, if there is one. -/
def enumerate (session : DebugSession) (attempts : Attempts) :
    List SnapshotThread → Bool × List SnapshotThread
  | [] => (true, [])
  | entry :: rest =>
      if attempts.thread32First then walk session attempts 0 entry rest else (true, [])

/-- The entries that `Thread32Next` still returns. -/
def returnedNext (attempts : Attempts) : Nat → List SnapshotThread → List SnapshotThread
  | _, [] => []
  | count, entry :: rest =>
      if attempts.thread32Next count then entry :: returnedNext attempts (count + 1) rest else []

/-- The entries that the enumeration returns. -/
def returned (attempts : Attempts) : List SnapshotThread → List SnapshotThread
  | [] => []
  | entry :: rest =>
      if attempts.thread32First then entry :: returnedNext attempts 0 rest else []

/-- The counter is found and reads as zero. -/
def CounterIsZero (session : DebugSession) (attempts : Attempts) : Prop :=
  ∃ counterExport,
    session.process.GetRemoteExport session.hookImageBase (narrow "ActiveHookCalls") =
      some counterExport ∧
    counterExport.address ≠ 0 ∧ attempts.readCounter = true ∧
    session.process.memory.read counterExport.address 4 = Bytes.littleEndian 4 0

end IsCleanupQuiescent

/-- `IsCleanupQuiescent` over the threads of the system. -/
def IsCleanupQuiescentOver (attempts : IsCleanupQuiescent.Attempts)
    (threads : List SnapshotThread) (session : DebugSession) : Bool × List SnapshotThread :=
  if session.hookImageBase = 0 then (true, [])
  else
    match session.process.GetRemoteExport session.hookImageBase (narrow "ActiveHookCalls") with
    | none => (false, [])
    | some counterExport =>
        if counterExport.address = 0 ∨ attempts.readCounter = false ∨
            session.process.memory.read counterExport.address 4 ≠ Bytes.littleEndian 4 0 then
          (false, [])
        else if !attempts.createSnapshot then (false, [])
        else IsCleanupQuiescent.enumerate session attempts threads

/-! ## The walk -/

namespace IsCleanupQuiescent

/-- What the code has of a thread: it is gone, or cannot be looked at, or its
instruction pointer is read. -/
def contextOf (attempts : Attempts) (thread : SnapshotThread) : ThreadContext :=
  match attempts.openThread thread.threadId with
  | some error => if error = ERROR_INVALID_PARAMETER then .gone else .denied
  | none =>
      if attempts.getThreadContext thread.threadId then .stopped thread.instructionPointer
      else .denied

def entryOf (attempts : Attempts) (thread : SnapshotThread) : ThreadEntry :=
  ⟨thread.ownerProcessId, contextOf attempts thread⟩

/-- The thread belongs to the target and its instruction pointer can be read. -/
def Read (session : DebugSession) (attempts : Attempts) (thread : SnapshotThread) : Prop :=
  thread.ownerProcessId = session.processId ∧
    contextOf attempts thread = .stopped thread.instructionPointer

theorem openThread_of_gone {attempts : Attempts} {thread : SnapshotThread}
    (gone : contextOf attempts thread = .gone) :
    attempts.openThread thread.threadId = some ERROR_INVALID_PARAMETER := by
  unfold contextOf at gone
  cases opened : attempts.openThread thread.threadId with
  | none =>
      rw [opened] at gone
      dsimp only at gone
      split_ifs at gone
  | some error =>
      rw [opened] at gone
      dsimp only at gone
      split_ifs at gone with invalid
      rw [invalid]

theorem instructionPointer_of_stopped {attempts : Attempts} {thread : SnapshotThread}
    {instructionPointer : Nat} (stopped : contextOf attempts thread = .stopped instructionPointer) :
    thread.instructionPointer = instructionPointer := by
  unfold contextOf at stopped
  cases opened : attempts.openThread thread.threadId with
  | none =>
      rw [opened] at stopped
      dsimp only at stopped
      split_ifs at stopped
      exact ThreadContext.stopped.inj stopped
  | some error =>
      rw [opened] at stopped
      dsimp only at stopped
      split_ifs at stopped

variable {session : DebugSession} {attempts : Attempts}

theorem loop_eq_true_iff {entries : List ThreadEntry} :
    loop session entries = true ↔
      ∀ entry ∈ entries, entry.ownerProcessId = session.processId →
        entry.context = .gone ∨ ∃ instructionPointer, entry.context = .stopped instructionPointer ∧
          session.IsInstrumentationAddress instructionPointer = false := by
  induction entries with
  | nil => simp [loop]
  | cons entry rest inductionHypothesis =>
      rw [loop, List.forall_mem_cons]
      by_cases foreign : entry.ownerProcessId = session.processId
      · rw [if_neg (not_not.mpr foreign)]
        cases entry.context with
        | gone => simp [inductionHypothesis]
        | denied => simp [foreign]
        | stopped instructionPointer =>
            cases inside : session.IsInstrumentationAddress instructionPointer with
            | true => simp [foreign, inside]
            | false => simp [inside, inductionHypothesis]
      · rw [if_pos foreign, inductionHypothesis]
        simp [foreign]

/-- One turn of the walk is one turn of the loop. -/
theorem visit_eq_loop {entry : SnapshotThread} {next : Bool × List SnapshotThread}
    {rest : List ThreadEntry} (same : next.1 = loop session rest) :
    (visit session attempts entry next).1 = loop session (entryOf attempts entry :: rest) := by
  rw [loop, visit]
  unfold entryOf contextOf
  dsimp only
  by_cases foreign : entry.ownerProcessId ≠ session.processId
  · rw [if_pos foreign, if_pos foreign, same]
  · rw [if_neg foreign, if_neg foreign]
    cases attempts.openThread entry.threadId with
    | some error =>
        dsimp only
        by_cases gone : error = ERROR_INVALID_PARAMETER
        · rw [if_pos gone, if_pos gone, same]
        · rw [if_neg gone, if_neg gone]
    | none =>
        dsimp only
        cases attempts.getThreadContext entry.threadId with
        | false => rfl
        | true =>
            simp only [if_true]
            cases session.IsInstrumentationAddress entry.instructionPointer with
            | false => exact same
            | true => rfl

/-- The walk finds what the loop finds in the entries that are returned. -/
theorem walk_eq_loop (count : Nat) (entry : SnapshotThread) (rest : List SnapshotThread) :
    (walk session attempts count entry rest).1 =
      loop session ((entry :: returnedNext attempts count rest).map (entryOf attempts)) := by
  induction rest generalizing count entry with
  | nil => exact visit_eq_loop rfl
  | cons following rest inductionHypothesis =>
      rw [walk, List.map_cons, returnedNext]
      cases attempts.thread32Next count with
      | false => exact visit_eq_loop rfl
      | true => exact visit_eq_loop (inductionHypothesis _ _)

theorem mem_read_visit {entry : SnapshotThread} {next : Bool × List SnapshotThread}
    (quiescent : (visit session attempts entry next).1 = true) (thread : SnapshotThread) :
    next.1 = true ∧ (thread ∈ (visit session attempts entry next).2 ↔
      thread = entry ∧ Read session attempts thread ∨ thread ∈ next.2) := by
  unfold visit at quiescent ⊢
  by_cases foreign : entry.ownerProcessId = session.processId
  · rw [if_neg (not_not.mpr foreign)] at quiescent ⊢
    cases opened : attempts.openThread entry.threadId with
    | some error =>
        simp only [opened] at quiescent ⊢
        split_ifs at quiescent ⊢ with gone
        refine ⟨quiescent, ?_⟩
        constructor
        · exact Or.inr
        · rintro (⟨rfl, _, read⟩ | behind)
          · simp [contextOf, opened, gone] at read
          · exact behind
    | none =>
        simp only [opened] at quiescent ⊢
        split_ifs at quiescent ⊢ with read inside
        refine ⟨quiescent, ?_⟩
        rw [List.mem_cons]
        refine or_congr_left ⟨?_, And.left⟩
        rintro rfl
        exact ⟨rfl, foreign, by simp [contextOf, opened, read]⟩
  · rw [if_pos foreign] at quiescent ⊢
    refine ⟨quiescent, ?_⟩
    constructor
    · exact Or.inr
    · rintro (⟨rfl, owned, _⟩ | behind)
      · exact absurd owned foreign
      · exact behind

/-- A walk that finds the target quiescent has read every thread it could open. -/
theorem mem_read_walk {count : Nat} {entry : SnapshotThread} {rest : List SnapshotThread}
    (quiescent : (walk session attempts count entry rest).1 = true) (thread : SnapshotThread) :
    thread ∈ (walk session attempts count entry rest).2 ↔
      thread ∈ entry :: returnedNext attempts count rest ∧ Read session attempts thread := by
  induction rest generalizing count entry with
  | nil =>
      rw [walk] at quiescent ⊢
      rw [(mem_read_visit quiescent thread).2, returnedNext, List.mem_singleton]
      exact or_iff_left List.not_mem_nil
  | cons following rest inductionHypothesis =>
      rw [walk] at quiescent ⊢
      obtain ⟨behind, read⟩ := mem_read_visit quiescent thread
      rw [read, returnedNext, List.mem_cons, or_and_right]
      refine or_congr_right ?_
      cases continues : attempts.thread32Next count with
      | false => simp
      | true =>
          simp only [continues, if_true] at behind ⊢
          exact inductionHypothesis behind

variable {threads : List SnapshotThread}

theorem enumerate_eq_loop :
    (enumerate session attempts threads).1 =
      loop session ((returned attempts threads).map (entryOf attempts)) := by
  cases threads with
  | nil => rfl
  | cons entry rest =>
      rw [enumerate, returned]
      cases attempts.thread32First with
      | false => rfl
      | true => exact walk_eq_loop 0 entry rest

theorem mem_read_enumerate (quiescent : (enumerate session attempts threads).1 = true)
    (thread : SnapshotThread) :
    thread ∈ (enumerate session attempts threads).2 ↔
      thread ∈ returned attempts threads ∧ Read session attempts thread := by
  cases threads with
  | nil => simp [enumerate, returned]
  | cons entry rest =>
      rw [enumerate] at quiescent ⊢
      rw [returned]
      cases begins : attempts.thread32First with
      | false => simp
      | true =>
          simp only [begins, if_true] at quiescent ⊢
          exact mem_read_walk quiescent thread

end IsCleanupQuiescent

open IsCleanupQuiescent

section FailsClosed

variable {session : DebugSession} {attempts : Attempts} {threads : List SnapshotThread}

theorem isCleanupQuiescentOver_of_zero (mapped : session.hookImageBase ≠ 0)
    (zero : CounterIsZero session attempts) (created : attempts.createSnapshot = true) :
    session.IsCleanupQuiescentOver attempts threads = enumerate session attempts threads := by
  obtain ⟨counterExport, found, address, read, value⟩ := zero
  unfold IsCleanupQuiescentOver
  simp [mapped, found, address, read, value, created]

/-- Without the zero or the snapshot there is no yes. -/
theorem zero_of_isCleanupQuiescentOver (mapped : session.hookImageBase ≠ 0)
    (quiescent : (session.IsCleanupQuiescentOver attempts threads).1 = true) :
    CounterIsZero session attempts ∧ attempts.createSnapshot = true := by
  unfold IsCleanupQuiescentOver at quiescent
  rw [if_neg mapped] at quiescent
  cases found : session.process.GetRemoteExport session.hookImageBase
      (narrow "ActiveHookCalls") with
  | none => simp [found] at quiescent
  | some counterExport =>
      simp only [found] at quiescent
      split_ifs at quiescent with unread closed
      push Not at unread
      exact ⟨⟨counterExport, found, unread.1, by simpa using unread.2.1, unread.2.2⟩,
        by simpa using closed⟩

/-- The code asks the same of the threads as `IsCleanupQuiescent` does of the
entries that are returned. -/
theorem isCleanupQuiescentOver_eq :
    (session.IsCleanupQuiescentOver attempts threads).1 =
      session.IsCleanupQuiescent
        { readCounter := attempts.readCounter
          snapshot :=
            if attempts.createSnapshot then
              some ((returned attempts threads).map (entryOf attempts))
            else none } := by
  unfold IsCleanupQuiescentOver IsCleanupQuiescent
  by_cases unmapped : session.hookImageBase = 0
  · rw [if_pos unmapped, if_pos unmapped]
  · rw [if_neg unmapped, if_neg unmapped]
    cases session.process.GetRemoteExport session.hookImageBase (narrow "ActiveHookCalls") with
    | none => rfl
    | some counterExport =>
        dsimp only
        by_cases unread : counterExport.address = 0 ∨ attempts.readCounter = false ∨
            session.process.memory.read counterExport.address 4 ≠ Bytes.littleEndian 4 0
        · rw [if_pos unread, if_pos unread]
        · rw [if_neg unread, if_neg unread]
          cases attempts.createSnapshot with
          | false => rfl
          | true => exact enumerate_eq_loop

/-- Nothing is released on a wrong yes: the counter has been read as zero, and
every thread of the target that is alive has been looked at and stands elsewhere. -/
def FailsClosed (session : DebugSession) (attempts : Attempts)
    (threads : List SnapshotThread) : Prop :=
  session.hookImageBase ≠ 0 → (session.IsCleanupQuiescentOver attempts threads).1 = true →
    CounterIsZero session attempts ∧
      ∀ thread ∈ threads, thread.ownerProcessId = session.processId → thread.alive = true →
        thread ∈ (session.IsCleanupQuiescentOver attempts threads).2 ∧
          ¬session.InHookImage thread.instructionPointer ∧
          ∀ hook ∈ session.installedHooks, ¬hook.InPatch thread.instructionPointer ∧
            ¬hook.InTrampoline thread.instructionPointer

/-- Unless something else keeps the code from saying yes, no thread of the target
that is alive lies behind the point at which `Thread32First` or `Thread32Next`
fails. -/
def Covered (session : DebugSession) (attempts : Attempts)
    (threads : List SnapshotThread) : Prop :=
  session.hookImageBase ≠ 0 → CounterIsZero session attempts → attempts.createSnapshot = true →
    (∀ thread ∈ returned attempts threads, thread.ownerProcessId = session.processId →
      contextOf attempts thread = .gone ∨ ∃ instructionPointer,
        contextOf attempts thread = .stopped instructionPointer ∧
        session.IsInstrumentationAddress instructionPointer = false) →
    ∀ thread ∈ threads, thread.ownerProcessId = session.processId → thread.alive = true →
      thread ∈ returned attempts threads

/-- `IsCleanupQuiescent` fails closed exactly when its enumeration is not cut
short.  A thread that is alive does not open with an invalid parameter. -/
theorem failsClosed_iff
    (opens : ∀ thread ∈ threads, thread.alive = true →
      attempts.openThread thread.threadId ≠ some ERROR_INVALID_PARAMETER) :
    FailsClosed session attempts threads ↔ Covered session attempts threads := by
  have loop_iff : loop session ((returned attempts threads).map (entryOf attempts)) = true ↔
      ∀ thread ∈ returned attempts threads, thread.ownerProcessId = session.processId →
        contextOf attempts thread = .gone ∨ ∃ instructionPointer,
          contextOf attempts thread = .stopped instructionPointer ∧
          session.IsInstrumentationAddress instructionPointer = false := by
    rw [loop_eq_true_iff, List.forall_mem_map]
    rfl
  constructor
  · intro closed mapped zero created fine thread member owned alive
    have same : session.IsCleanupQuiescentOver attempts threads =
        enumerate session attempts threads :=
      isCleanupQuiescentOver_of_zero mapped zero created
    have quiescent : (enumerate session attempts threads).1 = true := by
      rw [enumerate_eq_loop]
      exact loop_iff.mpr fine
    have read := ((closed mapped (by rwa [same])).2 thread member owned alive).1
    rw [same] at read
    exact ((mem_read_enumerate quiescent thread).mp read).1
  · intro covered mapped quiescent
    obtain ⟨zero, created⟩ := zero_of_isCleanupQuiescentOver mapped quiescent
    have same : session.IsCleanupQuiescentOver attempts threads =
        enumerate session attempts threads :=
      isCleanupQuiescentOver_of_zero mapped zero created
    rw [same] at quiescent ⊢
    have fine := loop_iff.mp (enumerate_eq_loop ▸ quiescent)
    refine ⟨zero, fun thread member owned alive => ?_⟩
    have seen := covered mapped zero created fine thread member owned alive
    rcases fine thread seen owned with gone | ⟨instructionPointer, stopped, elsewhere⟩
    · exact absurd (openThread_of_gone gone) (opens thread member alive)
    · obtain rfl := instructionPointer_of_stopped stopped
      exact ⟨(mem_read_enumerate quiescent thread).mpr ⟨seen, owned, stopped⟩,
        (session.IsInstrumentationAddress_eq_false_iff _).mp elsewhere⟩

end FailsClosed

namespace Sample

/-- Two hooks are installed, the counter is zero, and a thread is in the handler. -/
def counting : DebugSession :=
  { attached with process := { equipped with memory := fun _ => 0 } }

def threads : List SnapshotThread :=
  [⟨1, 4, true, 0x7FF6000⟩, ⟨2, counting.processId, true, 0x90120⟩]

def everything : Attempts where
  readCounter := true
  createSnapshot := true
  thread32First := true
  thread32Next := fun _ => true
  openThread := fun _ => none
  getThreadContext := fun _ => true

end Sample

/-- `Thread32First` fails, and the thread in the handler is not asked for. -/
theorem not_failsClosed :
    (Sample.counting.IsCleanupQuiescentOver { Sample.everything with thread32First := false }
        Sample.threads).1 = true ∧
      Sample.counting.IsInstrumentationAddress 0x90120 = true ∧
      ¬FailsClosed Sample.counting { Sample.everything with thread32First := false }
        Sample.threads := by
  have run : Sample.counting.hookImageBase ≠ 0 ∧
      (Sample.counting.IsCleanupQuiescentOver { Sample.everything with thread32First := false }
        Sample.threads).1 = true ∧
      Sample.counting.IsInstrumentationAddress 0x90120 = true := by
    decide +kernel
  obtain ⟨mapped, quiescent, inside⟩ := run
  refine ⟨quiescent, inside, fun closed => ?_⟩
  have elsewhere := ((closed mapped quiescent).2 ⟨2, Sample.counting.processId, true, 0x90120⟩
    (by simp [Sample.threads]) rfl rfl).2
  rw [← IsInstrumentationAddress_eq_false_iff, inside] at elsewhere
  cases elsewhere

/-- An enumeration that is not cut short sees the thread. -/
theorem failsClosed_iff_sample :
    FailsClosed Sample.counting Sample.everything Sample.threads := by
  refine (failsClosed_iff fun _ _ _ opened => ?_).mpr ?_
  · cases opened
  · intro _ _ _ _ thread member _ _
    exact member

end DebugSession

end ApiScope
