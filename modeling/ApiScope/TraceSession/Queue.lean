import ApiScope.TraceSession.Drain

/-!
# The queue between the two threads

The reader and the writer share `eventQueue_`, two condition variables and
`readerFinished_`.  Here the ring is open: `TryReadRing` may deliver any event
and the stop event may be set at any time, so that what is shown holds whatever
the target writes into the ring.
-/

namespace ApiScope

open Transition

namespace TraceSession

/-! ## The two loops over an open ring -/

inductive QueueLabel where
  | ring (label : TryReadRing.Label)
  | loop (label : LoopLabel)

/-- A step of one of the two threads. -/
inductive QueueStep : Loops → QueueLabel → Loops → Prop where
  | ring {loops : Loops} {label : TryReadRing.Label} {pc : ReaderLoop.Pc} :
      ReaderLoop.OnRing loops.reader label pc →
      QueueStep loops (.ring label) { loops with reader := pc }
  | loop {loops loops' : Loops} {label : LoopLabel} (shared : Shared) (stopEvent : Bool) :
      LoopStep shared stopEvent loops label loops' → QueueStep loops (.loop label) loops'

/-- Both threads have been started. -/
def startLoops : Loops := ⟨.batch 0 false, .pop false, [], false, 0⟩

def queueSystem : System Loops QueueLabel where
  initial := (· = startLoops)
  step := QueueStep

namespace QueueLabel

def accepted? : QueueLabel → Option TraceEvent
  | loop (.accept event) => some event
  | _ => none

def rendered? : QueueLabel → Option TraceEvent
  | loop label => label.rendered?
  | ring _ => none

end QueueLabel

/-- The events that passed `IsValidTraceEvent`, in order. -/
def acceptedEvents (history : List QueueLabel) : List TraceEvent :=
  history.filterMap QueueLabel.accepted?

/-- The events passed to `RenderEvent`, in order. -/
def renderedEvents (history : List QueueLabel) : List TraceEvent :=
  history.filterMap QueueLabel.rendered?

theorem acceptedEvents_snoc (history : List QueueLabel) (label : QueueLabel) :
    acceptedEvents (history ++ [label]) = acceptedEvents history ++ label.accepted?.toList := by
  cases entry : label.accepted? <;> simp [acceptedEvents, entry]

theorem renderedEvents_snoc (history : List QueueLabel) (label : QueueLabel) :
    renderedEvents (history ++ [label]) = renderedEvents history ++ label.rendered?.toList := by
  cases entry : label.rendered? <;> simp [renderedEvents, entry]

/-- What a session does on its two loops. -/
def Label.queue? {Thread : Type*} : Label Thread → Option QueueLabel
  | .ring (.reader label) => some (.ring label)
  | .loop label => some (.loop label)
  | _ => none

/-- Seen on its two loops, a run of a session is a run over the open ring. -/
theorem Run.queue {Thread : Type*} [DecidableEq Thread] {transport : Transport}
    {history : List (Label Thread)} {machine : Machine Thread}
    (run : (system transport Thread).Run history machine) :
    queueSystem.Run (history.filterMap Label.queue?) machine.loops := by
  refine @System.Run.invariant _ _ _
    (fun history machine => queueSystem.Run (history.filterMap Label.queue?) machine.loops)
    ?_ ?_ _ _ run
  · rintro machine ⟨_, loops, _⟩
    rw [loops]
    exact .start rfl
  · intro history machine label next seen taken
    rw [List.filterMap_append]
    cases taken with
    | reader onRing => exact seen.snoc (.ring onRing)
    | loop step => exact seen.snoc (.loop _ _ step)
    | producer | exit | stop =>
        simpa only [List.filterMap_cons, Label.queue?, List.filterMap_nil, List.append_nil] using seen

/-! ## Waiting and notifying -/

/-- Asleep on `queueNotFull_`. -/
def ReaderLoop.Pc.asleep : ReaderLoop.Pc → Bool
  | push _ _ _ asleep => asleep
  | _ => false

/-- About to notify `queueNotEmpty_`. -/
def ReaderLoop.Pc.notifying : ReaderLoop.Pc → Bool
  | notify _ _ | notifyAll => true
  | _ => false

/-- Asleep on `queueNotEmpty_`. -/
def WriterLoop.Pc.asleep : WriterLoop.Pc → Bool
  | pop asleep => asleep
  | _ => false

/-- About to notify `queueNotFull_`. -/
def WriterLoop.Pc.notifying : WriterLoop.Pc → Bool
  | notify _ => true
  | _ => false

/-- The reader sleeps although the queue has room, and nobody is about to notify it. -/
def Loops.ReaderStuck (loops : Loops) : Prop :=
  loops.reader.asleep = true ∧ loops.eventQueue.length < TRACE_EVENT_QUEUE_CAPACITY ∧
    loops.writer.notifying = false

/-- The writer sleeps although there is an event or no more will come, and nobody is about to
notify it. -/
def Loops.WriterStuck (loops : Loops) : Prop :=
  loops.writer.asleep = true ∧ (loops.eventQueue ≠ [] ∨ loops.readerFinished = true) ∧
    loops.reader.notifying = false

/-- A sleeping thread has something to wait for, or a notification is on its way. -/
structure Loops.Alive (loops : Loops) : Prop where
  bounded : loops.eventQueue.length ≤ TRACE_EVENT_QUEUE_CAPACITY
  reader : loops.reader.asleep = true →
    loops.eventQueue.length = TRACE_EVENT_QUEUE_CAPACITY ∨ loops.writer.notifying = true
  writer : loops.writer.asleep = true →
    (loops.eventQueue = [] ∧ loops.readerFinished = false) ∨ loops.reader.notifying = true

theorem Loops.Alive.not_readerStuck {loops : Loops} (alive : loops.Alive) :
    ¬loops.ReaderStuck := by
  rintro ⟨asleep, room, silent⟩
  rcases alive.reader asleep with full | notifying
  · omega
  · simp [notifying] at silent

theorem Loops.Alive.not_writerStuck {loops : Loops} (alive : loops.Alive) :
    ¬loops.WriterStuck := by
  rintro ⟨asleep, work, silent⟩
  rcases alive.writer asleep with ⟨empty, running⟩ | notifying
  · simp [empty, running] at work
  · simp [notifying] at silent

/-- A full queue is not empty, so the two never sleep together. -/
theorem Loops.Alive.not_both_asleep {loops : Loops} (alive : loops.Alive) :
    ¬(loops.reader.asleep = true ∧ loops.writer.asleep = true) := by
  rintro ⟨readerAsleep, writerAsleep⟩
  rcases alive.reader readerAsleep with full | notifying
  · rcases alive.writer writerAsleep with ⟨empty, _⟩ | notifying
    · rw [empty] at full
      cases full
    · revert readerAsleep notifying
      cases loops.reader <;> simp [ReaderLoop.Pc.asleep, ReaderLoop.Pc.notifying]
  · revert writerAsleep notifying
    cases loops.writer <;> simp [WriterLoop.Pc.asleep, WriterLoop.Pc.notifying]

@[simp]
theorem ReaderLoop.Pc.asleep_notified (pc : ReaderLoop.Pc) : pc.notified.asleep = false := by
  cases pc <;> rfl

@[simp]
theorem ReaderLoop.Pc.notifying_notified (pc : ReaderLoop.Pc) :
    pc.notified.notifying = pc.notifying := by
  cases pc <;> rfl

@[simp]
theorem WriterLoop.Pc.asleep_notified (pc : WriterLoop.Pc) : pc.notified.asleep = false := by
  cases pc <;> rfl

@[simp]
theorem WriterLoop.Pc.notifying_notified (pc : WriterLoop.Pc) :
    pc.notified.notifying = pc.notifying := by
  cases pc <;> rfl

theorem LoopStep.alive {shared : Shared} {stopEvent : Bool} {loops loops' : Loops}
    {label : LoopLabel} (taken : LoopStep shared stopEvent loops label loops')
    (alive : loops.Alive) : loops'.Alive := by
  obtain ⟨reader, writer, eventQueue, readerFinished, reportedDroppedCount⟩ := loops
  obtain ⟨bounded, readerSleeps, writerSleeps⟩ := alive
  dsimp only at bounded readerSleeps writerSleeps
  cases taken with
  | notifyNotEmpty at_ | notifyAll at_ =>
      dsimp only at at_
      subst at_
      exact ⟨bounded, by simp [ReaderLoop.Pc.asleep], by simp⟩
  | notifyNotFull at_ =>
      dsimp only at at_
      subst at_
      exact ⟨bounded, by simp, by simp [WriterLoop.Pc.asleep]⟩
  | sleepNotFull at_ full =>
      dsimp only at at_ full
      subst at_
      exact ⟨bounded, fun _ => Or.inl (Nat.le_antisymm bounded (Nat.not_lt.mp full)), writerSleeps⟩
  | push at_ room =>
      dsimp only at at_ room
      subst at_
      refine ⟨?_, by simp [ReaderLoop.Pc.asleep], fun _ => Or.inr rfl⟩
      simpa [Nat.succ_le_iff] using room
  | sleepNotEmpty at_ empty running =>
      dsimp only at at_ empty running
      subst at_ empty running
      exact ⟨bounded, readerSleeps, fun _ => Or.inl ⟨rfl, rfl⟩⟩
  | pop at_ queued =>
      dsimp only at at_ queued
      subst at_ queued
      simp only [List.length_cons] at bounded
      exact ⟨by dsimp only; omega, fun _ => Or.inr rfl, by simp [WriterLoop.Pc.asleep]⟩
  | report at_ =>
      dsimp only at at_
      subst at_
      refine ⟨bounded, ?_, ?_⟩
      · dsimp only
        split_ifs <;> simp [ReaderLoop.Pc.asleep]
      · simpa [ReaderLoop.Pc.notifying] using fun asleep => Or.inl (writerSleeps asleep)
  | finish at_ =>
      dsimp only at at_
      subst at_
      exact ⟨bounded, by simp [ReaderLoop.Pc.asleep], fun _ => Or.inr rfl⟩
  | endBatch at_ | malformed at_ | accept at_ | wakeNotFull at_ | waitStop at_ | waitFailed at_ =>
      dsimp only at at_
      subst at_
      exact ⟨bounded, by simp [ReaderLoop.Pc.asleep], by
        simpa [ReaderLoop.Pc.notifying] using writerSleeps⟩
  | wakeNotEmpty at_ | leave at_ | render at_ =>
      dsimp only at at_
      subst at_
      exact ⟨bounded, by simpa [WriterLoop.Pc.notifying] using readerSleeps, by
        simp [WriterLoop.Pc.asleep]⟩

/-! ## Nothing lost, repeated or overtaken -/

/-- The accepted event the reader has not queued yet. -/
def ReaderLoop.Pc.pending : ReaderLoop.Pc → List TraceEvent
  | push event _ _ _ => [event]
  | _ => []

/-- The accepted events that have not been rendered yet, oldest first. -/
def Loops.pending (loops : Loops) : List TraceEvent :=
  loops.writer.holding ++ loops.eventQueue ++ loops.reader.pending

theorem LoopStep.pending {shared : Shared} {stopEvent : Bool} {loops loops' : Loops}
    {label : LoopLabel} (taken : LoopStep shared stopEvent loops label loops') :
    loops.pending ++ (QueueLabel.loop label).accepted?.toList =
      label.rendered?.toList ++ loops'.pending := by
  obtain ⟨reader, writer, eventQueue, readerFinished, reportedDroppedCount⟩ := loops
  have sameReader : reader.notified.pending = reader.pending := by cases reader <;> rfl
  have sameWriter : writer.notified.holding = writer.holding := by cases writer <;> rfl
  cases taken with
  | report at_ =>
      dsimp only at at_
      subst at_
      dsimp only [Loops.pending, LoopLabel.rendered?, QueueLabel.accepted?]
      split_ifs <;> simp [ReaderLoop.Pc.pending]
  | notifyNotEmpty at_ | notifyAll at_ =>
      dsimp only at at_
      subst at_
      simp [Loops.pending, LoopLabel.rendered?, QueueLabel.accepted?, ReaderLoop.Pc.pending,
        sameWriter]
  | notifyNotFull at_ =>
      dsimp only at at_
      subst at_
      simp [Loops.pending, LoopLabel.rendered?, QueueLabel.accepted?, WriterLoop.Pc.holding,
        sameReader]
  | pop at_ queued =>
      dsimp only at at_ queued
      subst at_ queued
      simp [Loops.pending, LoopLabel.rendered?, QueueLabel.accepted?, WriterLoop.Pc.holding]
  | endBatch at_ | malformed at_ | accept at_ | sleepNotFull at_ | wakeNotFull at_ | push at_
  | waitStop at_ | waitFailed at_ | finish at_ | sleepNotEmpty at_ | wakeNotEmpty at_ | leave at_
  | render at_ =>
      dsimp only at at_
      subst at_
      simp [Loops.pending, LoopLabel.rendered?, QueueLabel.accepted?, ReaderLoop.Pc.pending,
        WriterLoop.Pc.holding]

/-- On the ring the reader is awake, owes nobody a notification and holds no accepted event. -/
theorem ReaderLoop.OnRing.awake {pc pc' : ReaderLoop.Pc} {label : TryReadRing.Label}
    (onRing : ReaderLoop.OnRing pc label pc') :
    pc.notifying = false ∧ pc'.asleep = false ∧ pc.pending = [] ∧ pc'.pending = [] := by
  cases onRing with
  | clearWake | consumeWake => exact ⟨rfl, rfl, rfl, rfl⟩
  | deliver call | miss call | loadPosition call | hit call | copy call | release call =>
      cases pc with
      | batch => exact ⟨rfl, rfl, rfl, rfl⟩
      | recheck stopping => cases stopping <;> exact ⟨rfl, rfl, rfl, rfl⟩
      | _ => cases call

/-- The queue at the end of a history. -/
structure OpenQueue (history : List QueueLabel) (loops : Loops) : Prop where
  conserved : acceptedEvents history = renderedEvents history ++ loops.pending
  closing : loops.Closing
  alive : loops.Alive

theorem OpenQueue.step {history : List QueueLabel} {label : QueueLabel} {loops next : Loops}
    (queue : OpenQueue history loops) (taken : queueSystem.step loops label next) :
    OpenQueue (history ++ [label]) next := by
  obtain ⟨conserved, closing, alive⟩ := queue
  cases taken with
  | @ring label pc onRing =>
      obtain ⟨silent, awake, before, after⟩ := onRing.awake
      obtain ⟨notNotify, notDone⟩ := onRing.running
      refine ⟨?_, ⟨fun finished => ?_, closing.left⟩, alive.bounded, ?_, fun asleep => ?_⟩
      · rw [acceptedEvents_snoc, renderedEvents_snoc, conserved]
        simp [Loops.pending, before, after, QueueLabel.accepted?, QueueLabel.rendered?]
      · rcases closing.finished finished with at_ | at_
        · exact absurd at_ notNotify
        · exact absurd at_ notDone
      · simp [awake]
      · rcases alive.writer asleep with idle | notifying
        · exact Or.inl idle
        · simp [silent] at notifying
  | loop shared stopEvent step =>
      refine ⟨?_, step.closing closing, step.alive alive⟩
      rw [acceptedEvents_snoc, renderedEvents_snoc, conserved, List.append_assoc, step.pending,
        List.append_assoc]
      rfl

theorem Run.openQueue {history : List QueueLabel} {loops : Loops}
    (run : queueSystem.Run history loops) : OpenQueue history loops := by
  refine System.Run.invariant ?_ (fun _ _ _ _ => OpenQueue.step) run
  rintro loops rfl
  refine ⟨rfl, ?_, ?_⟩ <;> constructor <;>
    simp [startLoops, ReaderLoop.Pc.asleep, WriterLoop.Pc.asleep]

/-- The queue stays bounded and in order, it is empty once the writer has left, and neither
thread sleeps for good. -/
theorem queue_exact {history : List QueueLabel} {loops : Loops}
    (run : queueSystem.Run history loops) :
    loops.eventQueue.length ≤ TRACE_EVENT_QUEUE_CAPACITY ∧
    renderedEvents history <+: acceptedEvents history ∧
    (loops.writer = .done → renderedEvents history = acceptedEvents history) ∧
    ¬loops.ReaderStuck ∧ ¬loops.WriterStuck ∧
    ¬(loops.reader.asleep = true ∧ loops.writer.asleep = true) := by
  obtain ⟨conserved, closing, alive⟩ := Run.openQueue run
  refine ⟨alive.bounded, ⟨loops.pending, conserved.symm⟩, fun left => ?_, alive.not_readerStuck,
    alive.not_writerStuck, alive.not_both_asleep⟩
  obtain ⟨empty, finished⟩ := closing.left left
  have nothing : loops.pending = [] := by
    rcases closing.finished finished with at_ | at_ <;>
      simp [Loops.pending, left, empty, at_, WriterLoop.Pc.holding, ReaderLoop.Pc.pending]
  rw [conserved, nothing, List.append_nil]

/-- Three events of two threads on their way from the ring to the terminal. -/
theorem queue_exact_sample : ∃ loops,
    queueSystem.Run ((Sample.before ++ .exit :: Sample.after).filterMap Label.queue?) loops ∧
    loops.writer = .done ∧
    renderedEvents ((Sample.before ++ .exit :: Sample.after).filterMap Label.queue?) =
      acceptedEvents ((Sample.before ++ .exit :: Sample.after).filterMap Label.queue?) ∧
    renderedEvents ((Sample.before ++ .exit :: Sample.after).filterMap Label.queue?) =
      [Sample.taken Sample.first, Sample.taken Sample.second, Sample.taken Sample.third] := by
  obtain ⟨final, run, _, writer, _⟩ := Sample.run
  exact ⟨final.loops, Run.queue run, writer, (queue_exact (Run.queue run)).2.2.1 writer, rfl⟩

end TraceSession

end ApiScope
