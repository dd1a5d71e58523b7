import ApiScope.Ring.Machine
import ApiScope.Trace.Parser

/-!
# The reader and writer threads of a trace session

`ReaderLoop` empties the ring into `eventQueue_`, `WriterLoop` renders what it
finds there.  The queue is guarded by one mutex, so a critical section is one
step; a thread in a condition wait either is about to test its predicate or is
asleep until it is notified or wakes spuriously.

`WaitForMultipleObjects` prefers the wake event, which resets itself, to the
stop event, which stays set.
-/

namespace ApiScope

open Transition

namespace TraceSession

def TRACE_EVENT_QUEUE_CAPACITY : Nat := 4096
def TRACE_RING_READ_BATCH : Nat := 256

/-! ## Control states -/

namespace ReaderLoop

/-- Where the reader is.  `eventsRead` counts the batch; an event that raced with the reset
is followed by a new batch, so it is queued with count 0. -/
inductive Pc where
  | batch (eventsRead : Nat) (stopping : Bool)
  | validate (event : TraceEvent) (eventsRead : Nat) (stopping : Bool)
  | push (event : TraceEvent) (eventsRead : Nat) (stopping asleep : Bool)
  | notify (eventsRead : Nat) (stopping : Bool)
  | report (eventsRead : Nat) (stopping : Bool)
  | clearWake (stopping : Bool)
  | recheck (stopping : Bool)
  | wait
  | finish
  | notifyAll
  | done

namespace Pc

/-- Inside a call of `TryReadRing`, or about to make one. -/
def reads : Pc → Bool
  | batch eventsRead _ => eventsRead < TRACE_RING_READ_BATCH
  | recheck _ => true
  | _ => false

/-- `TryReadRing` has returned false. -/
def missed : Pc → Pc
  | batch eventsRead stopping => report eventsRead stopping
  | recheck true => finish
  | recheck false => wait
  | pc => pc

/-- `TryReadRing` has returned an event. -/
def read (event : TraceEvent) : Pc → Pc
  | batch eventsRead stopping => validate event (eventsRead + 1) stopping
  | recheck stopping => validate event 0 stopping
  | pc => pc

/-- A notification of `queueNotFull_`. -/
def notified : Pc → Pc
  | push event eventsRead stopping _ => push event eventsRead stopping false
  | pc => pc

end Pc

/-- What the reader's steps on the ring do to its loop. -/
inductive OnRing : Pc → TryReadRing.Label → Pc → Prop where
  | loadPosition {pc : Pc} : pc.reads = true → OnRing pc .loadPosition pc
  | miss {pc : Pc} : pc.reads = true → OnRing pc .miss pc.missed
  | hit {pc : Pc} : pc.reads = true → OnRing pc .hit pc
  | copy {pc : Pc} {count : Nat} : pc.reads = true → OnRing pc (.copy count) pc
  | release {pc : Pc} : pc.reads = true → OnRing pc .release pc
  | deliver {pc : Pc} {event : TraceEvent} :
      pc.reads = true → OnRing pc (.deliver event) (pc.read event)
  | clearWake {stopping : Bool} : OnRing (.clearWake stopping) .clearWake (.recheck stopping)
  | consumeWake : OnRing .wait .consumeWake (.batch 0 false)

end ReaderLoop

namespace WriterLoop

inductive Pc where
  | pop (asleep : Bool)
  | notify (event : TraceEvent)
  | render (event : TraceEvent)
  | done

/-- A notification of `queueNotEmpty_`. -/
def Pc.notified : Pc → Pc
  | pop _ => pop false
  | pc => pc

end WriterLoop

/-! ## The two loops -/

/-- What the two threads share behind the ring. -/
structure Loops where
  reader : ReaderLoop.Pc
  writer : WriterLoop.Pc
  eventQueue : List TraceEvent
  readerFinished : Bool
  reportedDroppedCount : UInt32

inductive LoopLabel where
  | endBatch
  | malformed (event : TraceEvent)
  | accept (event : TraceEvent)
  | sleepNotFull
  | wakeNotFull
  | push (event : TraceEvent)
  | notifyNotEmpty
  | report (droppedCount : UInt32)
  | waitStop
  | waitFailed
  | finish
  | notifyAll
  | sleepNotEmpty
  | wakeNotEmpty
  | pop (event : TraceEvent)
  | leave
  | notifyNotFull
  | render (event : TraceEvent)

/-- The steps of the two loops that leave the ring alone. -/
inductive LoopStep (shared : Shared) (stopEvent : Bool) : Loops → LoopLabel → Loops → Prop where
  | endBatch {loops : Loops} {eventsRead : Nat} {stopping : Bool} :
      loops.reader = .batch eventsRead stopping → ¬eventsRead < TRACE_RING_READ_BATCH →
      LoopStep shared stopEvent loops .endBatch
        { loops with reader := .report eventsRead stopping }
  | malformed {loops : Loops} {event : TraceEvent} {eventsRead : Nat} {stopping : Bool} :
      loops.reader = .validate event eventsRead stopping →
      TraceRenderer.IsValidTraceEvent event event.header.size.toNat = false →
      LoopStep shared stopEvent loops (.malformed event)
        { loops with reader := .batch eventsRead stopping }
  | accept {loops : Loops} {event : TraceEvent} {eventsRead : Nat} {stopping : Bool} :
      loops.reader = .validate event eventsRead stopping →
      TraceRenderer.IsValidTraceEvent event event.header.size.toNat = true →
      LoopStep shared stopEvent loops (.accept event)
        { loops with reader := .push event eventsRead stopping false }
  | sleepNotFull {loops : Loops} {event : TraceEvent} {eventsRead : Nat} {stopping : Bool} :
      loops.reader = .push event eventsRead stopping false →
      ¬loops.eventQueue.length < TRACE_EVENT_QUEUE_CAPACITY →
      LoopStep shared stopEvent loops .sleepNotFull
        { loops with reader := .push event eventsRead stopping true }
  | wakeNotFull {loops : Loops} {event : TraceEvent} {eventsRead : Nat} {stopping : Bool} :
      loops.reader = .push event eventsRead stopping true →
      LoopStep shared stopEvent loops .wakeNotFull
        { loops with reader := .push event eventsRead stopping false }
  | push {loops : Loops} {event : TraceEvent} {eventsRead : Nat} {stopping : Bool} :
      loops.reader = .push event eventsRead stopping false →
      loops.eventQueue.length < TRACE_EVENT_QUEUE_CAPACITY →
      LoopStep shared stopEvent loops (.push event)
        { loops with
          reader := .notify eventsRead stopping
          eventQueue := loops.eventQueue ++ [event] }
  | notifyNotEmpty {loops : Loops} {eventsRead : Nat} {stopping : Bool} :
      loops.reader = .notify eventsRead stopping →
      LoopStep shared stopEvent loops .notifyNotEmpty
        { loops with
          reader := .batch eventsRead stopping
          writer := loops.writer.notified }
  | report {loops : Loops} {eventsRead : Nat} {stopping : Bool} :
      loops.reader = .report eventsRead stopping →
      LoopStep shared stopEvent loops (.report shared.ring.droppedEvents)
        { loops with
          reader := if eventsRead ≠ 0 then .batch 0 stopping else .clearWake stopping
          reportedDroppedCount :=
            if loops.reportedDroppedCount < shared.ring.droppedEvents then
              shared.ring.droppedEvents
            else loops.reportedDroppedCount }
  | waitStop {loops : Loops} :
      loops.reader = .wait → shared.wakeEvent = false → stopEvent = true →
      LoopStep shared stopEvent loops .waitStop { loops with reader := .batch 0 true }
  | waitFailed {loops : Loops} :
      loops.reader = .wait →
      LoopStep shared stopEvent loops .waitFailed { loops with reader := .finish }
  | finish {loops : Loops} :
      loops.reader = .finish →
      LoopStep shared stopEvent loops .finish
        { loops with reader := .notifyAll, readerFinished := true }
  | notifyAll {loops : Loops} :
      loops.reader = .notifyAll →
      LoopStep shared stopEvent loops .notifyAll
        { loops with reader := .done, writer := loops.writer.notified }
  | sleepNotEmpty {loops : Loops} :
      loops.writer = .pop false → loops.eventQueue = [] → loops.readerFinished = false →
      LoopStep shared stopEvent loops .sleepNotEmpty { loops with writer := .pop true }
  | wakeNotEmpty {loops : Loops} :
      loops.writer = .pop true →
      LoopStep shared stopEvent loops .wakeNotEmpty { loops with writer := .pop false }
  | pop {loops : Loops} {event : TraceEvent} {rest : List TraceEvent} :
      loops.writer = .pop false → loops.eventQueue = event :: rest →
      LoopStep shared stopEvent loops (.pop event)
        { loops with writer := .notify event, eventQueue := rest }
  | leave {loops : Loops} :
      loops.writer = .pop false → loops.eventQueue = [] → loops.readerFinished = true →
      LoopStep shared stopEvent loops .leave { loops with writer := .done }
  | notifyNotFull {loops : Loops} {event : TraceEvent} :
      loops.writer = .notify event →
      LoopStep shared stopEvent loops .notifyNotFull
        { loops with writer := .render event, reader := loops.reader.notified }
  | render {loops : Loops} {event : TraceEvent} :
      loops.writer = .render event →
      LoopStep shared stopEvent loops (.render event) { loops with writer := .pop false }

/-! ## The session -/

/-- The ring with its producers, the two loops, the stop event, and whether the
target has exited. -/
structure Machine (Thread : Type*) where
  ring : Ring.Machine Thread
  loops : Loops
  stopEvent : Bool
  exited : Bool

inductive Label (Thread : Type*) where
  | ring (label : Ring.Label Thread)
  | loop (label : LoopLabel)
  | exit
  | stop

variable {Thread : Type*}

/-- One step of one party.  The exit of the target stops its threads where they
are; `Stop` and `Drain` set the stop event and join the two threads. -/
inductive Step [DecidableEq Thread] (transport : Transport) :
    Machine Thread → Label Thread → Machine Thread → Prop where
  | producer {machine : Machine Thread} {thread : Thread} {label : EmitTraceEvent.Label}
      {ring : Ring.Machine Thread} :
      machine.exited = false →
      Ring.Step transport machine.ring (.producer thread label) ring →
      Step transport machine (.ring (.producer thread label)) { machine with ring := ring }
  | reader {machine : Machine Thread} {label : TryReadRing.Label} {ring : Ring.Machine Thread}
      {pc : ReaderLoop.Pc} :
      ReaderLoop.OnRing machine.loops.reader label pc →
      Ring.Step transport machine.ring (.reader label) ring →
      Step transport machine (.ring (.reader label))
        { machine with ring := ring, loops := { machine.loops with reader := pc } }
  | loop {machine : Machine Thread} {label : LoopLabel} {loops : Loops} :
      LoopStep machine.ring.shared machine.stopEvent machine.loops label loops →
      Step transport machine (.loop label) { machine with loops := loops }
  | exit {machine : Machine Thread} :
      machine.exited = false →
      Step transport machine .exit { machine with exited := true }
  | stop {machine : Machine Thread} :
      Step transport machine .stop { machine with stopEvent := true }

/-- `TraceSession::Start` has created the ring and started both threads. -/
def Initial (machine : Machine Thread) : Prop :=
  Ring.Initial machine.ring ∧ machine.loops = ⟨.batch 0 false, .pop false, [], false, 0⟩ ∧
  machine.stopEvent = false ∧ machine.exited = false

def system (transport : Transport) (Thread : Type*) [DecidableEq Thread] :
    System (Machine Thread) (Label Thread) where
  initial := Initial
  step := Step transport

/-- A session that has just started. -/
def startMachine (Thread : Type*) : Machine Thread where
  ring := Ring.startMachine Thread
  loops := ⟨.batch 0 false, .pop false, [], false, 0⟩
  stopEvent := false
  exited := false

theorem startMachine_initial : Initial (startMachine Thread) :=
  ⟨⟨rfl, fun _ => rfl, rfl⟩, rfl, rfl, rfl⟩

/-! ## Histories -/

def Label.ring? : Label Thread → Option (Ring.Label Thread)
  | .ring label => some label
  | _ => none

def Label.rendered? : Label Thread → Option TraceEvent
  | .loop (.render event) => some event
  | _ => none

/-- The part of a history that happens on the ring. -/
def ringHistory (history : List (Label Thread)) : List (Ring.Label Thread) :=
  history.filterMap Label.ring?

/-- The events passed to `RenderEvent`, in order. -/
def rendered (history : List (Label Thread)) : List TraceEvent :=
  history.filterMap Label.rendered?

theorem ringHistory_snoc (history : List (Label Thread)) (label : Label Thread) :
    ringHistory (history ++ [label]) = ringHistory history ++ label.ring?.toList := by
  cases entry : label.ring? <;> simp [ringHistory, entry]

theorem rendered_snoc (history : List (Label Thread)) (label : Label Thread) :
    rendered (history ++ [label]) = rendered history ++ label.rendered?.toList := by
  cases entry : label.rendered? <;> simp [rendered, entry]

/-- Seen on the ring, a run of a session is a run of the ring. -/
theorem Run.ring [DecidableEq Thread] {transport : Transport} {history : List (Label Thread)}
    {machine : Machine Thread} (run : (system transport Thread).Run history machine) :
    (Ring.system transport Thread).Run (ringHistory history) machine.ring := by
  refine @System.Run.invariant _ _ _
    (fun history machine => (Ring.system transport Thread).Run (ringHistory history) machine.ring)
    ?_ ?_ _ _ run
  · rintro machine ⟨isInitial, _⟩
    exact .start isInitial
  · intro history machine label next seen taken
    rw [ringHistory_snoc]
    cases taken with
    | producer _ step => exact seen.snoc step
    | reader _ step => exact seen.snoc step
    | loop | exit | stop => simpa only [Label.ring?, Option.toList_none, List.append_nil] using seen

end TraceSession

end ApiScope
