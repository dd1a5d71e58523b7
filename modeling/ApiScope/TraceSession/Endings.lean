import ApiScope.Hook.Registry
import ApiScope.Ring.Calls
import ApiScope.Trace.Builder
import ApiScope.TraceSession.Loops

/-!
# How a session comes to its end

While the target runs, its calls are steps of the session.  The reader takes what is
published at the head; once it has been told to stop and finds nothing there, it leaves, and
the writer leaves behind it when the queue is empty.
-/

namespace ApiScope

open Bytes Transition

namespace TraceSession

section Endings

variable {Thread : Type*} [DecidableEq Thread] {transport : Transport} {machine : Machine Thread}
  {labels : List (Label Thread)} {post : Machine Thread → Prop} {droppedCount : UInt32}

/-! ## Calls of the target -/

/-- What one thread does on the ring, it does in the session while the target runs. -/
theorem path_solo {thread : Thread} {steps : List (Ring.Label Thread)} {last : Ring.Machine Thread}
    (running : machine.exited = false) (solo : Ring.Solo thread steps)
    (path : (Ring.system transport Thread).Path machine.ring steps last) :
    (system transport Thread).Path machine (steps.map .ring) { machine with ring := last } := by
  generalize start : machine.ring = ring at path
  induction path with
  | refl =>
      subst start
      exact .refl machine
  | @snoc middle last steps label _ taken inductionHypothesis =>
      obtain ⟨own, rfl⟩ := solo label (by simp)
      have before := inductionHypothesis fun label member => solo label (by simp [member])
      rw [List.map_append]
      exact before.snoc (.producer running taken)

/-! ## The reader -/

/-- The reader takes a published event out of the ring. -/
theorem admits_deliver {machine : Machine Thread} {labels : List (Label Thread)}
    {post : Machine Thread → Prop} {eventsRead : Nat} {stopping : Bool} {slot : TraceRingSlot}
    (batch : machine.loops.reader = .batch eventsRead stopping)
    (more : eventsRead < TRACE_RING_READ_BATCH) (idle : machine.ring.reader = .idle)
    (atHead : machine.ring.shared.ring.slotAt machine.ring.shared.ring.dequeuePosition = slot)
    (published : slot.sequence = machine.ring.shared.ring.dequeuePosition + 1)
    (sized : slot.event.length = TRACE_MAX_EVENT_BYTES)
    (rest : (system transport Thread).Admits
      { machine with
        ring := { machine.ring with
          shared := { machine.ring.shared with
            ring := { machine.ring.shared.ring.setSlot machine.ring.shared.ring.dequeuePosition
                ⟨machine.ring.shared.ring.dequeuePosition + TRACE_RING_CAPACITY, slot.event⟩ with
              dequeuePosition := machine.ring.shared.ring.dequeuePosition + 1 } }
          reader := .idle }
        loops := { machine.loops with
          reader := .validate (.ofBytes slot.event) (eventsRead + 1) stopping } }
      labels post) :
    (system transport Thread).Admits machine
      (.ring (.reader .loadPosition) :: .ring (.reader .hit) ::
        .ring (.reader (.copy TRACE_MAX_EVENT_BYTES)) :: .ring (.reader .release) ::
        .ring (.reader (.deliver (.ofBytes slot.event))) :: labels) post := by
  obtain ⟨⟨shared, producers, reader⟩, ⟨loop, writer, eventQueue, finished, reported⟩, stopEvent,
    exited⟩ := machine
  dsimp only at batch idle atHead published
  subst batch idle
  have copied : [] ++ slice (shared.ring.slotAt shared.ring.dequeuePosition).event 0
      TRACE_MAX_EVENT_BYTES = slot.event := by
    rw [atHead, slice, List.drop_zero, List.nil_append]
    exact List.take_of_length_le sized.le
  have reads : (ReaderLoop.Pc.batch eventsRead stopping).reads = true := by
    simpa [ReaderLoop.Pc.reads] using more
  refine .cons (.reader (.loadPosition reads) (.reader .loadPosition)) ?_
  refine .cons (.reader (.hit reads) (.reader (.hit (atHead ▸ published)))) ?_
  refine .cons (.reader (.copy reads) (.reader (.copy (by simp)))) ?_
  simp only [List.length_nil, copied]
  refine .cons (.reader (.release reads) (.reader (.release sized))) ?_
  refine .cons (.reader (.deliver reads) (.reader .deliver)) ?_
  simpa only [atHead, ReaderLoop.Pc.read] using rest

/-- The reader takes a published event, and finds it well formed and the queue not full. -/
def take (event : TraceEvent) : List (Label Thread) :=
  [.ring (.reader .loadPosition), .ring (.reader .hit),
    .ring (.reader (.copy TRACE_MAX_EVENT_BYTES)), .ring (.reader .release),
    .ring (.reader (.deliver event)), .loop (.accept event), .loop (.push event),
    .loop .notifyNotEmpty]

theorem admits_take {eventsRead : Nat} {stopping : Bool} {slot : TraceRingSlot}
    (batch : machine.loops.reader = .batch eventsRead stopping)
    (more : eventsRead < TRACE_RING_READ_BATCH) (idle : machine.ring.reader = .idle)
    (atHead : machine.ring.shared.ring.slotAt machine.ring.shared.ring.dequeuePosition = slot)
    (published : slot.sequence = machine.ring.shared.ring.dequeuePosition + 1)
    (sized : slot.event.length = TRACE_MAX_EVENT_BYTES)
    (accepted : TraceRenderer.IsValidTraceEvent (.ofBytes slot.event)
      (TraceEvent.ofBytes slot.event).header.size.toNat = true)
    (room : machine.loops.eventQueue.length < TRACE_EVENT_QUEUE_CAPACITY)
    (rest : (system transport Thread).Admits
      { machine with
        ring := { machine.ring with
          shared := { machine.ring.shared with
            ring := { machine.ring.shared.ring.setSlot machine.ring.shared.ring.dequeuePosition
                ⟨machine.ring.shared.ring.dequeuePosition + TRACE_RING_CAPACITY, slot.event⟩ with
              dequeuePosition := machine.ring.shared.ring.dequeuePosition + 1 } }
          reader := .idle }
        loops := { machine.loops with
          reader := .batch (eventsRead + 1) stopping
          writer := machine.loops.writer.notified
          eventQueue := machine.loops.eventQueue ++ [.ofBytes slot.event] } }
      labels post) :
    (system transport Thread).Admits machine (take (.ofBytes slot.event) ++ labels) post := by
  refine admits_deliver batch more idle atHead published sized ?_
  refine .cons (.loop (.accept rfl accepted)) ?_
  refine .cons (.loop (.push rfl room)) ?_
  exact .cons (.loop (.notifyNotEmpty rfl)) rest

/-- A batch without events, the reset, and the second look. -/
def emptyRound (droppedCount : UInt32) : List (Label Thread) :=
  [.ring (.reader .loadPosition), .ring (.reader .miss), .loop (.report droppedCount),
    .ring (.reader .clearWake), .ring (.reader .loadPosition), .ring (.reader .miss)]

theorem admits_emptyRound {stopping : Bool} (batch : machine.loops.reader = .batch 0 stopping)
    (idle : machine.ring.reader = .idle)
    (unpublished : (machine.ring.shared.ring.slotAt
      machine.ring.shared.ring.dequeuePosition).sequence ≠
      machine.ring.shared.ring.dequeuePosition + 1)
    (drops : machine.ring.shared.ring.droppedEvents = droppedCount)
    (below : machine.loops.reportedDroppedCount ≤ droppedCount)
    (rest : (system transport Thread).Admits
      { machine with
        ring := { machine.ring with
          shared := { machine.ring.shared with
            ring := { machine.ring.shared.ring with wakePending := 0 } } }
        loops := { machine.loops with
          reader := (ReaderLoop.Pc.recheck stopping).missed
          reportedDroppedCount := droppedCount } }
      labels post) :
    (system transport Thread).Admits machine (emptyRound droppedCount ++ labels) post := by
  obtain ⟨⟨shared, producers, reader⟩, ⟨loop, writer, eventQueue, finished, reported⟩, stopEvent,
    exited⟩ := machine
  dsimp only at batch idle unpublished drops below
  subst batch idle drops
  have report : LoopStep shared stopEvent ⟨.report 0 stopping, writer, eventQueue, finished, reported⟩
      (.report shared.ring.droppedEvents)
      ⟨.clearWake stopping, writer, eventQueue, finished, shared.ring.droppedEvents⟩ := by
    have step := @LoopStep.report shared stopEvent
      ⟨.report 0 stopping, writer, eventQueue, finished, reported⟩ 0 stopping rfl
    have told : (if reported < shared.ring.droppedEvents then shared.ring.droppedEvents
        else reported) = shared.ring.droppedEvents := by
      split_ifs with grown
      · rfl
      · exact UInt32.le_antisymm below (UInt32.not_lt.mp grown)
    rwa [told] at step
  refine .cons (.reader (.loadPosition rfl) (.reader .loadPosition)) ?_
  refine .cons (.reader (.miss rfl) (.reader (.miss unpublished))) ?_
  refine .cons (.loop report) ?_
  refine .cons (.reader .clearWake (.reader .clearWake)) ?_
  refine .cons (.reader (.loadPosition rfl) (.reader .loadPosition)) ?_
  exact .cons (.reader (.miss rfl) (.reader (.miss unpublished))) rest

/-- Woken for the last time, the reader finds nothing at the head, and leaves when it is told
to stop. -/
def closing (droppedCount : UInt32) : List (Label Thread) :=
  .ring (.reader .consumeWake) :: (emptyRound droppedCount ++
    .loop .waitStop :: (emptyRound droppedCount ++ [.loop .finish, .loop .notifyAll]))

theorem admits_closing (wait : machine.loops.reader = .wait)
    (idle : machine.ring.reader = .idle)
    (unpublished : (machine.ring.shared.ring.slotAt
      machine.ring.shared.ring.dequeuePosition).sequence ≠
      machine.ring.shared.ring.dequeuePosition + 1)
    (drops : machine.ring.shared.ring.droppedEvents = droppedCount)
    (below : machine.loops.reportedDroppedCount ≤ droppedCount)
    (woken : machine.ring.shared.wakeEvent = true) (stopped : machine.stopEvent = true)
    (rest : (system transport Thread).Admits
      { machine with
        ring := { machine.ring with
          shared := ⟨{ machine.ring.shared.ring with wakePending := 0 }, false⟩ }
        loops := ⟨.done, machine.loops.writer.notified, machine.loops.eventQueue, true,
          droppedCount⟩ }
      labels post) :
    (system transport Thread).Admits machine (closing droppedCount ++ labels) post := by
  obtain ⟨⟨⟨ring, wakeEvent⟩, producers, reader⟩, ⟨loop, writer, eventQueue, finished, reported⟩,
    stopEvent, exited⟩ := machine
  dsimp only at wait idle unpublished drops below woken stopped
  subst wait idle woken stopped
  simp only [closing, List.cons_append, List.append_assoc, List.nil_append]
  refine .cons (.reader .consumeWake (.reader (.consumeWake rfl))) ?_
  refine admits_emptyRound rfl rfl unpublished drops below ?_
  refine .cons (.loop (.waitStop rfl rfl rfl)) ?_
  refine admits_emptyRound rfl rfl unpublished drops (UInt32.le_refl _) ?_
  refine .cons (.loop (.finish rfl)) ?_
  exact .cons (.loop (.notifyAll rfl)) rest

/-- The reader finds nothing in its batch, and is told to stop. -/
def ending (droppedCount : UInt32) : List (Label Thread) :=
  .stop :: (emptyRound droppedCount ++ closing droppedCount)

theorem admits_ending (batch : machine.loops.reader = .batch 0 false)
    (idle : machine.ring.reader = .idle)
    (unpublished : (machine.ring.shared.ring.slotAt
      machine.ring.shared.ring.dequeuePosition).sequence ≠
      machine.ring.shared.ring.dequeuePosition + 1)
    (drops : machine.ring.shared.ring.droppedEvents = droppedCount)
    (below : machine.loops.reportedDroppedCount ≤ droppedCount)
    (woken : machine.ring.shared.wakeEvent = true)
    (rest : (system transport Thread).Admits
      { machine with
        ring := { machine.ring with
          shared := ⟨{ machine.ring.shared.ring with wakePending := 0 }, false⟩ }
        loops := ⟨.done, machine.loops.writer.notified, machine.loops.eventQueue, true, droppedCount⟩
        stopEvent := true }
      labels post) :
    (system transport Thread).Admits machine (ending droppedCount ++ labels) post := by
  rw [ending, List.cons_append, List.append_assoc]
  refine .cons .stop ?_
  refine admits_emptyRound batch idle unpublished drops below ?_
  exact admits_closing rfl idle unpublished drops (UInt32.le_refl _) woken rfl rest

/-! ## The writer -/

/-- The writer renders the queue, and leaves behind the reader. -/
def renders (events : List TraceEvent) : List (Label Thread) :=
  (events.flatMap fun event => [.loop (.pop event), .loop .notifyNotFull, .loop (.render event)]) ++
    [.loop .leave]

theorem admits_renders {ring : Ring.Machine Thread} {stopEvent exited : Bool}
    (events : List TraceEvent) :
    (system transport Thread).Admits
      ⟨ring, ⟨.done, .pop false, events, true, droppedCount⟩, stopEvent, exited⟩ (renders events)
      (· = ⟨ring, ⟨.done, .done, [], true, droppedCount⟩, stopEvent, exited⟩) := by
  induction events with
  | nil => exact .cons (.loop (.leave rfl rfl rfl)) (.nil rfl)
  | cons event events inductionHypothesis =>
      refine .cons (.loop (.pop rfl rfl)) ?_
      refine .cons (.loop (.notifyNotFull rfl)) ?_
      exact .cons (.loop (.render rfl)) inductionHypothesis

end Endings

/-! ## Three calls of two threads -/

namespace Sample

/-- What the handler of `BCryptOpenAlgorithmProvider` emits. -/
def emitted (threadId flags : UInt32) : TraceEvent :=
  (TraceTransport.addAll
    (TraceTransport.InitializeTraceEvent ⟨threadId, 133⟩ (some (narrow "bcrypt.dll"))
      (some (narrow "BCryptOpenAlgorithmProvider"))).2 [
    .pointer (some (narrow "algorithm")) 0x1000, .pointer (some (narrow "algorithm_id")) 0x2000,
    .pointer (some (narrow "implementation")) 0, .uint32 (some (narrow "flags")) flags,
    .status (some (narrow "result")) 0]).2

def first : TraceEvent := EmitTraceEvent.withSequence (emitted 7 4) 1
def second : TraceEvent := EmitTraceEvent.withSequence (emitted 9 8) 2
def third : TraceEvent := EmitTraceEvent.withSequence (emitted 7 0) 3

/-- All three events have one size. -/
def size : Nat := first.header.size.toNat

/-- What the reader takes when an event has been stored. -/
def taken (event : TraceEvent) : TraceEvent := .ofBytes (Ring.storedBytes event)

/-- Both threads call at once, and the second one publishes first.  Then the first one calls
again. -/
def before : List (Label Bool) :=
  [.ring (.producer true (.call (emitted 7 4))), .ring (.producer false (.call (emitted 9 8))),
    .ring (.producer true (.takeSequence first)), .ring (.producer false (.takeSequence second)),
    .ring (.producer true (.loadPosition 0)), .ring (.producer true (.loadSequence 0)),
    .ring (.producer true (.claim first 0)),
    .ring (.producer false (.loadPosition 1)), .ring (.producer false (.loadSequence 0)),
    .ring (.producer false (.claim second 1)), .ring (.producer false (.copy size)),
    .ring (.producer false (.publish 1)), .ring (.producer false .requestWake),
    .ring (.producer false .setEvent), .ring (.producer false (.finish second 1)),
    .ring (.producer true (.copy size)), .ring (.producer true (.publish 0)),
    .ring (.producer true .requestWake), .ring (.producer true (.finish first 0)),
    .ring (.producer true (.call (emitted 7 0))), .ring (.producer true (.takeSequence third)),
    .ring (.producer true (.loadPosition 2)), .ring (.producer true (.loadSequence 0)),
    .ring (.producer true (.claim third 2)), .ring (.producer true (.copy size)),
    .ring (.producer true (.publish 2)), .ring (.producer true .requestWake),
    .ring (.producer true (.finish third 2))]

/-- After the exit the reader takes the three events, and the writer renders them. -/
def after : List (Label Bool) :=
  take (taken first) ++ (take (taken second) ++ (take (taken third) ++
    .ring (.reader .loadPosition) :: .ring (.reader .miss) :: .loop (.report 0) ::
      (ending 0 ++ renders [taken first, taken second, taken third])))

theorem run : ∃ final, (system ⟨true, true⟩ Bool).Run (before ++ .exit :: after) final ∧
    final.loops.reader = .done ∧ final.loops.writer = .done ∧
    ∀ thread, final.ring.producers thread = .idle := by
  refine System.Admits.run ?_ startMachine_initial
  refine .cons (.producer rfl (.producer (.call (by decide +kernel)))) ?_
  refine .cons (.producer rfl (.producer (.call (by decide +kernel)))) ?_
  refine .cons (.producer rfl (.producer .takeSequence)) ?_
  refine .cons (.producer rfl (.producer .takeSequence)) ?_
  refine .cons (.producer rfl (.producer .loadPosition)) ?_
  refine .cons (.producer rfl (.producer (.free (by decide)))) ?_
  refine .cons (.producer rfl (.producer (.claim rfl))) ?_
  refine .cons (.producer rfl (.producer .loadPosition)) ?_
  refine .cons (.producer rfl (.producer (.free (by decide)))) ?_
  refine .cons (.producer rfl (.producer (.claim rfl))) ?_
  refine .cons (.producer rfl (.producer (.copy (by decide +kernel)))) ?_
  refine .cons (.producer rfl (.producer (.publish (by decide +kernel)))) ?_
  refine .cons (.producer rfl (.producer (.requestFirst rfl rfl))) ?_
  refine .cons (.producer rfl (.producer .setEvent)) ?_
  refine .cons (.producer rfl (.producer .finish)) ?_
  refine .cons (.producer rfl (.producer (.copy (by decide +kernel)))) ?_
  refine .cons (.producer rfl (.producer (.publish (by decide +kernel)))) ?_
  refine .cons (.producer rfl (.producer (.requestAgain rfl (by decide)))) ?_
  refine .cons (.producer rfl (.producer .finish)) ?_
  refine .cons (.producer rfl (.producer (.call (by decide +kernel)))) ?_
  refine .cons (.producer rfl (.producer .takeSequence)) ?_
  refine .cons (.producer rfl (.producer .loadPosition)) ?_
  refine .cons (.producer rfl (.producer (.free (by decide)))) ?_
  refine .cons (.producer rfl (.producer (.claim rfl))) ?_
  refine .cons (.producer rfl (.producer (.copy (by decide +kernel)))) ?_
  refine .cons (.producer rfl (.producer (.publish (by decide +kernel)))) ?_
  refine .cons (.producer rfl (.producer (.requestAgain rfl (by decide)))) ?_
  refine .cons (.producer rfl (.producer .finish)) ?_
  refine .cons (.exit rfl) ?_
  refine admits_take rfl (by decide) rfl rfl rfl (Ring.length_storedBytes _) (by decide +kernel)
    (by decide) ?_
  refine admits_take rfl (by decide) rfl rfl rfl (Ring.length_storedBytes _) (by decide +kernel)
    (by decide) ?_
  refine admits_take rfl (by decide) rfl rfl rfl (Ring.length_storedBytes _) (by decide +kernel)
    (by decide) ?_
  refine .cons (.reader (.loadPosition rfl) (.reader .loadPosition)) ?_
  refine .cons (.reader (.miss rfl) (.reader (.miss (by decide)))) ?_
  refine .cons (.loop (.report rfl)) ?_
  refine admits_ending rfl rfl (by decide) rfl (by decide) rfl ?_
  refine (admits_renders _).mono ?_
  rintro final rfl
  refine ⟨rfl, rfl, fun thread => ?_⟩
  cases thread <;> rfl

end Sample

end TraceSession

end ApiScope
