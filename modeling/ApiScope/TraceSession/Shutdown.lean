import ApiScope.Library.Ranking
import ApiScope.TraceSession.Queue

/-!
# The two threads come to an end

`Stop` and `Drain` set the stop event and join the reader and the writer.  A potential pays for
every step of the two: what the ring still holds, what is queued, and how far each thread is
from its next wait.  Only a claim, a set event or a spurious wakeup puts something in, so the
threads never spin.  Once the stop event is set one of them can always go on.
-/

namespace ApiScope

open Transition

/-! ## What is left to do -/

/-- The event the reader has found a published slot for is no longer ahead of it. -/
def TryReadRing.Pc.found : TryReadRing.Pc → Nat
  | .copy _ _ | .advance _ _ => 1
  | _ => 0

/-- A byte may be copied at a time. -/
def TryReadRing.Pc.potential : TryReadRing.Pc → Nat
  | .loadSequence _ => 0
  | .idle => 1
  | .advance _ _ => 18
  | .copy _ copied => 19 + (TRACE_MAX_EVENT_BYTES - copied.length)

theorem TryReadRing.Pc.potential_le (pc : TryReadRing.Pc) :
    pc.potential ≤ 19 + TRACE_MAX_EVENT_BYTES := by
  cases pc with
  | copy position copied => exact Nat.add_le_add_left (Nat.sub_le _ _) 19
  | idle | loadSequence | advance => simp [TryReadRing.Pc.potential]

namespace TraceSession

/-- Reading one event, from the load that finds it. -/
def stepsForEvent : Nat := TRACE_MAX_EVENT_BYTES + 20

namespace ReaderLoop.Pc

/-- A batch that has read something is followed by another one. -/
def potential : ReaderLoop.Pc → Nat
  | done => 0
  | notifyAll => 2
  | finish => 3
  | wait => 4
  | recheck _ => 6
  | clearWake _ => 7
  | report eventsRead _ => if eventsRead = 0 then 8 else 11
  | batch eventsRead _ => if eventsRead = 0 then 10 else 13
  | notify _ _ => 15
  | push _ _ _ true => 20
  | push _ _ _ false => 21
  | validate _ _ _ => 22

/-- The stop event is seen once. -/
def ahead (pc : ReaderLoop.Pc) : Nat := 7 - 7 * pc.stopping.toNat

end ReaderLoop.Pc

def WriterLoop.Pc.potential : WriterLoop.Pc → Nat
  | done => 0
  | pop true => 1
  | pop false => 2
  | render _ => 3
  | notify _ => 5

def Loops.potential (loops : Loops) : Nat :=
  loops.reader.potential + loops.reader.ahead + loops.writer.potential + 4 * loops.eventQueue.length

variable {Thread : Type*}

/-- The claimed positions the reader has yet to look at. -/
def Machine.unread (machine : Machine Thread) : Nat :=
  machine.ring.shared.ring.enqueuePosition - machine.ring.shared.ring.dequeuePosition

def Machine.potential (machine : Machine Thread) : Nat :=
  stepsForEvent * (machine.unread - machine.ring.reader.found) + machine.ring.reader.potential +
    7 * machine.ring.shared.wakeEvent.toNat + machine.loops.potential

namespace Label

/-- A step of the reader or the writer that gets somewhere, unlike an empty copy or a
spurious wakeup. -/
def works : Label Thread → Bool
  | ring (.reader (.copy count)) => count != 0
  | ring (.reader _) => true
  | loop .wakeNotFull | loop .wakeNotEmpty => false
  | loop _ => true
  | _ => false

/-- It works, and not because a wait has failed. -/
def proceeds : Label Thread → Bool
  | loop .waitFailed => false
  | label => label.works

/-- How many steps of the two threads a step may cause. -/
def demand : Label Thread → Nat
  | ring (.producer _ (.claim _ _)) => stepsForEvent
  | ring (.producer _ .setEvent) => 7
  | loop .wakeNotFull | loop .wakeNotEmpty => 1
  | _ => 0

end Label

theorem ReaderLoop.Pc.potential_le (pc : ReaderLoop.Pc) : pc.potential ≤ 22 := by
  cases pc with
  | push event eventsRead stopping asleep => cases asleep <;> simp [potential]
  | batch | report =>
      dsimp only [potential]
      split_ifs <;> simp
  | _ => simp [potential]

theorem WriterLoop.Pc.potential_le (pc : WriterLoop.Pc) : pc.potential ≤ 5 := by
  cases pc with
  | pop asleep => cases asleep <;> simp [potential]
  | _ => simp [potential]

/-- What there is to do, from what is unread and what is queued. -/
theorem Machine.potential_le (machine : Machine Thread) :
    machine.potential ≤
      stepsForEvent * machine.unread + 4 * machine.loops.eventQueue.length + 1084 := by
  have ahead : machine.loops.reader.ahead ≤ 7 := Nat.sub_le _ _
  have reading := machine.ring.reader.potential_le
  have reader := machine.loops.reader.potential_le
  have writer := machine.loops.writer.potential_le
  have signalled := machine.ring.shared.wakeEvent.toNat_le
  have unread := Nat.mul_le_mul_left stepsForEvent
    (Nat.sub_le machine.unread machine.ring.reader.found)
  dsimp only [potential, Loops.potential]
  dsimp only [TRACE_MAX_EVENT_BYTES] at reading
  omega

theorem Label.free_of_proceeds {label : Label Thread} (proceeds : label.proceeds = true) :
    label.works = true ∧ label.demand = 0 := by
  cases label with
  | ring label =>
      cases label with
      | producer => cases proceeds
      | reader => exact ⟨proceeds, rfl⟩
  | loop label =>
      cases label with
      | waitFailed | wakeNotFull | wakeNotEmpty => cases proceeds
      | _ => exact ⟨rfl, rfl⟩
  | exit | stop => cases proceeds

/-! ## Every step is paid for -/

theorem ReaderLoop.Pc.potential_notified_le (pc : ReaderLoop.Pc) :
    pc.notified.potential ≤ pc.potential + 1 := by
  cases pc with
  | push event eventsRead stopping asleep => cases asleep <;> simp [notified, potential]
  | _ => exact Nat.le_succ _

@[simp]
theorem ReaderLoop.Pc.ahead_notified (pc : ReaderLoop.Pc) : pc.notified.ahead = pc.ahead := by
  cases pc <;> rfl

theorem WriterLoop.Pc.potential_notified_le (pc : WriterLoop.Pc) :
    pc.notified.potential ≤ pc.potential + 1 := by
  cases pc with
  | pop asleep => cases asleep <;> simp [notified, potential]
  | _ => exact Nat.le_succ _

theorem LoopStep.paid (Thread : Type*) {shared : Shared} {stopEvent : Bool} {loops loops' : Loops}
    {label : LoopLabel} (taken : LoopStep shared stopEvent loops label loops') :
    loops'.potential + (Label.loop label : Label Thread).works.toNat ≤
      loops.potential + (Label.loop label : Label Thread).demand := by
  obtain ⟨reader, writer, eventQueue, readerFinished, reportedDroppedCount⟩ := loops
  have readerWoken := reader.potential_notified_le
  have writerWoken := writer.potential_notified_le
  cases taken with
  | render at_ | sleepNotEmpty at_ | wakeNotEmpty at_ | leave at_ =>
      dsimp only at at_
      subst at_
      dsimp only [Loops.potential, WriterLoop.Pc.potential, Label.works, Label.demand,
        Bool.toNat_true, Bool.toNat_false]
      omega
  | pop at_ queued =>
      dsimp only at at_ queued
      subst at_ queued
      dsimp only [Loops.potential, WriterLoop.Pc.potential, Label.works, Label.demand,
        Bool.toNat_true]
      rw [List.length_cons]
      omega
  | notifyNotFull at_ =>
      dsimp only at at_
      subst at_
      dsimp only [Loops.potential, WriterLoop.Pc.potential, Label.works, Label.demand,
        Bool.toNat_true]
      rw [ReaderLoop.Pc.ahead_notified]
      omega
  | finish at_ | notifyAll at_ | waitFailed at_ | accept at_ | sleepNotFull at_ | wakeNotFull at_ =>
      dsimp only at at_
      subst at_
      dsimp only [Loops.potential, ReaderLoop.Pc.potential, ReaderLoop.Pc.ahead,
        ReaderLoop.Pc.stopping, Label.works, Label.demand, Bool.toNat_true, Bool.toNat_false]
      omega
  | push at_ =>
      dsimp only at at_
      subst at_
      dsimp only [Loops.potential, ReaderLoop.Pc.potential, ReaderLoop.Pc.ahead,
        ReaderLoop.Pc.stopping, Label.works, Label.demand, Bool.toNat_true]
      rw [List.length_append, List.length_singleton]
      omega
  | report at_ =>
      dsimp only at at_
      subst at_
      dsimp only [Loops.potential, Label.works, Label.demand, Bool.toNat_true]
      split_ifs with found
      all_goals
        dsimp only [ReaderLoop.Pc.potential, ReaderLoop.Pc.ahead, ReaderLoop.Pc.stopping]
        split_ifs <;> omega
  | endBatch at_ full =>
      dsimp only at at_
      subst at_
      -- A full batch is not empty, so another one follows it.
      have found : 256 ≤ _ := Nat.not_lt.mp full
      dsimp only [Loops.potential, ReaderLoop.Pc.potential, ReaderLoop.Pc.ahead,
        ReaderLoop.Pc.stopping, Label.works, Label.demand, Bool.toNat_true]
      split_ifs <;> omega
  | waitStop at_ | malformed at_ | notifyNotEmpty at_ =>
      dsimp only at at_
      subst at_
      dsimp only [Loops.potential, ReaderLoop.Pc.potential, ReaderLoop.Pc.ahead,
        ReaderLoop.Pc.stopping, Label.works, Label.demand, Bool.toNat_true, Bool.toNat_false]
      split_ifs <;> omega

/-- `TryReadRing` returning false ends a batch or the second look. -/
theorem ReaderLoop.Pc.missed_paid {pc : ReaderLoop.Pc} (call : pc.reads = true) :
    pc.missed.potential + pc.missed.ahead + 2 ≤ pc.potential + pc.ahead := by
  cases pc with
  | batch eventsRead stopping =>
      dsimp only [missed, potential, ahead, ReaderLoop.Pc.stopping]
      split_ifs <;> omega
  | recheck stopping => cases stopping <;> decide
  | _ => cases call

theorem ReaderLoop.Pc.read_paid {pc : ReaderLoop.Pc} (call : pc.reads = true)
    (event : TraceEvent) :
    (pc.read event).potential + (pc.read event).ahead ≤ pc.potential + pc.ahead + 16 := by
  cases pc with
  | batch eventsRead stopping =>
      dsimp only [read, potential, ahead, ReaderLoop.Pc.stopping]
      split_ifs <;> omega
  | recheck stopping =>
      dsimp only [read, potential, ahead, ReaderLoop.Pc.stopping]
      omega
  | _ => cases call

/-- A producer causes work by its claim and by setting the event. -/
theorem producer_paid (thread : Thread) {transport : Transport} {shared shared' : Shared}
    {pc pc' : EmitTraceEvent.Pc} {label : EmitTraceEvent.Label}
    (taken : EmitTraceEvent.Step transport shared pc label shared' pc') (found : Nat) :
    stepsForEvent * (shared'.ring.enqueuePosition - shared'.ring.dequeuePosition - found) +
        7 * shared'.wakeEvent.toNat ≤
      stepsForEvent * (shared.ring.enqueuePosition - shared.ring.dequeuePosition - found) +
        7 * shared.wakeEvent.toNat +
        (Label.ring (.producer thread label) : Label Thread).demand := by
  cases taken with
  | @claim event position same =>
      have further : position + 1 - shared.ring.dequeuePosition - found ≤
          position - shared.ring.dequeuePosition - found + 1 := by omega
      have paid := Nat.mul_le_mul_left stepsForEvent further
      rw [Nat.mul_succ] at paid
      dsimp only [Label.demand]
      rw [same]
      omega
  | setEvent =>
      dsimp only [Label.demand, Bool.toNat_true]
      omega
  | _ => exact le_rfl

/-- Finding an event takes it off those ahead, which pays for the copy. -/
theorem reader_paid (Thread : Type*) {shared shared' : Shared} {pc pc' : TryReadRing.Pc}
    {loop loop' : ReaderLoop.Pc} {label : TryReadRing.Label}
    (taken : TryReadRing.Step shared pc label shared' pc')
    (onRing : ReaderLoop.OnRing loop label loop') (current : Ring.ReaderLocal shared.ring pc)
    (wide : ∀ position, (shared.ring.slotAt position).event.length = TRACE_MAX_EVENT_BYTES)
    (found : pc'.found ≤ shared'.ring.enqueuePosition - shared'.ring.dequeuePosition) :
    stepsForEvent * (shared'.ring.enqueuePosition - shared'.ring.dequeuePosition - pc'.found) +
        pc'.potential + 7 * shared'.wakeEvent.toNat + (loop'.potential + loop'.ahead) +
        (Label.ring (.reader label) : Label Thread).works.toNat ≤
      stepsForEvent * (shared.ring.enqueuePosition - shared.ring.dequeuePosition - pc.found) +
        pc.potential + 7 * shared.wakeEvent.toNat + (loop.potential + loop.ahead) := by
  cases taken with
  | loadPosition =>
      cases onRing
      dsimp only [TryReadRing.Pc.potential, TryReadRing.Pc.found, Label.works, Bool.toNat_true]
      omega
  | miss =>
      cases onRing with
      | miss call =>
          have paid := ReaderLoop.Pc.missed_paid call
          dsimp only [TryReadRing.Pc.potential, TryReadRing.Pc.found, Label.works, Bool.toNat_true]
          omega
  | hit =>
      cases onRing
      obtain ⟨unread, unreadEq⟩ := Nat.exists_eq_add_of_le found
      dsimp only [TryReadRing.Pc.found] at unreadEq ⊢
      dsimp only [TryReadRing.Pc.potential, Label.works, Bool.toNat_true]
      rw [unreadEq, List.length_nil, Nat.add_sub_cancel_left, Nat.sub_zero, Nat.sub_zero,
        Nat.mul_add, Nat.mul_one]
      dsimp only [stepsForEvent]
      omega
  | @copy position count copied inside =>
      cases onRing
      have length : (copied ++ Bytes.slice (shared.ring.slotAt position).event copied.length
          count).length = copied.length + count := by
        rw [List.length_append, Bytes.length_slice, wide]
        omega
      dsimp only [TryReadRing.Pc.potential, TryReadRing.Pc.found, Label.works]
      rw [length]
      cases count with
      | zero => exact le_rfl
      | succ count =>
          have fewer : TRACE_MAX_EVENT_BYTES - (copied.length + (count + 1)) + 1 ≤
              TRACE_MAX_EVENT_BYTES - copied.length := by omega
          rw [show ((count + 1) != 0) = true from rfl, Bool.toNat_true]
          omega
  | release full =>
      cases onRing
      dsimp only [TraceRing.setSlot, TryReadRing.Pc.potential, TryReadRing.Pc.found, Label.works,
        Bool.toNat_true]
      omega
  | @deliver position copied =>
      cases onRing with
      | deliver call =>
          have paid := ReaderLoop.Pc.read_paid call (.ofBytes copied)
          rw [current.1]
          dsimp only [TryReadRing.Pc.potential, TryReadRing.Pc.found, Label.works, Bool.toNat_true]
          rw [Nat.sub_zero, ← Nat.sub_sub]
          omega
  | clearWake =>
      cases onRing
      dsimp only [ReaderLoop.Pc.potential, ReaderLoop.Pc.ahead, ReaderLoop.Pc.stopping, Label.works,
        Bool.toNat_true]
      omega
  | consumeWake set =>
      cases onRing
      dsimp only [ReaderLoop.Pc.potential, ReaderLoop.Pc.ahead, ReaderLoop.Pc.stopping, Label.works,
        Bool.toNat_true, Bool.toNat_false]
      rw [set, Bool.toNat_true]
      split_ifs <;> omega

/-- An event the reader has found has been claimed. -/
theorem found_le_unread {history : List (Label Thread)} {machine : Machine Thread}
    (inv : Ring.Invariant (ringHistory history) machine.ring) :
    machine.ring.reader.found ≤ machine.unread := by
  unfold Machine.unread
  have behind := inv.protocol.head_le_tail
  have published := inv.protocol.reader_published
  simp only [Ring.view, Ring.released] at behind published
  cases readerEq : machine.ring.reader with
  | idle | loadSequence => exact Nat.zero_le _
  | copy position copied =>
      rw [readerEq] at published
      have claimed := (published copied rfl).1
      exact Nat.sub_pos_of_lt claimed
  | advance position copied =>
      rw [readerEq] at behind
      exact Nat.le_sub_of_add_le (Nat.add_comm 1 _ ▸ behind)

section Runs

variable [DecidableEq Thread] {transport : Transport} {history : List (Label Thread)}
  {machine next : Machine Thread} {label : Label Thread}

theorem Run.paid (run : (system transport Thread).Run history machine)
    (taken : (system transport Thread).step machine label next) :
    next.potential + label.works.toNat ≤ machine.potential + label.demand := by
  have inv := Ring.Run.invariant (Run.ring run)
  have inv' := Ring.Run.invariant (Run.ring (run.snoc taken))
  have found := found_le_unread inv'
  cases taken with
  | exit | stop => exact le_rfl
  | loop step =>
      have paid := step.paid Thread
      simp only [Machine.potential, Machine.unread]
      omega
  | @producer thread label ring _ step =>
      cases step with
      | producer step =>
          have paid := producer_paid thread step machine.ring.reader.found
          simp only [Machine.potential, Machine.unread, Label.works, Bool.toNat_false]
          omega
  | @reader label ring pc onRing step =>
      cases step with
      | @reader _ shared reader step =>
          have current := inv.locals.reader
          have wide := fun position => inv.protocol.cells_length (slotIndex position)
          have paid := reader_paid Thread step onRing current wide found
          simp only [Machine.potential, Machine.unread, Loops.potential]
          omega

end Runs

/-! ## One of the two can go on -/

/-- Both threads have left their loops. -/
def Machine.Joined (machine : Machine Thread) : Prop :=
  machine.loops.reader = .done ∧ machine.loops.writer = .done

/-- The reader is inside `TryReadRing` only where its loop calls it, and it sets
`readerFinished_` before it leaves. -/
structure Machine.Coupled (machine : Machine Thread) : Prop where
  reading : machine.ring.reader ≠ .idle → machine.loops.reader.reads = true
  finished : machine.loops.reader = .notifyAll ∨ machine.loops.reader = .done →
    machine.loops.readerFinished = true

@[simp]
theorem ReaderLoop.Pc.reads_notified (pc : ReaderLoop.Pc) : pc.notified.reads = pc.reads := by
  cases pc <;> rfl

theorem LoopStep.coupled {machine : Machine Thread} {loops : Loops} {label : LoopLabel}
    (taken : LoopStep machine.ring.shared machine.stopEvent machine.loops label loops)
    (coupled : machine.Coupled) : { machine with loops := loops }.Coupled := by
  obtain ⟨reading, finished⟩ := coupled
  cases taken with
  | notifyNotFull =>
      refine ⟨fun busy => ?_, fun behind => finished ?_⟩
      · simpa using reading busy
      · revert behind
        cases machine.loops.reader <;> simp [ReaderLoop.Pc.notified]
  | finish at_ =>
      refine ⟨fun busy => ?_, fun _ => rfl⟩
      simpa [at_, ReaderLoop.Pc.reads] using reading busy
  | notifyAll at_ =>
      refine ⟨fun busy => ?_, fun _ => finished (.inl at_)⟩
      simpa [at_, ReaderLoop.Pc.reads] using reading busy
  | endBatch at_ full =>
      refine ⟨fun busy => ?_, by simp⟩
      simpa [at_, ReaderLoop.Pc.reads, full] using reading busy
  | report at_ =>
      refine ⟨fun busy => ?_, ?_⟩
      · simpa [at_, ReaderLoop.Pc.reads] using reading busy
      · dsimp only
        split_ifs <;> simp
  | malformed at_ | accept at_ | sleepNotFull at_ | wakeNotFull at_ | push at_ | notifyNotEmpty at_
  | waitStop at_ | waitFailed at_ =>
      refine ⟨fun busy => ?_, by simp⟩
      simpa [at_, ReaderLoop.Pc.reads] using reading busy
  | sleepNotEmpty | wakeNotEmpty | pop | leave | render => exact ⟨reading, finished⟩

/-- A call that goes on is still made from where it was, and none ends behind the loop. -/
theorem ReaderLoop.OnRing.coupled {loop loop' : ReaderLoop.Pc} {label : TryReadRing.Label}
    {shared shared' : Shared} {pc pc' : TryReadRing.Pc}
    (onRing : ReaderLoop.OnRing loop label loop')
    (taken : TryReadRing.Step shared pc label shared' pc') :
    (pc' ≠ .idle → loop'.reads = true) ∧ loop' ≠ .notifyAll ∧ loop' ≠ .done := by
  cases onRing with
  | loadPosition call | hit call | copy call | release call =>
      refine ⟨fun _ => call, ?_, ?_⟩ <;> rintro rfl <;> cases call
  | miss call =>
      cases taken
      refine ⟨fun busy => absurd rfl busy, ?_⟩
      cases loop with
      | batch => simp [ReaderLoop.Pc.missed]
      | recheck stopping => cases stopping <;> simp [ReaderLoop.Pc.missed]
      | _ => cases call
  | deliver call =>
      cases taken
      refine ⟨fun busy => absurd rfl busy, ?_⟩
      cases loop with
      | batch | recheck => simp [ReaderLoop.Pc.read]
      | _ => cases call
  | clearWake | consumeWake =>
      cases taken
      exact ⟨fun busy => absurd rfl busy, by simp, by simp⟩

section Runs

variable [DecidableEq Thread] {transport : Transport} {history : List (Label Thread)}
  {machine next : Machine Thread} {label : Label Thread}

theorem Machine.Coupled.step (coupled : machine.Coupled)
    (taken : (system transport Thread).step machine label next) : next.Coupled := by
  cases taken with
  | loop step => exact step.coupled coupled
  | exit | stop => exact ⟨coupled.reading, coupled.finished⟩
  | producer _ step =>
      cases step with
      | producer => exact ⟨coupled.reading, coupled.finished⟩
  | reader onRing step =>
      cases step with
      | reader step =>
          obtain ⟨reading, notNotify, notDone⟩ := onRing.coupled step
          refine ⟨reading, fun behind => ?_⟩
          rcases behind with at_ | at_
          · exact absurd at_ notNotify
          · exact absurd at_ notDone

theorem Run.coupled (run : (system transport Thread).Run history machine) : machine.Coupled := by
  refine @System.Run.invariant _ _ _ (fun _ machine => machine.Coupled) ?_
    (fun _ _ _ _ => Machine.Coupled.step) _ _ run
  rintro machine ⟨⟨_, _, idle⟩, loops, _⟩
  refine ⟨fun busy => absurd idle busy, ?_⟩
  rw [loops]
  rintro (at_ | at_) <;> cases at_

end Runs

/-- Inside `TryReadRing` the reader can always take its next step. -/
theorem exists_read_step (Thread : Type*) (shared : Shared) {pc : TryReadRing.Pc}
    {loop : ReaderLoop.Pc} (call : loop.reads = true)
    (fits : ∀ position copied, pc = .copy position copied →
      copied.length ≤ TRACE_MAX_EVENT_BYTES) :
    ∃ label shared' pc' loop', ReaderLoop.OnRing loop label loop' ∧
      TryReadRing.Step shared pc label shared' pc' ∧
      (Label.ring (.reader label) : Label Thread).proceeds = true := by
  cases pc with
  | idle => exact ⟨_, _, _, _, .loadPosition call, .loadPosition, rfl⟩
  | loadSequence position =>
      by_cases published : (shared.ring.slotAt position).sequence = position + 1
      · exact ⟨_, _, _, _, .hit call, .hit published, rfl⟩
      · exact ⟨_, _, _, _, .miss call, .miss published, rfl⟩
  | copy position copied =>
      have most := fits position copied rfl
      by_cases full : copied.length = TRACE_MAX_EVENT_BYTES
      · exact ⟨_, _, _, _, .release call, .release full, rfl⟩
      · have room : copied.length + 1 ≤ TRACE_MAX_EVENT_BYTES := by omega
        exact ⟨_, _, _, _, .copy call, .copy room, rfl⟩
  | advance => exact ⟨_, _, _, _, .deliver call, .deliver, rfl⟩

theorem exists_writer_step (shared : Shared) (stopEvent : Bool) {loops : Loops}
    (awake : loops.writer.asleep = false) (notDone : loops.writer ≠ .done) :
    ∃ label loops', LoopStep shared stopEvent loops label loops' ∧
      (Label.loop label : Label Thread).proceeds = true := by
  cases writerEq : loops.writer with
  | pop asleep =>
      rw [writerEq] at awake
      cases awake
      cases queueEq : loops.eventQueue with
      | cons event rest => exact ⟨_, _, .pop writerEq queueEq, rfl⟩
      | nil =>
          cases finished : loops.readerFinished with
          | true => exact ⟨_, _, .leave writerEq queueEq finished, rfl⟩
          | false => exact ⟨_, _, .sleepNotEmpty writerEq queueEq finished, rfl⟩
  | notify event => exact ⟨_, _, .notifyNotFull writerEq, rfl⟩
  | render event => exact ⟨_, _, .render writerEq, rfl⟩
  | done => exact absurd writerEq notDone

/-- The reader can go on, unless it is asleep or done. -/
theorem exists_reader_step (Thread : Type*) (shared : Shared) {loops : Loops}
    (elsewhere : loops.reader.reads = false) (awake : loops.reader.asleep = false)
    (notDone : loops.reader ≠ .done) :
    (∃ label loops', LoopStep shared true loops label loops' ∧
      (Label.loop label : Label Thread).proceeds = true) ∨
    (∃ label loop shared', ReaderLoop.OnRing loops.reader label loop ∧
      TryReadRing.Step shared .idle label shared' .idle ∧
      (Label.ring (.reader label) : Label Thread).proceeds = true) := by
  cases readerEq : loops.reader with
  | batch eventsRead stopping =>
      rw [readerEq] at elsewhere
      exact .inl ⟨_, _, .endBatch readerEq (of_decide_eq_false elsewhere), rfl⟩
  | validate event eventsRead stopping =>
      cases valid : TraceRenderer.IsValidTraceEvent event event.header.size.toNat with
      | true => exact .inl ⟨_, _, .accept readerEq valid, rfl⟩
      | false => exact .inl ⟨_, _, .malformed readerEq valid, rfl⟩
  | push event eventsRead stopping asleep =>
      rw [readerEq] at awake
      cases awake
      by_cases room : loops.eventQueue.length < TRACE_EVENT_QUEUE_CAPACITY
      · exact .inl ⟨_, _, .push readerEq room, rfl⟩
      · exact .inl ⟨_, _, .sleepNotFull readerEq room, rfl⟩
  | notify => exact .inl ⟨_, _, .notifyNotEmpty readerEq, rfl⟩
  | report => exact .inl ⟨_, _, .report readerEq, rfl⟩
  | clearWake => exact .inr ⟨_, _, _, .clearWake, .clearWake, rfl⟩
  | recheck =>
      rw [readerEq] at elsewhere
      cases elsewhere
  | wait =>
      cases set : shared.wakeEvent with
      | true => exact .inr ⟨_, _, _, .consumeWake, .consumeWake set, rfl⟩
      | false => exact .inl ⟨_, _, .waitStop readerEq set rfl, rfl⟩
  | finish => exact .inl ⟨_, _, .finish readerEq, rfl⟩
  | notifyAll => exact .inl ⟨_, _, .notifyAll readerEq, rfl⟩
  | done => exact absurd readerEq notDone

section Runs

variable [DecidableEq Thread] {transport : Transport} {history : List (Label Thread)}
  {machine next : Machine Thread} {label : Label Thread}

/-- Whoever sleeps, the other one is awake and has not left. -/
theorem exists_step (run : (system transport Thread).Run history machine)
    (stopping : machine.stopEvent = true) (notJoined : ¬machine.Joined) :
    ∃ label next, label.proceeds = true ∧ (system transport Thread).step machine label next := by
  obtain ⟨reading, finished⟩ := Run.coupled run
  obtain ⟨_, closing, alive⟩ := Run.openQueue (Run.queue run)
  have inv := Ring.Run.invariant (Run.ring run)
  have onLoops : (∃ label loops', LoopStep machine.ring.shared true machine.loops label loops' ∧
      (Label.loop label : Label Thread).proceeds = true) →
      ∃ label next, label.proceeds = true ∧
        (system transport Thread).step machine label next := by
    rintro ⟨label, loops', taken, proceeds⟩
    exact ⟨.loop label, _, proceeds, .loop (stopping ▸ taken)⟩
  by_cases call : machine.loops.reader.reads = true
  · have fits : ∀ position copied, machine.ring.reader = .copy position copied →
        copied.length ≤ TRACE_MAX_EVENT_BYTES := by
      intro position copied readerEq
      exact (inv.protocol.reader_copied copied (by simp [Ring.view, readerEq, Ring.readerOf])).1
    obtain ⟨label, shared, pc, loop, onRing, taken, proceeds⟩ :=
      exists_read_step Thread machine.ring.shared call fits
    exact ⟨.ring (.reader label), _, proceeds, .reader onRing (.reader taken)⟩
  · have idle : machine.ring.reader = .idle := not_not.mp fun busy => call (reading busy)
    have elsewhere : machine.loops.reader.reads = false := Bool.eq_false_of_not_eq_true call
    by_cases asleep : machine.loops.reader.asleep = true
    · apply onLoops
      apply exists_writer_step
      · exact Bool.eq_false_of_not_eq_true fun both => alive.not_both_asleep ⟨asleep, both⟩
      · intro left
        rcases closing.finished (closing.left left).2 with at_ | at_ <;>
          · rw [at_] at asleep
            cases asleep
    · by_cases done : machine.loops.reader = .done
      · apply onLoops
        apply exists_writer_step
        · apply Bool.eq_false_of_not_eq_true
          intro asleep
          rcases alive.writer asleep with ⟨_, running⟩ | notifying
          · rw [finished (.inr done)] at running
            cases running
          · rw [done] at notifying
            cases notifying
        · exact fun left => notJoined ⟨done, left⟩
      · have awake : machine.loops.reader.asleep = false := Bool.eq_false_of_not_eq_true asleep
        rcases exists_reader_step Thread machine.ring.shared elsewhere awake done with
          stepped | ⟨label, loop, shared, onRing, taken, proceeds⟩
        · exact onLoops stepped
        · rw [← idle] at taken
          exact ⟨.ring (.reader label), _, proceeds, .reader onRing (.reader taken)⟩

/-! ## Both loops end -/

theorem pays : (system transport Thread).Pays (system transport Thread).Reachable
    Machine.potential Label.works Label.demand where
  kept := fun ⟨_, run⟩ taken => ⟨_, run.snoc taken⟩
  paid := fun ⟨_, run⟩ taken => Run.paid run taken

/-- A thread with nothing to do waits: what the two do in a session is bounded by the events
claimed, the signals and the spurious wakeups. -/
theorem threads_never_spin (run : (system transport Thread).Run history machine) :
    history.countP Label.works ≤ 20 + (history.map Label.demand).sum := by
  obtain ⟨start, isInitial, path⟩ := run
  have bound := pays.work_le path ⟨[], .start isInitial⟩
  obtain ⟨⟨shared, _, idle⟩, loops, _⟩ := isInitial
  have empty : start.unread = 0 := by
    rw [Machine.unread, shared]
    rfl
  have potential : start.potential = 20 := by
    rw [Machine.potential, empty, idle, loops, shared]
    rfl
  rwa [potential] at bound

/-- The stop event stays set. -/
theorem stopEvent_step (stopping : machine.stopEvent = true)
    (taken : (system transport Thread).step machine label next) : next.stopEvent = true := by
  cases taken with
  | stop => rfl
  | producer | reader | loop | exit => exact stopping

/-- After the stop event both threads leave their loops: one of them can go on until both have,
whatever the producers do they cause a bounded number of steps, and left alone the two need no
failed wait and no spurious wakeup. -/
theorem stop_completes (run : (system transport Thread).Run history machine)
    (stopping : machine.stopEvent = true) :
    (¬machine.Joined → ∃ label next, label.proceeds = true ∧
      (system transport Thread).step machine label next) ∧
    (∀ labels last, (system transport Thread).Path machine labels last →
      labels.countP Label.works ≤ stepsForEvent * machine.unread +
        4 * machine.loops.eventQueue.length + 1084 + (labels.map Label.demand).sum) ∧
    ∃ labels last, (system transport Thread).Path machine labels last ∧ last.Joined ∧
      (∀ label ∈ labels, label.proceeds = true) ∧
      labels.length ≤ stepsForEvent * machine.unread +
        4 * machine.loops.eventQueue.length + 1084 := by
  have most := machine.potential_le
  have paysStopping : (system transport Thread).Pays
      (fun machine => (system transport Thread).Reachable machine ∧ machine.stopEvent = true)
      Machine.potential Label.works Label.demand :=
    ⟨fun held taken => ⟨pays.kept held.1 taken, stopEvent_step held.2 taken⟩,
      fun held taken => pays.paid held.1 taken⟩
  refine ⟨exists_step run stopping, fun labels last path => ?_, ?_⟩
  · exact (pays.work_le path ⟨_, run⟩).trans (Nat.add_le_add_right most _)
  · obtain ⟨labels, last, path, joined, proceed, short⟩ :=
      paysStopping.exists_path_end (fun _ => Label.free_of_proceeds)
        (fun machine held notJoined => exists_step held.1.choose_spec held.2 notJoined)
        ⟨⟨_, run⟩, stopping⟩
    exact ⟨labels, last, path, joined, proceed, short.trans most⟩

end Runs

theorem threads_never_spin_killed : ∃ final,
    (system ⟨true, true⟩ Bool).Run (killedBefore ++ .exit :: killedAfter) final ∧
    (killedBefore ++ .exit :: killedAfter).countP Label.works ≤
      20 + ((killedBefore ++ .exit :: killedAfter).map Label.demand).sum := by
  obtain ⟨final, run, _⟩ := killed_run
  exact ⟨final, run, threads_never_spin run⟩

/-- The gap a stopped producer leaves does not keep the two threads from leaving. -/
theorem stop_completes_killed : ∃ machine,
    (system ⟨true, true⟩ Bool).Run ((killedBefore ++ [.exit]) ++ [.stop]) machine ∧
    ∃ labels last, (system ⟨true, true⟩ Bool).Path machine labels last ∧ last.Joined ∧
      ∀ label ∈ labels, label.proceeds = true := by
  obtain ⟨final, run, _⟩ := killed_run
  have split : killedBefore ++ .exit :: killedAfter =
      (killedBefore ++ [.exit]) ++ .stop :: killedAfter.tail := by
    rw [List.append_assoc]
    rfl
  rw [split] at run
  obtain ⟨middle, machine, before, taken, _⟩ := run.step_at
  have stopping : machine.stopEvent = true := by
    cases taken
    rfl
  obtain ⟨_, _, labels, last, path, joined, proceed, _⟩ :=
    stop_completes (before.snoc taken) stopping
  exact ⟨machine, before.snoc taken, labels, last, path, joined, proceed⟩

end TraceSession

end ApiScope
