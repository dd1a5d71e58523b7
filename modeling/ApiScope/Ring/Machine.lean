import ApiScope.Trace.Protocol
import ApiScope.Library.Transition
import Mathlib.Data.Fintype.Basic

/-!
# The shared ring and its atomic steps

`EmitTraceEvent` runs in the threads of the target, `TryReadRing` in the reader
thread of the controller.  Each Interlocked operation is one step; the event
copies move any number of bytes at a time.

Positions and slot numbers are `LONG64` counters that start at 0 and are only
ever advanced, so they are natural numbers here.  They stay within one lap of
the number of claims (`position_range`), far from the end of the 64-bit range.  The
`LONG` counters keep their 32 bits.
-/

namespace ApiScope

open Bytes Transition

def TRACE_RING_MAGIC : UInt32 := 0x474E4952
def TRACE_RING_VERSION : UInt16 := 1
def TRACE_RING_CAPACITY : Nat := 4096

instance : NeZero TRACE_RING_CAPACITY := ⟨by decide⟩

/-- `event` holds the 1024 raw bytes of the slot's event. -/
structure TraceRingSlot where
  sequence : Nat
  event : List UInt8

structure TraceRing where
  magic : UInt32
  version : UInt16
  capacity : UInt32
  eventSize : UInt32
  enqueuePosition : Nat
  dequeuePosition : Nat
  eventSequence : UInt32
  droppedEvents : UInt32
  wakePending : UInt32
  slots : Fin TRACE_RING_CAPACITY → TraceRingSlot

/-- `position & (TRACE_RING_CAPACITY - 1)` -/
def slotIndex (position : Nat) : Fin TRACE_RING_CAPACITY :=
  ⟨position &&& (TRACE_RING_CAPACITY - 1),
    lt_of_le_of_lt Nat.and_le_right (by decide)⟩

namespace TraceRing

def slotAt (ring : TraceRing) (position : Nat) : TraceRingSlot := ring.slots (slotIndex position)

def setSlot (ring : TraceRing) (position : Nat) (slot : TraceRingSlot) : TraceRing :=
  { ring with slots := Function.update ring.slots (slotIndex position) slot }

end TraceRing

/-- `TraceSession::CreateSharedRing`: zeroed memory, the header fields and the
slot numbers. -/
def CreateSharedRing : TraceRing where
  magic := TRACE_RING_MAGIC
  version := TRACE_RING_VERSION
  capacity := .ofNat TRACE_RING_CAPACITY
  eventSize := .ofNat TRACE_MAX_EVENT_BYTES
  enqueuePosition := 0
  dequeuePosition := 0
  eventSequence := 0
  droppedEvents := 0
  wakePending := 0
  slots index := ⟨index.val, List.replicate TRACE_MAX_EVENT_BYTES 0⟩

/-- What both processes reach: the section and the auto-reset wake event. -/
structure Shared where
  ring : TraceRing
  wakeEvent : Bool

/-- Whether the exports `TransportWakeEvent` and `TransportNtSetEvent` are set. -/
structure Transport where
  wakeEvent : Bool
  ntSetEvent : Bool

/-! ## The producer -/

namespace EmitTraceEvent

/-- The checks in front of the claim loop. -/
def HeaderChecks (ring : TraceRing) (event : TraceEvent) : Prop :=
  ring.magic = TRACE_RING_MAGIC ∧
  ring.version = TRACE_RING_VERSION ∧
  ring.capacity = .ofNat TRACE_RING_CAPACITY ∧
  ring.eventSize = .ofNat TRACE_MAX_EVENT_BYTES ∧
  event.header.magic = TRACE_EVENT_MAGIC ∧
  event.header.version = TRACE_EVENT_VERSION ∧
  sizeofTraceEventHeader + TraceNameBytes event ≤ event.header.size.toNat ∧
  event.header.size.toNat ≤ TRACE_MAX_EVENT_BYTES

instance (ring : TraceRing) (event : TraceEvent) : Decidable (HeaderChecks ring event) := by
  unfold HeaderChecks
  infer_instance

/-- Where a call is, with its local variables. -/
inductive Pc where
  | idle
  | takeSequence (event : TraceEvent)
  | loadPosition (event : TraceEvent)
  | loadSequence (event : TraceEvent) (position : Nat)
  | drop (event : TraceEvent)
  | compareExchange (event : TraceEvent) (position : Nat)
  | copy (event : TraceEvent) (position copied : Nat)
  | wake (event : TraceEvent) (position : Nat)
  | setEvent (event : TraceEvent) (position : Nat)
  | clearWake (event : TraceEvent) (position : Nat)
  | finish (event : TraceEvent) (position : Nat)

/-- What a step does.  `reject` and `drop` return false, `finish` returns true. -/
inductive Label where
  | call (event : TraceEvent)
  | reject (event : TraceEvent)
  | takeSequence (event : TraceEvent)
  | loadPosition (position : Nat)
  | loadSequence (difference : Int)
  | drop (event : TraceEvent)
  | claim (event : TraceEvent) (position : Nat)
  | contend
  | copy (count : Nat)
  | publish (position : Nat)
  | skipWake
  | requestWake
  | setEvent
  | setEventFailed
  | clearWake
  | finish (event : TraceEvent) (position : Nat)

/-- The event with the sequence number its call has taken. -/
def withSequence (event : TraceEvent) (sequence : UInt32) : TraceEvent :=
  { event with header := { event.header with sequence := sequence } }

/-- `slot->sequence - position` -/
def difference (ring : TraceRing) (position : Nat) : Int :=
  ((ring.slotAt position).sequence : Int) - (position : Int)

/-- The steps of one call. -/
inductive Step (transport : Transport) : Shared → Pc → Label → Shared → Pc → Prop where
  | call {shared : Shared} {event : TraceEvent} :
      HeaderChecks shared.ring event →
      Step transport shared .idle (.call event) shared (.takeSequence event)
  | reject {shared : Shared} {event : TraceEvent} :
      ¬HeaderChecks shared.ring event →
      Step transport shared .idle (.reject event) shared .idle
  | takeSequence {shared : Shared} {event : TraceEvent} :
      Step transport shared (.takeSequence event)
        (.takeSequence (withSequence event (shared.ring.eventSequence + 1)))
        { shared with
          ring := { shared.ring with eventSequence := shared.ring.eventSequence + 1 } }
        (.loadPosition (withSequence event (shared.ring.eventSequence + 1)))
  | loadPosition {shared : Shared} {event : TraceEvent} :
      Step transport shared (.loadPosition event) (.loadPosition shared.ring.enqueuePosition)
        shared (.loadSequence event shared.ring.enqueuePosition)
  | full {shared : Shared} {event : TraceEvent} {position : Nat} :
      difference shared.ring position < 0 →
      Step transport shared (.loadSequence event position)
        (.loadSequence (difference shared.ring position)) shared (.drop event)
  | free {shared : Shared} {event : TraceEvent} {position : Nat} :
      difference shared.ring position = 0 →
      Step transport shared (.loadSequence event position)
        (.loadSequence (difference shared.ring position)) shared (.compareExchange event position)
  | behind {shared : Shared} {event : TraceEvent} {position : Nat} :
      0 < difference shared.ring position →
      Step transport shared (.loadSequence event position)
        (.loadSequence (difference shared.ring position)) shared (.loadPosition event)
  | drop {shared : Shared} {event : TraceEvent} :
      Step transport shared (.drop event) (.drop event)
        { shared with
          ring := { shared.ring with droppedEvents := shared.ring.droppedEvents + 1 } }
        .idle
  | claim {shared : Shared} {event : TraceEvent} {position : Nat} :
      shared.ring.enqueuePosition = position →
      Step transport shared (.compareExchange event position) (.claim event position)
        { shared with ring := { shared.ring with enqueuePosition := position + 1 } }
        (.copy event position 0)
  | contend {shared : Shared} {event : TraceEvent} {position : Nat} :
      shared.ring.enqueuePosition ≠ position →
      Step transport shared (.compareExchange event position) .contend shared
        (.loadPosition event)
  | copy {shared : Shared} {event : TraceEvent} {position copied count : Nat} :
      copied + count ≤ event.header.size.toNat →
      Step transport shared (.copy event position copied) (.copy count)
        { shared with
          ring := shared.ring.setSlot position
            ⟨(shared.ring.slotAt position).sequence,
              overwrite (shared.ring.slotAt position).event copied
                (slice event.bytes copied count)⟩ }
        (.copy event position (copied + count))
  | publish {shared : Shared} {event : TraceEvent} {position copied : Nat} :
      copied = event.header.size.toNat →
      Step transport shared (.copy event position copied) (.publish position)
        { shared with
          ring := shared.ring.setSlot position
            ⟨position + 1, (shared.ring.slotAt position).event⟩ }
        (.wake event position)
  | skipWake {shared : Shared} {event : TraceEvent} {position : Nat} :
      (transport.wakeEvent && transport.ntSetEvent) = false →
      Step transport shared (.wake event position) .skipWake shared (.finish event position)
  | requestFirst {shared : Shared} {event : TraceEvent} {position : Nat} :
      (transport.wakeEvent && transport.ntSetEvent) = true → shared.ring.wakePending = 0 →
      Step transport shared (.wake event position) .requestWake
        { shared with ring := { shared.ring with wakePending := 1 } } (.setEvent event position)
  | requestAgain {shared : Shared} {event : TraceEvent} {position : Nat} :
      (transport.wakeEvent && transport.ntSetEvent) = true → shared.ring.wakePending ≠ 0 →
      Step transport shared (.wake event position) .requestWake
        { shared with ring := { shared.ring with wakePending := 1 } } (.finish event position)
  | setEvent {shared : Shared} {event : TraceEvent} {position : Nat} :
      Step transport shared (.setEvent event position) .setEvent
        { shared with wakeEvent := true } (.finish event position)
  | setEventFailed {shared : Shared} {event : TraceEvent} {position : Nat} :
      Step transport shared (.setEvent event position) .setEventFailed shared
        (.clearWake event position)
  | clearWake {shared : Shared} {event : TraceEvent} {position : Nat} :
      Step transport shared (.clearWake event position) .clearWake
        { shared with ring := { shared.ring with wakePending := 0 } } (.finish event position)
  | finish {shared : Shared} {event : TraceEvent} {position : Nat} :
      Step transport shared (.finish event position) (.finish event position) shared .idle

end EmitTraceEvent

/-! ## The reader -/

namespace TryReadRing

/-- Where the reader is in `TryReadRing`; `copied` is what it has copied out. -/
inductive Pc where
  | idle
  | loadSequence (position : Nat)
  | copy (position : Nat) (copied : List UInt8)
  | advance (position : Nat) (copied : List UInt8)

/-- What a step does.  `miss` returns false and `deliver` returns true; the last
two are the reader's other accesses, made outside `TryReadRing`. -/
inductive Label where
  | loadPosition
  | miss
  | hit
  | copy (count : Nat)
  | release
  | deliver (event : TraceEvent)
  | clearWake
  | consumeWake

inductive Step : Shared → Pc → Label → Shared → Pc → Prop where
  | loadPosition {shared : Shared} :
      Step shared .idle .loadPosition shared (.loadSequence shared.ring.dequeuePosition)
  | miss {shared : Shared} {position : Nat} :
      (shared.ring.slotAt position).sequence ≠ position + 1 →
      Step shared (.loadSequence position) .miss shared .idle
  | hit {shared : Shared} {position : Nat} :
      (shared.ring.slotAt position).sequence = position + 1 →
      Step shared (.loadSequence position) .hit shared (.copy position [])
  | copy {shared : Shared} {position count : Nat} {copied : List UInt8} :
      copied.length + count ≤ TRACE_MAX_EVENT_BYTES →
      Step shared (.copy position copied) (.copy count) shared
        (.copy position
          (copied ++ slice (shared.ring.slotAt position).event copied.length count))
  | release {shared : Shared} {position : Nat} {copied : List UInt8} :
      copied.length = TRACE_MAX_EVENT_BYTES →
      Step shared (.copy position copied) .release
        { shared with
          ring := shared.ring.setSlot position
            ⟨position + TRACE_RING_CAPACITY, (shared.ring.slotAt position).event⟩ }
        (.advance position copied)
  | deliver {shared : Shared} {position : Nat} {copied : List UInt8} :
      Step shared (.advance position copied) (.deliver (.ofBytes copied))
        { shared with ring := { shared.ring with dequeuePosition := position + 1 } } .idle
  | clearWake {shared : Shared} :
      Step shared .idle .clearWake
        { shared with ring := { shared.ring with wakePending := 0 } } .idle
  | consumeWake {shared : Shared} :
      shared.wakeEvent = true →
      Step shared .idle .consumeWake { shared with wakeEvent := false } .idle

end TryReadRing

/-! ## Any number of producers and one reader -/

namespace Ring

/-- Producers may be any threads; the reader is one thread. -/
structure Machine (Thread : Type*) where
  shared : Shared
  producers : Thread → EmitTraceEvent.Pc
  reader : TryReadRing.Pc

inductive Label (Thread : Type*) where
  | producer (thread : Thread) (label : EmitTraceEvent.Label)
  | reader (label : TryReadRing.Label)

variable {Thread : Type*}

/-- One atomic step of one party, in any order. -/
inductive Step [DecidableEq Thread] (transport : Transport) :
    Machine Thread → Label Thread → Machine Thread → Prop where
  | producer {machine : Machine Thread} {thread : Thread} {label : EmitTraceEvent.Label}
      {shared : Shared} {pc : EmitTraceEvent.Pc} :
      EmitTraceEvent.Step transport machine.shared (machine.producers thread) label shared pc →
      Step transport machine (.producer thread label)
        { machine with
          shared := shared
          producers := Function.update machine.producers thread pc }
  | reader {machine : Machine Thread} {label : TryReadRing.Label}
      {shared : Shared} {pc : TryReadRing.Pc} :
      TryReadRing.Step machine.shared machine.reader label shared pc →
      Step transport machine (.reader label) { machine with shared := shared, reader := pc }

/-- The ring as `CreateSharedRing` leaves it, nobody inside a call. -/
def Initial (machine : Machine Thread) : Prop :=
  machine.shared = ⟨CreateSharedRing, false⟩ ∧
  (∀ thread, machine.producers thread = .idle) ∧ machine.reader = .idle

def system (transport : Transport) (Thread : Type*) [DecidableEq Thread] :
    System (Machine Thread) (Label Thread) where
  initial := Initial
  step := Step transport

/-! ## Histories -/

/-- A claim: who made it, for which event. -/
structure Claim (Thread : Type*) where
  thread : Thread
  event : TraceEvent
  deriving DecidableEq

def Label.claim? : Label Thread → Option (Claim Thread)
  | .producer thread (.claim event _) => some ⟨thread, event⟩
  | _ => none

def Label.delivered? : Label Thread → Option TraceEvent
  | .reader (.deliver event) => some event
  | _ => none

/-- The successful compare-exchanges in order: entry `k` claimed position `k`. -/
def claims (history : List (Label Thread)) : List (Claim Thread) := history.filterMap Label.claim?

/-- The events `TryReadRing` has returned, in order. -/
def delivered (history : List (Label Thread)) : List TraceEvent :=
  history.filterMap Label.delivered?

/-! ## Where runs start -/

/-- A 34-byte event without fields. -/
def sampleEvent : TraceEvent where
  header := ⟨TRACE_EVENT_MAGIC, TRACE_EVENT_VERSION, 34, 0, 0, 0, 0, 0, 1, 1, (0, 0)⟩
  payload := List.replicate (TRACE_MAX_EVENT_BYTES - sizeofTraceEventHeader) 97
  payload_length := List.length_replicate ..

/-- The ring before anything has happened. -/
def startMachine (Thread : Type*) : Machine Thread where
  shared := ⟨CreateSharedRing, false⟩
  producers _ := .idle
  reader := .idle

end Ring

end ApiScope
