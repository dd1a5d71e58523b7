import ApiScope.Ring.Refinement

/-!
# Whole calls

A call that meets nobody on its way stores its event if there is room, and drops it
if there is none.  One after the other, calls fill the ring.
-/

namespace ApiScope

open Bytes Transition

/-! ## One call on its own -/

/-- What calls leave behind that have stored and dropped some events. -/
structure Shared.Called (shared next : Shared) (stored dropped : Nat) : Prop where
  enqueuePosition : next.ring.enqueuePosition = shared.ring.enqueuePosition + stored
  dequeuePosition : next.ring.dequeuePosition = shared.ring.dequeuePosition
  eventSequence :
    next.ring.eventSequence = shared.ring.eventSequence + .ofNat (stored + dropped)
  droppedEvents : next.ring.droppedEvents = shared.ring.droppedEvents + .ofNat dropped
  wakeEvent : next.wakeEvent = shared.wakeEvent
  wakePending : shared.ring.wakePending ≠ 0 → next.ring.wakePending ≠ 0
  checks : ∀ event, EmitTraceEvent.HeaderChecks shared.ring event →
    EmitTraceEvent.HeaderChecks next.ring event

theorem Shared.Called.refl (shared : Shared) : shared.Called shared 0 0 where
  enqueuePosition := rfl
  dequeuePosition := rfl
  eventSequence := (UInt32.add_zero _).symm
  droppedEvents := (UInt32.add_zero _).symm
  wakeEvent := rfl
  wakePending := id
  checks := fun _ => id

theorem Shared.Called.trans {shared middle next : Shared} {stored dropped stored' dropped' : Nat}
    (first : shared.Called middle stored dropped) (second : middle.Called next stored' dropped') :
    shared.Called next (stored + stored') (dropped + dropped') where
  enqueuePosition := by rw [second.enqueuePosition, first.enqueuePosition, Nat.add_assoc]
  dequeuePosition := second.dequeuePosition.trans first.dequeuePosition
  eventSequence := by
    rw [second.eventSequence, first.eventSequence, UInt32.add_assoc, ← UInt32.ofNat_add]
    congr 2
    omega
  droppedEvents := by
    rw [second.droppedEvents, first.droppedEvents, UInt32.add_assoc, ← UInt32.ofNat_add]
  wakeEvent := second.wakeEvent.trans first.wakeEvent
  wakePending := second.wakePending ∘ first.wakePending
  checks := fun event => second.checks event ∘ first.checks event

namespace EmitTraceEvent

/-- The steps of one call, when nobody else takes any. -/
def alone (transport : Transport) : System (Shared × Pc) Label where
  initial := fun _ => True
  step := fun state label next => Step transport state.1 state.2 label next.1 next.2

/-- What a call does about a wake event that is not to be set, or has been set already. -/
inductive Wakes (transport : Transport) (wakePending : UInt32) : List Label → Prop where
  | skip : (transport.wakeEvent && transport.ntSetEvent) = false →
      Wakes transport wakePending [.skipWake]
  | again : (transport.wakeEvent && transport.ntSetEvent) = true → wakePending ≠ 0 →
      Wakes transport wakePending [.requestWake]

/-- A call that stores. -/
def storing (event : TraceEvent) (wake : List Label) (sequence : UInt32) (position : Nat) :
    List Label :=
  .call event :: .takeSequence (withSequence event sequence) :: .loadPosition position ::
    .loadSequence 0 :: .claim (withSequence event sequence) position ::
    .copy event.header.size.toNat :: .publish position ::
    (wake ++ [.finish (withSequence event sequence) position])

/-- A call that finds the ring full. -/
def dropping (event : TraceEvent) (sequence : UInt32) (position : Nat) (difference : Int) :
    List Label :=
  [.call event, .takeSequence (withSequence event sequence), .loadPosition position,
    .loadSequence difference, .drop (withSequence event sequence)]

section Alone

variable {transport : Transport} {shared : Shared} {event : TraceEvent}

theorem admits_step {shared' : Shared} {pc pc' : Pc} {label : Label} {labels : List Label}
    {post : Shared × Pc → Prop} (taken : Step transport shared pc label shared' pc')
    (rest : (alone transport).Admits (shared', pc') labels post) :
    (alone transport).Admits (shared, pc) (label :: labels) post := by
  have step : (alone transport).step (shared, pc) label (shared', pc') := taken
  exact .cons step rest

theorem admits_storing {wake : List Label} (checks : HeaderChecks shared.ring event)
    (free : difference shared.ring shared.ring.enqueuePosition = 0)
    (wakes : Wakes transport shared.ring.wakePending wake) :
    (alone transport).Admits (shared, .idle)
      (storing event wake (shared.ring.eventSequence + 1) shared.ring.enqueuePosition)
      fun last => last.2 = .idle ∧ shared.Called last.1 1 0 := by
  unfold storing
  rw [← free]
  refine admits_step (.call checks) ?_
  refine admits_step .takeSequence ?_
  refine admits_step .loadPosition ?_
  refine admits_step (.free free) ?_
  refine admits_step (.claim rfl) ?_
  refine admits_step (.copy (Nat.le_of_eq (Nat.zero_add _))) ?_
  refine admits_step (.publish (Nat.zero_add _)) ?_
  cases wakes with
  | skip off =>
      refine admits_step (.skipWake off) ?_
      refine admits_step .finish (.nil ⟨rfl, ?_⟩)
      exact ⟨rfl, rfl, rfl, (UInt32.add_zero _).symm, rfl, id, fun _ => id⟩
  | again on pending =>
      refine admits_step (.requestAgain on pending) ?_
      refine admits_step .finish (.nil ⟨rfl, ?_⟩)
      exact ⟨rfl, rfl, rfl, (UInt32.add_zero _).symm, rfl,
        fun _ => (by decide : (1 : UInt32) ≠ 0), fun _ => id⟩

theorem admits_dropping (checks : HeaderChecks shared.ring event)
    (full : difference shared.ring shared.ring.enqueuePosition < 0) :
    (alone transport).Admits (shared, .idle)
      (dropping event (shared.ring.eventSequence + 1) shared.ring.enqueuePosition
        (difference shared.ring shared.ring.enqueuePosition))
      fun last => last.2 = .idle ∧ shared.Called last.1 0 1 := by
  refine admits_step (.call checks) ?_
  refine admits_step .takeSequence ?_
  refine admits_step .loadPosition ?_
  refine admits_step (.full full) ?_
  refine admits_step .drop (.nil ⟨rfl, ?_⟩)
  exact ⟨rfl, rfl, rfl, rfl, rfl, id, fun _ => id⟩

end Alone

end EmitTraceEvent

namespace Ring

variable {Thread : Type*}

/-! ## Among others -/

/-- The machine after a step of a producer. -/
def advance [DecidableEq Thread] (machine : Machine Thread) (thread : Thread) (shared : Shared)
    (pc : EmitTraceEvent.Pc) : Machine Thread :=
  { machine with shared := shared, producers := Function.update machine.producers thread pc }

/-- What calls leave behind, with every thread where it was. -/
structure Called (machine next : Machine Thread) (stored dropped : Nat) : Prop where
  shared : machine.shared.Called next.shared stored dropped
  producers : next.producers = machine.producers
  reader : next.reader = machine.reader

def storeCall (thread : Thread) (event : TraceEvent) (wake : List EmitTraceEvent.Label)
    (sequence : UInt32) (position : Nat) : List (Label Thread) :=
  (EmitTraceEvent.storing event wake sequence position).map (.producer thread)

def dropCall (thread : Thread) (event : TraceEvent) (sequence : UInt32) (position : Nat)
    (difference : Int) : List (Label Thread) :=
  (EmitTraceEvent.dropping event sequence position difference).map (.producer thread)

/-- Calls that store, one after the other. -/
def fillCalls (thread : Thread) (event : TraceEvent) (wake : List EmitTraceEvent.Label) :
    Nat → UInt32 → Nat → List (Label Thread)
  | 0, _, _ => []
  | count + 1, sequence, position =>
      storeCall thread event wake sequence position ++
        fillCalls thread event wake count (sequence + 1) (position + 1)

/-- Only this producer takes steps. -/
def Solo (thread : Thread) (labels : List (Label Thread)) : Prop :=
  ∀ label ∈ labels, ∃ own, label = .producer thread own

theorem solo_map (thread : Thread) (labels : List EmitTraceEvent.Label) :
    Solo thread (labels.map (.producer thread)) := by
  intro label member
  obtain ⟨own, _, rfl⟩ := List.mem_map.mp member
  exact ⟨own, rfl⟩

theorem solo_fillCalls (thread : Thread) (event : TraceEvent) (wake : List EmitTraceEvent.Label)
    (count : Nat) (sequence : UInt32) (position : Nat) :
    Solo thread (fillCalls thread event wake count sequence position) := by
  induction count generalizing sequence position with
  | zero => exact fun label member => absurd member List.not_mem_nil
  | succ count inductionHypothesis =>
      intro label member
      rw [fillCalls, List.mem_append] at member
      rcases member with first | later
      · exact solo_map _ _ label first
      · exact inductionHypothesis _ _ label later

/-- Every call of a row leaves as many entries in the history. -/
theorem length_filterMap_fillCalls {Entry : Type*} {f : Label Thread → Option Entry}
    {thread : Thread} {event : TraceEvent} {wake : List EmitTraceEvent.Label} {entries : Nat}
    (each : ∀ sequence position,
      ((storeCall thread event wake sequence position).filterMap f).length = entries)
    (count : Nat) (sequence : UInt32) (position : Nat) :
    ((fillCalls thread event wake count sequence position).filterMap f).length =
      count * entries := by
  induction count generalizing sequence position with
  | zero => rw [fillCalls, List.filterMap_nil, List.length_nil, Nat.zero_mul]
  | succ count inductionHypothesis =>
      rw [fillCalls, List.filterMap_append, List.length_append, each, inductionHypothesis,
        Nat.succ_mul, Nat.add_comm]

section Calls

variable {transport : Transport} {history : List (Label Thread)} {machine : Machine Thread}
  {thread : Thread} {event : TraceEvent}

/-- Between two reads the head is `dequeuePosition`. -/
theorem head_of_idle (history : List (Label Thread)) (reading : machine.reader = .idle) :
    (view history machine).head = machine.shared.ring.dequeuePosition := by
  rw [view, released, reading]
  rfl

variable [DecidableEq Thread]

theorem producers_advance (shared : Shared) (pc : EmitTraceEvent.Pc) :
    (advance machine thread shared pc).producers thread = pc :=
  Function.update_self ..

theorem step_advance (transport : Transport) {own : EmitTraceEvent.Label} {shared : Shared}
    {pc pc' : EmitTraceEvent.Pc} (control : machine.producers thread = pc)
    (taken : EmitTraceEvent.Step transport machine.shared pc own shared pc') :
    (system transport Thread).step machine (.producer thread own)
      (advance machine thread shared pc') :=
  .producer (control ▸ taken)

/-- What a call does on its own, it does among others that take no steps. -/
theorem path_alone {labels : List EmitTraceEvent.Label} {last : Shared × EmitTraceEvent.Pc}
    (path : (EmitTraceEvent.alone transport).Path (machine.shared, machine.producers thread) labels
      last) :
    (system transport Thread).Path machine (labels.map (.producer thread))
      (advance machine thread last.1 last.2) := by
  generalize start : (machine.shared, machine.producers thread) = first at path
  induction path with
  | refl =>
      subst start
      rw [advance, Function.update_eq_self]
      exact .refl machine
  | @snoc middle last labels label _ taken inductionHypothesis =>
      rw [List.map_append]
      refine .snoc inductionHypothesis ?_
      have control : (advance machine thread middle.1 middle.2).producers thread = middle.2 :=
        producers_advance middle.1 middle.2
      have stepped := step_advance transport control taken
      rwa [advance, advance, Function.update_idem] at stepped

/-- A call leaves its thread where it found it. -/
theorem admits_alone {labels : List EmitTraceEvent.Label} {stored dropped : Nat}
    (idle : machine.producers thread = .idle)
    (admits : (EmitTraceEvent.alone transport).Admits (machine.shared, .idle) labels
      fun last => last.2 = .idle ∧ machine.shared.Called last.1 stored dropped) :
    (system transport Thread).Admits machine (labels.map (.producer thread))
      (Called machine · stored dropped) := by
  obtain ⟨⟨shared, pc⟩, path, rfl, called⟩ := admits
  rw [← idle] at path
  exact ⟨_, path_alone path, called, Function.update_eq_self thread machine.producers, rfl⟩

/-- With room in the ring a call stores its event. -/
theorem admits_store (run : (system transport Thread).Run history machine)
    {wake : List EmitTraceEvent.Label} (idle : machine.producers thread = .idle)
    (reading : machine.reader = .idle)
    (room : machine.shared.ring.enqueuePosition <
      machine.shared.ring.dequeuePosition + TRACE_RING_CAPACITY)
    (checks : EmitTraceEvent.HeaderChecks machine.shared.ring event)
    (wakes : EmitTraceEvent.Wakes transport machine.shared.ring.wakePending wake) :
    (system transport Thread).Admits machine
      (storeCall thread event wake (machine.shared.ring.eventSequence + 1)
        machine.shared.ring.enqueuePosition) (Called machine · 1 0) := by
  have inv := Run.invariant run
  have head := head_of_idle history reading
  have below : (view history machine).head ≤ machine.shared.ring.enqueuePosition :=
    inv.protocol.head_le_tail
  have number : (machine.shared.ring.slotAt machine.shared.ring.enqueuePosition).sequence =
      machine.shared.ring.enqueuePosition := by
    rcases inv.protocol.sequence_cases _ below (by rw [head]; exact room) with own | ⟨_, inside⟩
    · rwa [view_sequenceAt] at own
    · exact absurd inside (lt_irrefl _)
  refine admits_alone idle (EmitTraceEvent.admits_storing checks ?_ wakes)
  rw [EmitTraceEvent.difference, number, sub_self]

/-- As long as there is room, calls store one event after the other. -/
theorem admits_fill {wake : List EmitTraceEvent.Label} {count : Nat}
    (run : (system transport Thread).Run history machine)
    (idle : machine.producers thread = .idle) (reading : machine.reader = .idle)
    (room : machine.shared.ring.enqueuePosition + count ≤
      machine.shared.ring.dequeuePosition + TRACE_RING_CAPACITY)
    (checks : EmitTraceEvent.HeaderChecks machine.shared.ring event)
    (wakes : EmitTraceEvent.Wakes transport machine.shared.ring.wakePending wake) :
    (system transport Thread).Admits machine
      (fillCalls thread event wake count (machine.shared.ring.eventSequence + 1)
        machine.shared.ring.enqueuePosition) (Called machine · count 0) := by
  induction count generalizing history machine with
  | zero => exact .nil ⟨.refl machine.shared, rfl, rfl⟩
  | succ count inductionHypothesis =>
      obtain ⟨next, path, called⟩ := admits_store run idle reading (by omega) checks wakes
      have further : EmitTraceEvent.Wakes transport next.shared.ring.wakePending wake := by
        cases wakes with
        | skip off => exact .skip off
        | again on pending => exact .again on (called.shared.wakePending pending)
      obtain ⟨last, rest, others⟩ := inductionHypothesis (run.extend path)
        (called.producers ▸ idle) (called.reader ▸ reading)
        (by rw [called.shared.enqueuePosition, called.shared.dequeuePosition]; omega)
        (called.shared.checks event checks) further
      rw [called.shared.enqueuePosition, called.shared.eventSequence] at rest
      refine ⟨last, path.trans rest, ?_, others.producers.trans called.producers,
        others.reader.trans called.reader⟩
      have both := called.shared.trans others.shared
      rwa [Nat.add_comm 1 count] at both

/-- In a full ring a call drops its event. -/
theorem admits_drop (run : (system transport Thread).Run history machine)
    (idle : machine.producers thread = .idle) (reading : machine.reader = .idle)
    (full : machine.shared.ring.enqueuePosition =
      machine.shared.ring.dequeuePosition + TRACE_RING_CAPACITY)
    (checks : EmitTraceEvent.HeaderChecks machine.shared.ring event) :
    ∃ difference < 0, (system transport Thread).Admits machine
      (dropCall thread event (machine.shared.ring.eventSequence + 1)
        machine.shared.ring.enqueuePosition difference) (Called machine · 0 1) := by
  have inv := Run.invariant run
  have head := head_of_idle history reading
  have occupied : EmitTraceEvent.difference machine.shared.ring
      machine.shared.ring.enqueuePosition < 0 := by
    have same : machine.shared.ring.slotAt machine.shared.ring.enqueuePosition =
        machine.shared.ring.slotAt machine.shared.ring.dequeuePosition := by
      rw [TraceRing.slotAt, TraceRing.slotAt, slotIndex_eq, slotIndex_eq, full]
      exact congrArg _ (Fin.ext (Nat.add_mod_right _ _))
    have number : (machine.shared.ring.slotAt machine.shared.ring.dequeuePosition).sequence ≤
        machine.shared.ring.dequeuePosition + 1 := by
      rw [← view_sequenceAt history]
      rcases inv.protocol.sequence_cases machine.shared.ring.dequeuePosition (Nat.le_of_eq head)
        (by rw [head]; exact Nat.lt_add_of_pos_right (by decide)) with own | ⟨next, _⟩
      · omega
      · omega
    have large : 1 < TRACE_RING_CAPACITY := by decide
    rw [EmitTraceEvent.difference, same]
    omega
  exact ⟨_, occupied, admits_alone idle (EmitTraceEvent.admits_dropping checks occupied)⟩

/-- A published event at the head can be read, whatever the producers are doing. -/
theorem admits_read {labels : List (Label Thread)} {post : Machine Thread → Prop}
    {slot : TraceRingSlot} (idle : machine.reader = .idle)
    (atHead : machine.shared.ring.slotAt machine.shared.ring.dequeuePosition = slot)
    (published : slot.sequence = machine.shared.ring.dequeuePosition + 1)
    (sized : slot.event.length = TRACE_MAX_EVENT_BYTES)
    (rest : (system transport Thread).Admits
      { machine with
        shared := { machine.shared with
          ring := { machine.shared.ring.setSlot machine.shared.ring.dequeuePosition
              ⟨machine.shared.ring.dequeuePosition + TRACE_RING_CAPACITY, slot.event⟩ with
            dequeuePosition := machine.shared.ring.dequeuePosition + 1 } }
        reader := .idle } labels post) :
    (system transport Thread).Admits machine
      (.reader .loadPosition :: .reader .hit :: .reader (.copy TRACE_MAX_EVENT_BYTES) ::
        .reader .release :: .reader (.deliver (.ofBytes slot.event)) :: labels) post := by
  obtain ⟨shared, producers, reader⟩ := machine
  dsimp only at idle atHead published
  subst idle
  have copied : [] ++ slice (shared.ring.slotAt shared.ring.dequeuePosition).event 0
      TRACE_MAX_EVENT_BYTES = slot.event := by
    rw [atHead, slice, List.drop_zero, List.nil_append]
    exact List.take_of_length_le sized.le
  refine .cons (.reader .loadPosition) ?_
  refine .cons (.reader (.hit (atHead ▸ published))) ?_
  refine .cons (.reader (.copy (by simp))) ?_
  simp only [List.length_nil, copied]
  refine .cons (.reader (.release sized)) ?_
  refine .cons (.reader .deliver) ?_
  simpa only [atHead] using rest

/-- With nobody inside a call, the reader can empty the ring. -/
theorem admits_emptying (run : (system transport Thread).Run history machine)
    (idle : ∀ thread, machine.producers thread = .idle) (reading : machine.reader = .idle) :
    ∃ reads : List TryReadRing.Label, (system transport Thread).Admits machine
      (reads.map .reader) fun next => next.producers = machine.producers ∧
        next.shared.ring.dequeuePosition = next.shared.ring.enqueuePosition ∧
        next.shared.ring.droppedEvents = machine.shared.ring.droppedEvents := by
  have below := (Run.invariant run).protocol.head_le_tail
  rw [head_of_idle history reading] at below
  obtain ⟨count, waiting⟩ := Nat.exists_eq_add_of_le below
  replace waiting : machine.shared.ring.enqueuePosition =
    machine.shared.ring.dequeuePosition + count := waiting
  clear below
  induction count generalizing history machine with
  | zero => exact ⟨[], .nil ⟨rfl, waiting.symm, rfl⟩⟩
  | succ count inductionHypothesis =>
      have inv := Run.invariant run
      have head := head_of_idle history reading
      have inside : (view history machine).head < (view history machine).tail := by
        rw [head]
        change machine.shared.ring.dequeuePosition < machine.shared.ring.enqueuePosition
        omega
      -- A claimed slot without its number belongs to a call that is still copying.
      have published : (machine.shared.ring.slotAt machine.shared.ring.dequeuePosition).sequence =
          machine.shared.ring.dequeuePosition + 1 := by
        rw [← view_sequenceAt history, ← head]
        rcases inv.protocol.sequence_cases _ le_rfl
          (Nat.lt_add_of_pos_right (by decide)) with own | ⟨next, _⟩
        · obtain ⟨thread, writer, writes, _⟩ := inv.protocol.owner_exists _ le_rfl inside own
          change writerOf (machine.producers thread) = some writer at writes
          rw [idle thread] at writes
          cases writes
        · exact next
      have sized : (machine.shared.ring.slotAt
          machine.shared.ring.dequeuePosition).event.length = TRACE_MAX_EVENT_BYTES := by
        rw [← view_cellsAt history]
        exact inv.protocol.cells_length _
      have read : (system transport Thread).Admits machine _ (· = _) :=
        admits_read reading rfl published sized (.nil rfl)
      obtain ⟨next, path, rfl⟩ := read
      obtain ⟨reads, rest⟩ := inductionHypothesis (run.extend path) idle rfl (by
        change machine.shared.ring.enqueuePosition = machine.shared.ring.dequeuePosition + 1 + count
        omega)
      obtain ⟨last, further, held⟩ := rest
      exact ⟨_ :: _ :: _ :: _ :: _ :: reads, last, path.trans further, held⟩

end Calls

/-- The bytes of a slot that has been used once, for this event. -/
def storedBytes (event : TraceEvent) : List UInt8 :=
  overwrite (List.replicate TRACE_MAX_EVENT_BYTES 0) 0
    (slice event.bytes 0 event.header.size.toNat)

theorem length_storedBytes (event : TraceEvent) :
    (storedBytes event).length = TRACE_MAX_EVENT_BYTES :=
  (length_overwrite ..).trans (List.length_replicate ..)

/-! ## Two threads and a full ring -/

/-- Both threads want position 0; the one that loses the compare-exchange stores its
event at position 1, before the other one has copied. -/
def contested : List (Label Bool) :=
  [.producer true (.call sampleEvent), .producer false (.call sampleEvent),
    .producer true (.takeSequence (EmitTraceEvent.withSequence sampleEvent 1)),
    .producer false (.takeSequence (EmitTraceEvent.withSequence sampleEvent 2)),
    .producer true (.loadPosition 0), .producer false (.loadPosition 0),
    .producer true (.loadSequence 0), .producer false (.loadSequence 0),
    .producer true (.claim (EmitTraceEvent.withSequence sampleEvent 1) 0),
    .producer false .contend, .producer false (.loadPosition 1),
    .producer false (.loadSequence 0),
    .producer false (.claim (EmitTraceEvent.withSequence sampleEvent 2) 1),
    .producer false (.copy 34), .producer false (.publish 1), .producer false .requestWake,
    .producer false .setEvent,
    .producer false (.finish (EmitTraceEvent.withSequence sampleEvent 2) 1),
    .producer true (.copy 34), .producer true (.publish 0), .producer true .requestWake,
    .producer true (.finish (EmitTraceEvent.withSequence sampleEvent 1) 0)]

def readOut (sequence : UInt32) : List (Label Bool) :=
  [.reader .loadPosition, .reader .hit, .reader (.copy TRACE_MAX_EVENT_BYTES), .reader .release,
    .reader (.deliver (.ofBytes (storedBytes (EmitTraceEvent.withSequence sampleEvent sequence))))]

/-- The two events are read, the ring is filled, and one more call finds it full. -/
def sampleHistory (difference : Int) : List (Label Bool) :=
  contested ++ readOut 1 ++ readOut 2 ++
    fillCalls false sampleEvent [.requestWake] TRACE_RING_CAPACITY 3 2 ++
    dropCall true sampleEvent 4099 4098 difference

theorem length_filterMap_sampleHistory {Entry : Type*} (f : Label Bool → Option Entry)
    (entries : Nat) (each : ∀ sequence position,
      ((storeCall false sampleEvent [.requestWake] sequence position).filterMap f).length = entries)
    (difference : Int) :
    ((sampleHistory difference).filterMap f).length =
      ((contested ++ readOut 1 ++ readOut 2).filterMap f).length + TRACE_RING_CAPACITY * entries +
        ((dropCall true sampleEvent 4099 4098 difference).filterMap f).length := by
  rw [sampleHistory, List.filterMap_append, List.filterMap_append, List.length_append,
    List.length_append, length_filterMap_fillCalls each]

theorem contested_run : ∃ machine,
    (system ⟨true, true⟩ Bool).Run (contested ++ readOut 1 ++ readOut 2) machine ∧
    machine.producers = (fun _ => .idle) ∧ machine.reader = .idle ∧
    machine.shared.ring.enqueuePosition = 2 ∧ machine.shared.ring.dequeuePosition = 2 ∧
    machine.shared.ring.eventSequence = 2 ∧ machine.shared.ring.droppedEvents = 0 ∧
    machine.shared.ring.wakePending ≠ 0 ∧
    EmitTraceEvent.HeaderChecks machine.shared.ring sampleEvent := by
  have isInitial : Initial (startMachine Bool) := ⟨rfl, fun _ => rfl, rfl⟩
  refine System.Admits.run ?_ isInitial
  refine .cons (.producer (.call (by decide))) ?_
  refine .cons (.producer (.call (by decide))) ?_
  refine .cons (.producer .takeSequence) ?_
  refine .cons (.producer .takeSequence) ?_
  refine .cons (.producer .loadPosition) ?_
  refine .cons (.producer .loadPosition) ?_
  refine .cons (.producer (.free (by decide))) ?_
  refine .cons (.producer (.free (by decide))) ?_
  refine .cons (.producer (.claim rfl)) ?_
  refine .cons (.producer (.contend (by decide))) ?_
  refine .cons (.producer .loadPosition) ?_
  refine .cons (.producer (.free (by decide))) ?_
  refine .cons (.producer (.claim rfl)) ?_
  refine .cons (.producer (.copy (by decide))) ?_
  refine .cons (.producer (.publish rfl)) ?_
  refine .cons (.producer (.requestFirst rfl rfl)) ?_
  refine .cons (.producer .setEvent) ?_
  refine .cons (.producer .finish) ?_
  refine .cons (.producer (.copy (by decide))) ?_
  refine .cons (.producer (.publish rfl)) ?_
  refine .cons (.producer (.requestAgain rfl (by decide))) ?_
  refine .cons (.producer .finish) ?_
  refine admits_read rfl rfl rfl (length_storedBytes _) ?_
  refine admits_read rfl rfl rfl (length_storedBytes _) ?_
  refine .nil ⟨?_, rfl, rfl, rfl, rfl, rfl, by decide, by decide⟩
  funext thread
  cases thread <;> rfl

theorem sample_run : ∃ difference < 0, ∃ machine,
    (system ⟨true, true⟩ Bool).Run (sampleHistory difference) machine ∧
    (∀ thread, machine.producers thread = .idle) ∧ machine.reader = .idle ∧
    machine.shared.ring.droppedEvents = 1 := by
  obtain ⟨machine, run, producers, reading, enqueue, dequeue, sequence, noDrops, pending, checks⟩ :=
    contested_run
  have idle (thread : Bool) : machine.producers thread = .idle := congrFun producers thread
  have room : machine.shared.ring.enqueuePosition + TRACE_RING_CAPACITY ≤
      machine.shared.ring.dequeuePosition + TRACE_RING_CAPACITY := by rw [enqueue, dequeue]
  obtain ⟨full, filling, filled⟩ :=
    admits_fill run (idle false) reading room checks (.again rfl pending)
  have runFull := run.extend filling
  rw [sequence, enqueue] at runFull
  have enqueueFull : full.shared.ring.enqueuePosition = 4098 := by
    rw [filled.shared.enqueuePosition, enqueue]
    rfl
  have sequenceFull : full.shared.ring.eventSequence = 4098 := by
    rw [filled.shared.eventSequence, sequence]
    decide
  obtain ⟨difference, negative, last, dropping, dropped⟩ := admits_drop runFull
    (filled.producers ▸ idle true) (filled.reader ▸ reading)
    (by rw [enqueueFull, filled.shared.dequeuePosition, dequeue]; rfl)
    (filled.shared.checks sampleEvent checks)
  rw [sequenceFull, enqueueFull] at dropping
  refine ⟨difference, negative, last, runFull.extend dropping, fun thread => ?_,
    dropped.reader.trans (filled.reader.trans reading), ?_⟩
  · rw [dropped.producers, filled.producers, idle]
  · rw [dropped.shared.droppedEvents, filled.shared.droppedEvents, noDrops]
    rfl

end Ring

end ApiScope
