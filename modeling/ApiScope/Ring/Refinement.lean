import ApiScope.Ring.Machine
import ApiScope.Library.SequencedRing

/-!
# The ring machine refines the sequenced-ring protocol

`view` forgets the local control of the producers and of the reader and keeps
who owns which slot.  Every step of the machine is one protocol step or leaves
the view unchanged, so the protocol's invariant holds of every reachable state.
-/

namespace ApiScope

open Bytes Transition

theorem slotIndex_eq (position : Nat) :
    slotIndex position = SequencedRing.slotOf TRACE_RING_CAPACITY position := by
  apply Fin.ext
  exact Nat.and_two_pow_sub_one_eq_mod position 12

namespace TraceRing

variable (ring : TraceRing) (position : Nat) (slot : TraceRingSlot)

@[simp] theorem setSlot_enqueuePosition :
    (ring.setSlot position slot).enqueuePosition = ring.enqueuePosition := rfl
@[simp] theorem setSlot_dequeuePosition :
    (ring.setSlot position slot).dequeuePosition = ring.dequeuePosition := rfl
@[simp] theorem setSlot_eventSequence :
    (ring.setSlot position slot).eventSequence = ring.eventSequence := rfl
@[simp] theorem setSlot_droppedEvents :
    (ring.setSlot position slot).droppedEvents = ring.droppedEvents := rfl
@[simp] theorem setSlot_wakePending :
    (ring.setSlot position slot).wakePending = ring.wakePending := rfl

end TraceRing

/-- The bytes a producer copies into its slot. -/
def TraceEvent.message (event : TraceEvent) : List UInt8 :=
  event.bytes.take event.header.size.toNat

theorem TraceEvent.length_message {event : TraceEvent}
    (sized : event.header.size.toNat ≤ TRACE_MAX_EVENT_BYTES) :
    event.message.length = event.header.size.toNat := by
  simpa [TraceEvent.message] using sized

/-- The chunks of the copy are chunks of the message. -/
theorem TraceEvent.take_drop_message (event : TraceEvent) (copied count : Nat)
    (inside : copied + count ≤ event.header.size.toNat) :
    (event.message.drop copied).take count = slice event.bytes copied count := by
  rw [TraceEvent.message, slice, List.drop_take, List.take_take, min_eq_left (by omega)]

@[simp]
theorem EmitTraceEvent.size_withSequence (event : TraceEvent) (sequence : UInt32) :
    (withSequence event sequence).header.size = event.header.size := rfl

namespace Ring

variable {Thread : Type*}

/-! ## The view -/

/-- Ownership of a slot, from a producer's control state. -/
def writerOf : EmitTraceEvent.Pc → Option (SequencedRing.Writer UInt8)
  | .copy event position copied => some ⟨position, event.message, copied⟩
  | _ => none

def readerOf : TryReadRing.Pc → Option (List UInt8)
  | .copy _ copied => some copied
  | _ => none

/-- The event the reader has taken out of its slot but not returned yet. -/
def releasedBy : TryReadRing.Pc → List (List UInt8)
  | .advance _ copied => [copied]
  | _ => []

/-- Positions whose slot the reader has handed to the next lap. -/
def released (machine : Machine Thread) : Nat :=
  machine.shared.ring.dequeuePosition + (releasedBy machine.reader).length

def view (history : List (Label Thread)) (machine : Machine Thread) :
    SequencedRing.State TRACE_RING_CAPACITY Thread UInt8 where
  tail := machine.shared.ring.enqueuePosition
  head := released machine
  slots index :=
    ⟨(machine.shared.ring.slots index).sequence, (machine.shared.ring.slots index).event⟩
  writers thread := writerOf (machine.producers thread)
  reader := readerOf machine.reader
  claimed := (claims history).map fun claim => claim.event.message
  taken := (delivered history).map TraceEvent.bytes ++ releasedBy machine.reader

theorem view_sequenceAt (history : List (Label Thread)) (machine : Machine Thread)
    (position : Nat) :
    (view history machine).sequenceAt position =
      (machine.shared.ring.slotAt position).sequence := by
  rw [SequencedRing.State.sequenceAt, TraceRing.slotAt, slotIndex_eq]
  rfl

theorem view_cellsAt (history : List (Label Thread)) (machine : Machine Thread)
    (position : Nat) :
    (view history machine).cellsAt position = (machine.shared.ring.slotAt position).event := by
  rw [SequencedRing.State.cellsAt, TraceRing.slotAt, slotIndex_eq]
  rfl

/-! ## What the control states promise -/

/-- An event whose size the header checks accept. -/
def Sized (event : TraceEvent) : Prop :=
  sizeofTraceEventHeader ≤ event.header.size.toNat ∧
  event.header.size.toNat ≤ TRACE_MAX_EVENT_BYTES

/-- Facts about a call's local variables.  A number once seen at `position`
stays a lower bound, since numbers only grow. -/
def ProducerLocal (ring : TraceRing) : EmitTraceEvent.Pc → Prop
  | .idle => True
  | .takeSequence event | .loadPosition event | .drop event | .copy event _ _
  | .wake event _ | .setEvent event _ | .clearWake event _ | .finish event _ => Sized event
  | .loadSequence event position => Sized event ∧ position ≤ ring.enqueuePosition
  | .compareExchange event position =>
      Sized event ∧ position ≤ ring.enqueuePosition ∧ position ≤ (ring.slotAt position).sequence

/-- Only the reader moves `dequeuePosition`, so its copy of it is current. -/
def ReaderLocal (ring : TraceRing) : TryReadRing.Pc → Prop
  | .idle => True
  | .loadSequence position => position = ring.dequeuePosition
  | .copy position _ => position = ring.dequeuePosition
  | .advance position copied =>
      position = ring.dequeuePosition ∧ copied.length = TRACE_MAX_EVENT_BYTES

structure LocalInvariant (history : List (Label Thread)) (machine : Machine Thread) : Prop where
  producers : ∀ thread, ProducerLocal machine.shared.ring (machine.producers thread)
  reader : ReaderLocal machine.shared.ring machine.reader
  sized : ∀ claim ∈ claims history, Sized claim.event

theorem ProducerLocal.mono {ring ring' : TraceRing} {pc : EmitTraceEvent.Pc}
    (held : ProducerLocal ring pc) (positions : ring.enqueuePosition ≤ ring'.enqueuePosition)
    (numbers : ∀ index, (ring.slots index).sequence ≤ (ring'.slots index).sequence) :
    ProducerLocal ring' pc := by
  cases pc with
  | loadSequence event position => exact ⟨held.1, held.2.trans positions⟩
  | compareExchange event position =>
      exact ⟨held.1, held.2.1.trans positions, held.2.2.trans (numbers _)⟩
  | _ => exact held

theorem producer_local {transport : Transport} {shared shared' : Shared}
    {pc pc' : EmitTraceEvent.Pc} {label : EmitTraceEvent.Label}
    (taken : EmitTraceEvent.Step transport shared pc label shared' pc')
    (promised : ProducerLocal shared.ring pc) : ProducerLocal shared'.ring pc' := by
  cases taken with
  | call checks =>
      obtain ⟨_, _, _, _, _, _, names, fits⟩ := checks
      exact ⟨(Nat.le_add_right _ _).trans names, fits⟩
  | takeSequence => exact promised
  | loadPosition => exact ⟨promised, le_rfl⟩
  | free same =>
      refine ⟨promised.1, promised.2, ?_⟩
      simp only [EmitTraceEvent.difference] at same
      omega
  | claim | contend | full | behind => exact promised.1
  | reject | drop | finish => exact True.intro
  | copy | publish | skipWake | requestFirst | requestAgain | setEvent | setEventFailed
  | clearWake => exact promised

theorem producer_claim_sized {transport : Transport} {shared shared' : Shared}
    {pc pc' : EmitTraceEvent.Pc} {label : EmitTraceEvent.Label} {thread : Thread}
    {claim : Claim Thread} (taken : EmitTraceEvent.Step transport shared pc label shared' pc')
    (promised : ProducerLocal shared.ring pc)
    (claimed : (Label.producer thread label).claim? = some claim) : Sized claim.event := by
  cases taken with
  | claim =>
      cases claimed
      exact promised.1
  | _ => simp [Label.claim?] at claimed

/-- Producers never move `dequeuePosition`. -/
theorem producer_dequeuePosition {transport : Transport} {shared shared' : Shared}
    {pc pc' : EmitTraceEvent.Pc} {label : EmitTraceEvent.Label}
    (taken : EmitTraceEvent.Step transport shared pc label shared' pc') :
    shared'.ring.dequeuePosition = shared.ring.dequeuePosition := by
  cases taken <;> rfl

theorem ReaderLocal.congr {ring ring' : TraceRing} {pc : TryReadRing.Pc}
    (held : ReaderLocal ring pc) (same : ring'.dequeuePosition = ring.dequeuePosition) :
    ReaderLocal ring' pc := by
  cases pc with
  | idle => exact True.intro
  | _ => simpa only [ReaderLocal, same] using held

theorem reader_local {shared shared' : Shared} {pc pc' : TryReadRing.Pc}
    {label : TryReadRing.Label} (taken : TryReadRing.Step shared pc label shared' pc')
    (promised : ReaderLocal shared.ring pc) : ReaderLocal shared'.ring pc' := by
  cases taken with
  | loadPosition => exact rfl
  | hit | copy => exact promised
  | release complete => exact ⟨promised, complete⟩
  | miss | deliver | clearWake | consumeWake => exact True.intro

/-! ## One machine step, seen through the view -/

theorem filterMap_snoc {Item Entry : Type*} (f : Item → Option Entry) (items : List Item)
    (item : Item) : (items ++ [item]).filterMap f = items.filterMap f ++ (f item).toList := by
  cases entry : f item <;> simp [entry]

theorem claims_snoc (history : List (Label Thread)) (label : Label Thread) :
    claims (history ++ [label]) = claims history ++ label.claim?.toList :=
  filterMap_snoc _ history label

theorem delivered_snoc (history : List (Label Thread)) (label : Label Thread) :
    delivered (history ++ [label]) = delivered history ++ label.delivered?.toList :=
  filterMap_snoc _ history label

theorem writerOf_update [DecidableEq Thread] (producers : Thread → EmitTraceEvent.Pc)
    (thread : Thread) (pc : EmitTraceEvent.Pc) :
    (fun other => writerOf (Function.update producers thread pc other)) =
      Function.update (fun other => writerOf (producers other)) thread (writerOf pc) := by
  funext other
  by_cases same : other = thread
  · subst same
    simp
  · simp [Function.update_of_ne same]

theorem view_setSlot (history : List (Label Thread)) (machine : Machine Thread)
    (position : Nat) (slot : TraceRingSlot) :
    view history
      { machine with
        shared := { machine.shared with ring := machine.shared.ring.setSlot position slot } } =
      (view history machine).withSlot position ⟨slot.sequence, slot.event⟩ := by
  ext1 <;> try rfl
  funext index
  simp only [view, TraceRing.setSlot, SequencedRing.State.withSlot, ← slotIndex_eq]
  by_cases same : index = slotIndex position
  · subst same
    simp
  · simp [Function.update_of_ne same]

theorem view_producers [DecidableEq Thread] (history : List (Label Thread))
    (machine : Machine Thread) (thread : Thread) (pc : EmitTraceEvent.Pc) :
    view history { machine with producers := Function.update machine.producers thread pc } =
      (view history machine).withWriter thread (writerOf pc) := by
  ext1 <;> try rfl
  exact writerOf_update machine.producers thread pc

/-- Moving a thread between control states that own no slot is invisible. -/
theorem view_producers_silent [DecidableEq Thread] (history : List (Label Thread))
    (machine : Machine Thread) (thread : Thread) (pc : EmitTraceEvent.Pc)
    (before : writerOf (machine.producers thread) = none) (after : writerOf pc = none) :
    view history { machine with producers := Function.update machine.producers thread pc } =
      view history machine := by
  rw [view_producers, after]
  ext1 <;> try rfl
  exact Function.update_eq_self_iff.mpr before.symm

theorem view_snoc (history : List (Label Thread)) (machine : Machine Thread)
    (label : Label Thread) (noClaim : label.claim? = none) (notReturned : label.delivered? = none) :
    view (history ++ [label]) machine = view history machine := by
  simp only [view, claims_snoc, delivered_snoc, noClaim, notReturned, Option.toList_none,
    List.append_nil]

theorem view_readerState (history : List (Label Thread)) (machine : Machine Thread)
    (pc : TryReadRing.Pc) (before : releasedBy machine.reader = []) (after : releasedBy pc = []) :
    view history { machine with reader := pc } =
      (view history machine).withReader (readerOf pc) := by
  ext1 <;> try rfl
  · simp [view, released, SequencedRing.State.withReader, before, after]
  · simp [view, SequencedRing.State.withReader, before, after]

/-- What holds of every reachable machine. -/
structure Invariant (history : List (Label Thread)) (machine : Machine Thread) : Prop where
  locals : LocalInvariant history machine
  protocol : SequencedRing.Invariant TRACE_MAX_EVENT_BYTES (view history machine)

theorem invariant_of_initial {machine : Machine Thread} (initial : Initial machine) :
    Invariant [] machine := by
  obtain ⟨shared, idle, noRead⟩ := initial
  refine ⟨⟨fun thread => ?_, ?_, by simp [claims]⟩, SequencedRing.invariant_of_initial ?_⟩
  · rw [idle]
    exact True.intro
  · rw [noRead]
    exact True.intro
  · refine ⟨?_, ?_, fun index => ⟨?_, ?_⟩, fun thread => ?_, ?_, rfl, ?_⟩
    · exact congrArg (fun shared => shared.ring.enqueuePosition) shared
    · simp only [view, released, shared, noRead]
      rfl
    · simp only [view, shared]
      rfl
    · simp only [view, shared, CreateSharedRing, List.length_replicate]
    · simp only [view, idle, writerOf]
    · simp only [view, noRead, readerOf]
    · simp only [view, noRead, releasedBy]
      rfl

/-- The protocol, with slots as wide as an event. -/
abbrev Protocol (Thread : Type*) [DecidableEq Thread] :=
  SequencedRing.system TRACE_RING_CAPACITY TRACE_MAX_EVENT_BYTES Thread UInt8

/-- Unchanged, or one step of the protocol. -/
def ViewStep [DecidableEq Thread]
    (before after : SequencedRing.State TRACE_RING_CAPACITY Thread UInt8) : Prop :=
  after = before ∨ ∃ action, (Protocol Thread).step before action after

variable [DecidableEq Thread]

theorem producer_viewStep {transport : Transport} {shared shared' : Shared}
    {producers : Thread → EmitTraceEvent.Pc} {reader : TryReadRing.Pc} {thread : Thread}
    {pc pc' : EmitTraceEvent.Pc} {label : EmitTraceEvent.Label} {history : List (Label Thread)}
    (taken : EmitTraceEvent.Step transport shared pc label shared' pc')
    (position : producers thread = pc)
    (promised : ProducerLocal shared.ring pc)
    (inv : SequencedRing.Invariant TRACE_MAX_EVENT_BYTES (view history ⟨shared, producers, reader⟩)) :
    ViewStep (view history ⟨shared, producers, reader⟩)
      (view (history ++ [.producer thread label])
        ⟨shared', Function.update producers thread pc', reader⟩) := by
  have silent : ∀ after, writerOf pc = none → writerOf after = none →
      view history ⟨shared, Function.update producers thread after, reader⟩ =
        view history ⟨shared, producers, reader⟩ := fun after noSlot noSlot' =>
    view_producers_silent history ⟨shared, producers, reader⟩ thread after
      (by simpa only [position] using noSlot) noSlot'
  cases taken with
  | @claim event position' next =>
      right
      have seen : (view history ⟨shared, producers, reader⟩).sequenceAt
          (view history ⟨shared, producers, reader⟩).tail =
          (view history ⟨shared, producers, reader⟩).tail := by
        apply inv.sequenceAt_tail (by decide)
        rw [view_sequenceAt]
        change shared.ring.enqueuePosition ≤
          (shared.ring.slotAt shared.ring.enqueuePosition).sequence
        rw [next]
        exact promised.2.2
      have step : (Protocol Thread).step _ (.claim thread event.message) _ :=
        .claim (by simp [view, position, writerOf])
          (by simp [TraceEvent.message]) seen
      refine ⟨.claim thread event.message, ?_⟩
      convert step using 1
      subst next
      ext1 <;> try rfl
      · exact writerOf_update producers thread _
      · simp [view, claims_snoc, Label.claim?, SequencedRing.State.withWriter,
          SequencedRing.State.extend]
      · simp [view, delivered_snoc, Label.delivered?, SequencedRing.State.withWriter,
          SequencedRing.State.extend]
  | @copy event position' copied count chunk =>
      right
      have owner : (view history ⟨shared, producers, reader⟩).writers thread =
          some ⟨position', event.message, copied⟩ := by simp [view, position, writerOf]
      have step : (Protocol Thread).step _ (.fill thread count) _ :=
        .fill owner (by rw [TraceEvent.length_message promised.2]; exact chunk)
      refine ⟨.fill thread count, ?_⟩
      convert step using 1
      rw [view_snoc _ _ _ rfl rfl]
      refine (view_producers history ⟨_, producers, reader⟩ thread _).trans ?_
      congr 1
      refine (view_setSlot history ⟨shared, producers, reader⟩ position' _).trans ?_
      rw [view_sequenceAt, view_cellsAt, TraceEvent.take_drop_message event copied count chunk]
  | @publish event position' copied complete =>
      right
      have owner : (view history ⟨shared, producers, reader⟩).writers thread =
          some ⟨position', event.message, copied⟩ := by simp [view, position, writerOf]
      have step : (Protocol Thread).step _ (.publish thread) _ :=
        .publish owner (by rw [TraceEvent.length_message promised.2]; exact complete)
      refine ⟨.publish thread, ?_⟩
      convert step using 1
      rw [view_snoc _ _ _ rfl rfl]
      refine (view_producers history ⟨_, producers, reader⟩ thread _).trans ?_
      congr 1
      refine (view_setSlot history ⟨shared, producers, reader⟩ position' _).trans ?_
      rw [view_cellsAt]
  | call => exact .inl ((view_snoc _ _ _ rfl rfl).trans (silent _ rfl rfl))
  | reject => exact .inl ((view_snoc _ _ _ rfl rfl).trans (silent _ rfl rfl))
  | takeSequence => exact .inl ((view_snoc _ _ _ rfl rfl).trans (silent _ rfl rfl))
  | loadPosition => exact .inl ((view_snoc _ _ _ rfl rfl).trans (silent _ rfl rfl))
  | full => exact .inl ((view_snoc _ _ _ rfl rfl).trans (silent _ rfl rfl))
  | free => exact .inl ((view_snoc _ _ _ rfl rfl).trans (silent _ rfl rfl))
  | behind => exact .inl ((view_snoc _ _ _ rfl rfl).trans (silent _ rfl rfl))
  | drop => exact .inl ((view_snoc _ _ _ rfl rfl).trans (silent _ rfl rfl))
  | contend => exact .inl ((view_snoc _ _ _ rfl rfl).trans (silent _ rfl rfl))
  | skipWake => exact .inl ((view_snoc _ _ _ rfl rfl).trans (silent _ rfl rfl))
  | requestFirst => exact .inl ((view_snoc _ _ _ rfl rfl).trans (silent _ rfl rfl))
  | requestAgain => exact .inl ((view_snoc _ _ _ rfl rfl).trans (silent _ rfl rfl))
  | setEvent => exact .inl ((view_snoc _ _ _ rfl rfl).trans (silent _ rfl rfl))
  | setEventFailed => exact .inl ((view_snoc _ _ _ rfl rfl).trans (silent _ rfl rfl))
  | clearWake => exact .inl ((view_snoc _ _ _ rfl rfl).trans (silent _ rfl rfl))
  | finish => exact .inl ((view_snoc _ _ _ rfl rfl).trans (silent _ rfl rfl))

theorem reader_viewStep {shared shared' : Shared}
    {producers : Thread → EmitTraceEvent.Pc} {pc pc' : TryReadRing.Pc}
    {label : TryReadRing.Label} {history : List (Label Thread)}
    (taken : TryReadRing.Step shared pc label shared' pc')
    (promised : ReaderLocal shared.ring pc)
    (inv : SequencedRing.Invariant TRACE_MAX_EVENT_BYTES (view history ⟨shared, producers, pc⟩)) :
    ViewStep (view history ⟨shared, producers, pc⟩)
      (view (history ++ [.reader label]) ⟨shared', producers, pc'⟩) := by
  cases taken with
  | loadPosition => exact .inl (view_snoc _ _ _ rfl rfl)
  | miss => exact .inl (view_snoc _ _ _ rfl rfl)
  | clearWake => exact .inl (view_snoc _ _ _ rfl rfl)
  | consumeWake => exact .inl (view_snoc _ _ _ rfl rfl)
  | @hit position published =>
      right
      have head : (view history ⟨shared, producers, .loadSequence position⟩).head = position :=
        promised.symm
      have step : (Protocol Thread).step (view history ⟨shared, producers, .loadSequence position⟩)
          .accept _ :=
        .accept rfl (by rw [view_sequenceAt, head]; exact published)
      refine ⟨.accept, ?_⟩
      convert step using 1
      rw [view_snoc _ _ _ rfl rfl]
      exact view_readerState history ⟨shared, producers, .loadSequence position⟩ _ rfl rfl
  | @copy position count copied chunk =>
      right
      have head : (view history ⟨shared, producers, .copy position copied⟩).head = position :=
        promised.symm
      have step : (Protocol Thread).step (view history ⟨shared, producers, .copy position copied⟩)
          (.drain count) _ := .drain rfl chunk
      refine ⟨.drain count, ?_⟩
      convert step using 1
      rw [view_snoc _ _ _ rfl rfl]
      refine (view_readerState history ⟨shared, producers, .copy position copied⟩ _ rfl rfl).trans ?_
      rw [view_cellsAt, head]
      rfl
  | @release position copied complete =>
      right
      have head : (view history ⟨shared, producers, .copy position copied⟩).head = position :=
        promised.symm
      have step : (Protocol Thread).step (view history ⟨shared, producers, .copy position copied⟩)
          .release _ := .release rfl complete
      refine ⟨.release, ?_⟩
      convert step using 1
      rw [view_snoc _ _ _ rfl rfl, head, view_cellsAt]
      have slots := view_setSlot history ⟨shared, producers, .copy position copied⟩ position
        ⟨position + TRACE_RING_CAPACITY, (shared.ring.slotAt position).event⟩
      rw [← slots]
      ext1 <;> try rfl
      simp [view, SequencedRing.State.retire, releasedBy]
  | @deliver position copied =>
      left
      have exactly : (TraceEvent.ofBytes copied).bytes = copied :=
        TraceEvent.bytes_ofBytes promised.2
      ext1
      case head => simp [view, released, releasedBy, promised.1]
      case taken => simp [view, delivered_snoc, Label.delivered?, releasedBy, exactly]
      all_goals simp [view, claims_snoc, Label.claim?, readerOf]


namespace ViewStep

variable {before after : SequencedRing.State TRACE_RING_CAPACITY Thread UInt8}

theorem invariant (taken : ViewStep before after)
    (inv : SequencedRing.Invariant TRACE_MAX_EVENT_BYTES before) :
    SequencedRing.Invariant TRACE_MAX_EVENT_BYTES after := by
  obtain rfl | ⟨action, step⟩ := taken
  · exact inv
  · exact inv.step (by decide) step

theorem sequence_le (taken : ViewStep before after)
    (inv : SequencedRing.Invariant TRACE_MAX_EVENT_BYTES before)
    (index : Fin TRACE_RING_CAPACITY) :
    (before.slots index).sequence ≤ (after.slots index).sequence := by
  obtain rfl | ⟨action, step⟩ := taken
  · exact le_rfl
  · exact inv.sequence_le step index

theorem tail_le (taken : ViewStep before after) : before.tail ≤ after.tail := by
  obtain rfl | ⟨action, step⟩ := taken
  · exact le_rfl
  · exact SequencedRing.Step.tail_le step

end ViewStep

/-- Every machine step is a protocol step or invisible. -/
theorem Invariant.viewStep {transport : Transport} {history : List (Label Thread)}
    {machine next : Machine Thread} {label : Label Thread} (inv : Invariant history machine)
    (taken : (system transport Thread).step machine label next) :
    ViewStep (view history machine) (view (history ++ [label]) next) := by
  obtain ⟨shared, producers, reader⟩ := machine
  cases taken with
  | producer step => exact producer_viewStep step rfl (inv.locals.producers _) inv.protocol
  | reader step => exact reader_viewStep step inv.locals.reader inv.protocol

theorem Invariant.step {transport : Transport} {history : List (Label Thread)}
    {machine next : Machine Thread} {label : Label Thread} (inv : Invariant history machine)
    (taken : (system transport Thread).step machine label next) :
    Invariant (history ++ [label]) next := by
  have seen := inv.viewStep taken
  refine ⟨?_, seen.invariant inv.protocol⟩
  have kept : ∀ pc, ProducerLocal machine.shared.ring pc → ProducerLocal next.shared.ring pc :=
    fun pc held => held.mono seen.tail_le (seen.sequence_le inv.protocol)
  cases taken with
  | @producer thread label shared pc step =>
      refine ⟨fun other => ?_, ?_, fun claim member => ?_⟩
      · by_cases same : other = thread
        · subst same
          simpa using producer_local step (inv.locals.producers other)
        · simpa [Function.update_of_ne same] using kept _ (inv.locals.producers other)
      · exact inv.locals.reader.congr (producer_dequeuePosition step)
      · rw [claims_snoc] at member
        rcases List.mem_append.mp member with old | new
        · exact inv.locals.sized claim old
        · exact producer_claim_sized step (inv.locals.producers thread)
            (Option.mem_toList.mp new)
  | reader step =>
      refine ⟨fun thread => kept _ (inv.locals.producers thread),
        reader_local step inv.locals.reader, fun claim member => ?_⟩
      rw [claims_snoc] at member
      exact inv.locals.sized claim (by simpa [Label.claim?] using member)

/-- The invariant rule of the ring. -/
theorem Run.invariant {transport : Transport} {history : List (Label Thread)}
    {machine : Machine Thread} (run : (system transport Thread).Run history machine) :
    Invariant history machine :=
  System.Run.invariant (fun _ => invariant_of_initial) (fun _ _ _ _ inv => inv.step) run

end Ring

end ApiScope
