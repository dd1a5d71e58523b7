import ApiScope.Ring.Calls

/-!
# What the ring delivers

The `k`-th event read is the event of the `k`-th claim, up to the bytes behind
its size, which no producer copies.  Each thread's events come out in the order
of its calls, and no slot is ever copied into or out of by two parties at once.
-/

namespace ApiScope

open Bytes Transition

namespace Ring

variable {Thread : Type*}

/-! ## One thread's calls -/

section Calls

variable [DecidableEq Thread]

def Label.call? (thread : Thread) : Label Thread → Option TraceEvent
  | .producer other (.call event) => if other = thread then some event else none
  | _ => none

def Label.numbered? (thread : Thread) : Label Thread → Option TraceEvent
  | .producer other (.takeSequence event) => if other = thread then some event else none
  | _ => none

/-- The events a thread has passed to `EmitTraceEvent`, past the header checks. -/
def calls (thread : Thread) (history : List (Label Thread)) : List TraceEvent :=
  history.filterMap (Label.call? thread)

/-- The same events with the sequence numbers their calls have taken. -/
def numbered (thread : Thread) (history : List (Label Thread)) : List TraceEvent :=
  history.filterMap (Label.numbered? thread)

/-- A thread's own claims among some claims. -/
def claimedBy (thread : Thread) (claims : List (Claim Thread)) : List TraceEvent :=
  (claims.filter fun claim => claim.thread = thread).map Claim.event

/-- An event without its sequence number. -/
def unnumbered (event : TraceEvent) : TraceEvent := EmitTraceEvent.withSequence event 0

/-- Where a thread's calls, sequence numbers and claims stand in each control state. -/
def CallOrder (thread : Thread) (history : List (Label Thread)) : EmitTraceEvent.Pc → Prop
  | .takeSequence event =>
      (calls thread history).map unnumbered =
        (numbered thread history).map unnumbered ++ [unnumbered event] ∧
      (claimedBy thread (claims history)).Sublist (numbered thread history)
  | .loadPosition event | .loadSequence event _ | .compareExchange event _ =>
      (calls thread history).map unnumbered = (numbered thread history).map unnumbered ∧
      ∃ earlier, numbered thread history = earlier ++ [event] ∧
        (claimedBy thread (claims history)).Sublist earlier
  | _ =>
      (calls thread history).map unnumbered = (numbered thread history).map unnumbered ∧
      (claimedBy thread (claims history)).Sublist (numbered thread history)

theorem calls_snoc (thread : Thread) (history : List (Label Thread)) (label : Label Thread) :
    calls thread (history ++ [label]) = calls thread history ++ (label.call? thread).toList :=
  filterMap_snoc _ history label

theorem numbered_snoc (thread : Thread) (history : List (Label Thread)) (label : Label Thread) :
    numbered thread (history ++ [label]) =
      numbered thread history ++ (label.numbered? thread).toList :=
  filterMap_snoc _ history label

theorem claimedBy_snoc (thread : Thread) (history : List (Label Thread)) (label : Label Thread) :
    claimedBy thread (claims (history ++ [label])) =
      claimedBy thread (claims history) ++ claimedBy thread label.claim?.toList := by
  simp only [claims_snoc, claimedBy, List.filter_append, List.map_append]

/-- A label that adds nothing to a thread's lists. -/
theorem CallOrder.congr {thread : Thread} {history : List (Label Thread)} {label : Label Thread}
    {pc : EmitTraceEvent.Pc} (order : CallOrder thread history pc)
    (noCall : label.call? thread = none) (noNumber : label.numbered? thread = none)
    (noClaim : claimedBy thread label.claim?.toList = []) :
    CallOrder thread (history ++ [label]) pc := by
  have sameCalls : calls thread (history ++ [label]) = calls thread history := by
    simp [calls_snoc, noCall]
  have sameNumbered : numbered thread (history ++ [label]) = numbered thread history := by
    simp [numbered_snoc, noNumber]
  have sameClaims : claimedBy thread (claims (history ++ [label])) =
      claimedBy thread (claims history) := by
    simp [claimedBy_snoc, noClaim]
  cases pc <;> simpa only [CallOrder, sameCalls, sameNumbered, sameClaims] using order

/-- A step of another party leaves a thread's call order as it is. -/
theorem CallOrder.other {thread : Thread} {history : List (Label Thread)} {label : Label Thread}
    {pc : EmitTraceEvent.Pc} (order : CallOrder thread history pc)
    (elsewhere : ∀ step, label ≠ .producer thread step) :
    CallOrder thread (history ++ [label]) pc := by
  cases label with
  | reader => exact order.congr rfl rfl rfl
  | producer other step =>
      have differ : other ≠ thread := fun same => elsewhere step (by rw [same])
      apply order.congr <;> cases step <;>
        simp [Label.call?, Label.numbered?, Label.claim?, claimedBy, differ]

/-- A thread's own steps keep its call order. -/
theorem CallOrder.step {transport : Transport} {shared shared' : Shared} {thread : Thread}
    {history : List (Label Thread)} {pc pc' : EmitTraceEvent.Pc} {label : EmitTraceEvent.Label}
    (order : CallOrder thread history pc)
    (taken : EmitTraceEvent.Step transport shared pc label shared' pc') :
    CallOrder thread (history ++ [.producer thread label]) pc' := by
  cases taken with
  | @call event =>
      obtain ⟨counted, ordered⟩ := order
      refine ⟨?_, ?_⟩
      · simp [calls_snoc, numbered_snoc, Label.call?, Label.numbered?, counted]
      · rw [claimedBy_snoc, numbered_snoc]
        simpa [Label.numbered?, Label.claim?, claimedBy] using ordered
  | @takeSequence event =>
      obtain ⟨counted, ordered⟩ := order
      refine ⟨?_, numbered thread history, ?_, ?_⟩
      · simp [calls_snoc, numbered_snoc, Label.call?, Label.numbered?, counted]
        rfl
      · simp [numbered_snoc, Label.numbered?]
      · rw [claimedBy_snoc]
        simpa [Label.claim?, claimedBy] using ordered
  | @claim event position _ =>
      obtain ⟨counted, earlier, last, ordered⟩ := order
      refine ⟨?_, ?_⟩
      · simpa [calls_snoc, numbered_snoc, Label.call?, Label.numbered?] using counted
      · rw [claimedBy_snoc, numbered_snoc, last]
        simpa [Label.numbered?, Label.claim?, claimedBy] using ordered.append (.refl [event])
  | @full event position _ =>
      obtain ⟨counted, earlier, last, ordered⟩ := order
      have dropping : CallOrder thread history (.drop event) :=
        ⟨counted, last ▸ ordered.trans (List.sublist_append_left ..)⟩
      exact dropping.congr rfl rfl rfl
  | reject | loadPosition | free | behind | drop | contend | copy | publish | skipWake
  | requestFirst | requestAgain | setEvent | setEventFailed | clearWake | finish =>
      exact order.congr rfl rfl rfl

theorem Run.callOrder {transport : Transport} {history : List (Label Thread)}
    {machine : Machine Thread} (run : (system transport Thread).Run history machine)
    (thread : Thread) : CallOrder thread history (machine.producers thread) := by
  refine @System.Run.invariant _ _ _
    (fun history machine => CallOrder thread history (machine.producers thread)) ?_ ?_ _ _ run
  · rintro machine ⟨_, idle, _⟩
    rw [idle]
    exact ⟨rfl, .slnil⟩
  · intro history machine label next order taken
    cases taken with
    | reader => exact order.other (by simp)
    | @producer other label shared pc step =>
        by_cases same : other = thread
        · subst same
          simpa using order.step step
        · simpa [Function.update_of_ne (Ne.symm same)] using order.other (by simp [same])

/-- In every control state, the claims follow the sequence numbers and these the calls. -/
theorem CallOrder.ordered {thread : Thread} {history : List (Label Thread)}
    {pc : EmitTraceEvent.Pc} (order : CallOrder thread history pc) :
    (claimedBy thread (claims history)).Sublist (numbered thread history) ∧
    (numbered thread history).map unnumbered <+: (calls thread history).map unnumbered := by
  cases pc with
  | takeSequence event => exact ⟨order.2, order.1 ▸ List.prefix_append ..⟩
  | loadPosition | loadSequence | compareExchange =>
      obtain ⟨counted, earlier, last, ordered⟩ := order
      exact ⟨last ▸ ordered.trans (List.sublist_append_left ..), counted ▸ List.prefix_rfl⟩
  | idle | drop | copy | wake | setEvent | clearWake | finish =>
      exact ⟨order.2, order.1 ▸ List.prefix_rfl⟩

end Calls

/-! ## Delivery -/

/-- What a read returns of a claimed event: everything its producer copied. -/
def SameMessage (event claimed : TraceEvent) : Prop :=
  event.header.size = claimed.header.size ∧
  event.bytes.take event.header.size.toNat = claimed.bytes.take claimed.header.size.toNat

theorem SameMessage.header_eq {event claimed : TraceEvent} (same : SameMessage event claimed)
    (sized : Sized claimed) : event.header = claimed.header := by
  obtain ⟨size, agree⟩ := same
  rw [size] at agree
  exact TraceEvent.header_eq_of_take_eq sized.1 agree

section Runs

variable {transport : Transport} {history : List (Label Thread)} {machine : Machine Thread}

theorem Invariant.length_claims (inv : Invariant history machine) :
    (claims history).length = machine.shared.ring.enqueuePosition := by
  simpa [view] using inv.protocol.claimed_length

theorem Invariant.length_delivered (inv : Invariant history machine) :
    (delivered history).length = machine.shared.ring.dequeuePosition := by
  simpa [view, released] using inv.protocol.taken_length

theorem Invariant.delivered_le (inv : Invariant history machine) :
    machine.shared.ring.dequeuePosition ≤ machine.shared.ring.enqueuePosition :=
  (Nat.le_add_right _ _).trans inv.protocol.head_le_tail

/-- The `k`-th read returns the `k`-th claim. -/
theorem Invariant.delivered_exact (inv : Invariant history machine) {k : Nat}
    {event : TraceEvent} (returned : (delivered history)[k]? = some event) :
    ∃ claim, (claims history)[k]? = some claim ∧ SameMessage event claim.event := by
  have small : k < machine.shared.ring.dequeuePosition := by
    rw [← inv.length_delivered]
    exact (List.getElem?_eq_some_iff.mp returned).1
  have claimed : k < (claims history).length := by
    rw [inv.length_claims]
    exact lt_of_lt_of_le small inv.delivered_le
  refine ⟨(claims history)[k], List.getElem?_eq_getElem claimed, ?_⟩
  set claim := (claims history)[k] with claimDef
  have sized := inv.locals.sized claim (List.getElem_mem claimed)
  have known : (view history machine).claimed[k]? = some claim.event.message := by
    simp [view, List.getElem?_eq_getElem claimed, claimDef]
  obtain ⟨cells, found, _, agree⟩ := inv.protocol.taken_exact k _
    (lt_of_lt_of_le small (Nat.le_add_right _ _)) known
  have cellsEq : cells = event.bytes := by
    simp only [view] at found
    rw [List.getElem?_append_left (by simpa [inv.length_delivered] using small),
      List.getElem?_map, returned] at found
    simpa using found.symm
  rw [TraceEvent.length_message sized.2, cellsEq, TraceEvent.message] at agree
  have header := TraceEvent.header_eq_of_take_eq sized.1 agree
  exact ⟨congrArg TraceEventHeader.size header, by rw [header]; exact agree⟩

/-- Two producers never copy into one slot at once. -/
theorem Invariant.copies_exclusive (inv : Invariant history machine) {thread other : Thread}
    {event event' : TraceEvent} {position position' copied copied' : Nat}
    (copying : machine.producers thread = .copy event position copied)
    (copying' : machine.producers other = .copy event' position' copied')
    (same : slotIndex position = slotIndex position') : thread = other := by
  have writer : (view history machine).writers thread =
      some ⟨position, event.message, copied⟩ := by simp [view, copying, writerOf]
  have writer' : (view history machine).writers other =
      some ⟨position', event'.message, copied'⟩ := by simp [view, copying', writerOf]
  obtain ⟨lower, upper, _⟩ := inv.protocol.writer_owns _ _ writer
  obtain ⟨lower', upper', _⟩ := inv.protocol.writer_owns _ _ writer'
  have window := inv.protocol.tail_le
  rw [slotIndex_eq, slotIndex_eq] at same
  refine inv.protocol.writer_unique _ _ _ _ writer writer' ?_
  exact SequencedRing.position_eq_of_slot_eq same (by omega) (by omega)

/-- The reader never copies out of a slot a producer copies into. -/
theorem Invariant.copy_out_exclusive (inv : Invariant history machine) {thread : Thread}
    {event : TraceEvent} {position position' copied : Nat} {buffer : List UInt8}
    (copying : machine.producers thread = .copy event position copied)
    (reading : machine.reader = .copy position' buffer) :
    slotIndex position ≠ slotIndex position' := by
  intro same
  have writer : (view history machine).writers thread =
      some ⟨position, event.message, copied⟩ := by simp [view, copying, writerOf]
  have reader : (view history machine).reader = some buffer := by simp [view, reading, readerOf]
  have head : (view history machine).head = position' := by
    have current := inv.locals.reader
    rw [reading] at current
    simp only [view, released, reading, releasedBy]
    exact current.symm
  obtain ⟨lower, upper, number⟩ : (view history machine).head ≤ position ∧
      position < (view history machine).tail ∧ (view history machine).sequenceAt position = position :=
    inv.protocol.writer_owns _ _ writer
  obtain ⟨_, published⟩ := inv.protocol.reader_published _ reader
  have window := inv.protocol.tail_le
  rw [slotIndex_eq, slotIndex_eq, ← head] at same
  have together : position = (view history machine).head :=
    SequencedRing.position_eq_of_slot_eq same (by omega) (by omega)
  rw [together] at number
  omega

variable [DecidableEq Thread]

/-- The position in a claim is its place in the claim order. -/
theorem claim_position {before after : List (Label Thread)} {thread : Thread}
    {event : TraceEvent} {position : Nat}
    (run : (system transport Thread).Run
      (before ++ .producer thread (.claim event position) :: after) machine) :
    position = (claims before).length := by
  obtain ⟨middle, next, run', taken, _⟩ := run.step_at
  rw [(Run.invariant run').length_claims]
  cases taken with
  | producer step =>
      generalize middle.producers thread = pc at step
      cases step with
      | claim same => exact same.symm

/-- No slot number and no position runs more than a lap ahead of the claims. -/
theorem position_range (run : (system transport Thread).Run history machine) :
    machine.shared.ring.enqueuePosition = (claims history).length ∧
    machine.shared.ring.dequeuePosition ≤ (claims history).length ∧
    ∀ index, (machine.shared.ring.slots index).sequence ≤
      (claims history).length + TRACE_RING_CAPACITY := by
  have inv := Run.invariant run
  rw [inv.length_claims]
  exact ⟨rfl, inv.delivered_le, inv.protocol.sequence_le_tail_add⟩

/-- Exact delivery, call order and mutual exclusion of the copies. -/
theorem delivery_exact (run : (system transport Thread).Run history machine) :
    (∀ before thread event position after,
      history = before ++ .producer thread (.claim event position) :: after →
      position = (claims before).length) ∧
    (∀ (k : Nat) (event : TraceEvent), (delivered history)[k]? = some event →
      ∃ claim, (claims history)[k]? = some claim ∧ SameMessage event claim.event) ∧
    (∀ thread,
      (claimedBy thread ((claims history).take (delivered history).length)).Sublist
        (numbered thread history) ∧
      (numbered thread history).map unnumbered <+: (calls thread history).map unnumbered) ∧
    (∀ thread other event event' position position' copied copied',
      machine.producers thread = .copy event position copied →
      machine.producers other = .copy event' position' copied' →
      slotIndex position = slotIndex position' → thread = other) ∧
    ∀ thread event position copied position' buffer,
      machine.producers thread = .copy event position copied →
      machine.reader = .copy position' buffer →
      slotIndex position ≠ slotIndex position' := by
  have inv := Run.invariant run
  refine ⟨?_, fun k event => inv.delivered_exact, fun thread => ?_, ?_, ?_⟩
  · rintro before thread event position after rfl
    exact claim_position run
  · obtain ⟨ordered, counted⟩ := (Run.callOrder run thread).ordered
    exact ⟨.trans (((List.take_sublist ..).filter _).map _) ordered, counted⟩
  · exact fun _ _ _ _ _ _ _ _ => inv.copies_exclusive
  · exact fun _ _ _ _ _ _ => inv.copy_out_exclusive

theorem delivery_exact_sample : ∃ difference, ∃ machine : Machine Bool,
    (system ⟨true, true⟩ Bool).Run (sampleHistory difference) machine ∧
    (delivered (sampleHistory difference)).length = 2 ∧
    (∀ (k : Nat) (event : TraceEvent), (delivered (sampleHistory difference))[k]? = some event →
      ∃ claim, (claims (sampleHistory difference))[k]? = some claim ∧
        SameMessage event claim.event) ∧
    ∀ thread, (claimedBy thread ((claims (sampleHistory difference)).take 2)).Sublist
      (numbered thread (sampleHistory difference)) := by
  obtain ⟨difference, _, machine, run, _⟩ := sample_run
  have two : (delivered (sampleHistory difference)).length = 2 :=
    length_filterMap_sampleHistory Label.delivered? 0 (fun _ _ => rfl) difference
  obtain ⟨_, exact, ordered, _⟩ := delivery_exact run
  exact ⟨difference, machine, run, two, fun k event => exact k event,
    fun thread => two ▸ (ordered thread).1⟩

end Runs

end Ring

end ApiScope
