import ApiScope.Ring.Accounting

/-!
# What a returned call leaves behind

A call that has returned true owns one claimed position whose slot it has
published, and no other call owns that position.  Every call that passed the
header checks has returned true, was dropped, or is still inside.
-/

namespace ApiScope

open Transition

namespace Ring

variable {Thread : Type*}

/-- The slot of a position has moved past the position itself. -/
def Published (ring : TraceRing) (position : Nat) : Prop :=
  position < (ring.slotAt position).sequence

def Label.returned? : Label Thread → Option (Nat × Claim Thread)
  | .producer thread (.finish event position) => some (position, ⟨thread, event⟩)
  | _ => none

/-- The calls that returned true, with the positions they claimed. -/
def returns (history : List (Label Thread)) : List (Nat × Claim Thread) :=
  history.filterMap Label.returned?

theorem returns_snoc (history : List (Label Thread)) (label : Label Thread) :
    returns (history ++ [label]) = returns history ++ label.returned?.toList :=
  filterMap_snoc _ history label

/-- The event and the position of a call behind its claim. -/
def owned : EmitTraceEvent.Pc → Option (TraceEvent × Nat)
  | .copy event position _ | .wake event position | .setEvent event position
  | .clearWake event position | .finish event position => some (event, position)
  | _ => none

/-- The position of a call behind its publication. -/
def announced : EmitTraceEvent.Pc → Option Nat
  | .wake _ position | .setEvent _ position | .clearWake _ position | .finish _ position =>
      some position
  | _ => none

/-- Who owns and who has owned which position. -/
structure Ledger (history : List (Label Thread)) (machine : Machine Thread) : Prop where
  claimed : ∀ thread event position, owned (machine.producers thread) = some (event, position) →
    (claims history)[position]? = some ⟨thread, event⟩
  published : ∀ thread position, announced (machine.producers thread) = some position →
    Published machine.shared.ring position
  unreturned : ∀ thread event position, owned (machine.producers thread) = some (event, position) →
    position ∉ (returns history).map Prod.fst
  returned : ∀ position claim, (position, claim) ∈ returns history →
    (claims history)[position]? = some claim ∧ Published machine.shared.ring position
  once : ((returns history).map Prod.fst).Nodup

/-- A read that finds nothing has looked at an unpublished head. -/
theorem Invariant.missed {history : List (Label Thread)} {machine : Machine Thread}
    (inv : Invariant history machine) {position : Nat}
    (reading : machine.reader = .loadSequence position)
    (unpublished : (machine.shared.ring.slotAt position).sequence ≠ position + 1) :
    position = machine.shared.ring.dequeuePosition ∧ ¬Published machine.shared.ring position := by
  have current := inv.locals.reader
  rw [reading] at current
  have head : (view history machine).head = position := by
    simp only [view, released, reading, releasedBy]
    exact current.symm
  refine ⟨current, ?_⟩
  unfold Published
  rw [← view_sequenceAt history] at unpublished ⊢
  have number := inv.protocol.sequence_cases position head.le
    (by rw [head]; exact Nat.lt_add_of_pos_right (by decide))
  omega

/-- A released position counts as published. -/
theorem Invariant.published_of_lt {history : List (Label Thread)} {machine : Machine Thread}
    (inv : Invariant history machine) {position : Nat}
    (passed : position < machine.shared.ring.dequeuePosition) :
    Published machine.shared.ring position := by
  have behind : position < (view history machine).head := lt_of_lt_of_le passed (Nat.le_add_right _ _)
  obtain ⟨later, lower, upper, same⟩ := SequencedRing.exists_position (view history machine).head
    (SequencedRing.slotOf TRACE_RING_CAPACITY position)
  have number := inv.protocol.sequence_cases later lower upper
  have sameNumber : (view history machine).sequenceAt later =
      (view history machine).sequenceAt position := by
    rw [SequencedRing.State.sequenceAt, SequencedRing.State.sequenceAt, same]
  rw [sameNumber] at number
  rw [Published, ← view_sequenceAt history]
  omega

/-- The reader publishes nothing: what it hands on belongs to the next lap. -/
theorem Invariant.reader_hides {history : List (Label Thread)} {machine : Machine Thread}
    (inv : Invariant history machine) {label : TryReadRing.Label} {shared : Shared}
    {pc : TryReadRing.Pc} (taken : TryReadRing.Step machine.shared machine.reader label shared pc)
    {position : Nat} (hidden : ¬Published machine.shared.ring position) :
    ¬Published shared.ring position := by
  have current := inv.locals.reader
  have reads := inv.protocol.reader_published
  generalize readerEq : machine.reader = reader at taken current
  cases taken with
  | @release head copied complete =>
      have atHead : (view history machine).head = head := by
        simp only [view, released, readerEq, releasedBy]
        exact current.symm
      have number := (reads copied (by simp [view, readerEq, readerOf])).2
      rw [atHead, view_sequenceAt] at number
      by_cases same : slotIndex position = slotIndex head
      · rw [Published, TraceRing.slotAt, same, ← TraceRing.slotAt, number] at hidden
        have lap : head + TRACE_RING_CAPACITY ≤ position := by
          by_contra short
          rw [slotIndex_eq, slotIndex_eq] at same
          have equal := SequencedRing.position_eq_of_slot_eq same (by omega) (by omega)
          omega
        simpa [Published, TraceRing.slotAt, TraceRing.setSlot, same] using lap
      · simpa [Published, TraceRing.slotAt, TraceRing.setSlot, Function.update_of_ne same]
          using hidden
  | loadPosition | miss | hit | copy | deliver | clearWake | consumeWake => exact hidden

section Steps

variable {history : List (Label Thread)} {machine next : Machine Thread} {label : Label Thread}

theorem claims_mono {position : Nat} {claim : Claim Thread}
    (known : (claims history)[position]? = some claim) :
    (claims (history ++ [label]))[position]? = some claim := by
  rw [claims_snoc, List.getElem?_append_left (List.getElem?_eq_some_iff.mp known).1, known]

theorem Published.mono {ring ring' : TraceRing} {position : Nat} (held : Published ring position)
    (numbers : ∀ index, (ring.slots index).sequence ≤ (ring'.slots index).sequence) :
    Published ring' position :=
  lt_of_lt_of_le held (numbers _)

/-- A step that neither claims nor returns. -/
theorem Ledger.silent (ledger : Ledger history machine)
    (numbers : ∀ index, (machine.shared.ring.slots index).sequence ≤
      (next.shared.ring.slots index).sequence)
    (noClaim : label.claim? = none) (noReturn : label.returned? = none)
    (sameOwned : ∀ thread, owned (next.producers thread) = owned (machine.producers thread))
    (announces : ∀ thread position, announced (next.producers thread) = some position →
      announced (machine.producers thread) = some position ∨
        Published next.shared.ring position) :
    Ledger (history ++ [label]) next := by
  have sameClaims : claims (history ++ [label]) = claims history := by
    simp [claims_snoc, noClaim]
  have sameReturns : returns (history ++ [label]) = returns history := by
    simp [returns_snoc, noReturn]
  refine ⟨?_, ?_, ?_, ?_, sameReturns ▸ ledger.once⟩
  · intro thread event position owns
    rw [sameClaims]
    exact ledger.claimed thread event position (sameOwned thread ▸ owns)
  · intro thread position behind
    rcases announces thread position behind with before | now
    · exact (ledger.published thread position before).mono numbers
    · exact now
  · intro thread event position owns
    rw [sameReturns]
    exact ledger.unreturned thread event position (sameOwned thread ▸ owns)
  · intro position claim returned
    rw [sameReturns] at returned
    rw [sameClaims]
    exact (ledger.returned position claim returned).imp_right fun held => held.mono numbers

variable [DecidableEq Thread]

/-- The claim of the next position. -/
theorem Ledger.claim (ledger : Ledger history machine)
    (length : (claims history).length = machine.shared.ring.enqueuePosition) {thread : Thread}
    {event : TraceEvent} (nothing : owned (machine.producers thread) = none) :
    Ledger (history ++ [.producer thread (.claim event machine.shared.ring.enqueuePosition)])
      { machine with
        shared := { machine.shared with
          ring := { machine.shared.ring with
            enqueuePosition := machine.shared.ring.enqueuePosition + 1 } }
        producers := Function.update machine.producers thread
          (.copy event machine.shared.ring.enqueuePosition 0) } := by
  have old : ∀ {position claim}, (claims history)[position]? = some claim →
      position < machine.shared.ring.enqueuePosition := fun known =>
    length ▸ (List.getElem?_eq_some_iff.mp known).1
  have sameReturns : returns (history ++
      [.producer thread (.claim event machine.shared.ring.enqueuePosition)]) = returns history := by
    simp [returns_snoc, Label.returned?]
  refine ⟨?_, ?_, ?_, ?_, sameReturns ▸ ledger.once⟩
  · intro other event' position owns
    by_cases same : other = thread
    · subst same
      obtain ⟨rfl, rfl⟩ : event = event' ∧ machine.shared.ring.enqueuePosition = position := by
        simpa [owned] using owns
      simp [claims_snoc, Label.claim?, ← length]
    · exact claims_mono (ledger.claimed other event' position
        (by simpa [Function.update_of_ne same] using owns))
  · intro other position behind
    by_cases same : other = thread
    · subst same
      simp [announced] at behind
    · exact ledger.published other position (by simpa [Function.update_of_ne same] using behind)
  · intro other event' position owns
    rw [sameReturns]
    by_cases same : other = thread
    · subst same
      obtain ⟨_, rfl⟩ : event = event' ∧ machine.shared.ring.enqueuePosition = position := by
        simpa [owned] using owns
      intro member
      obtain ⟨⟨_, claim⟩, returned, rfl⟩ := List.mem_map.mp member
      exact lt_irrefl _ (old (ledger.returned _ claim returned).1)
    · exact ledger.unreturned other event' position
        (by simpa [Function.update_of_ne same] using owns)
  · intro position claim returned
    rw [sameReturns] at returned
    exact (ledger.returned position claim returned).imp_left claims_mono

/-- The return of a call. -/
theorem Ledger.finish (ledger : Ledger history machine) {thread : Thread} {event : TraceEvent}
    {position : Nat} (at_ : machine.producers thread = .finish event position) :
    Ledger (history ++ [.producer thread (.finish event position)])
      { machine with producers := Function.update machine.producers thread .idle } := by
  have sameClaims : claims (history ++ [.producer thread (.finish event position)]) =
      claims history := by
    simp [claims_snoc, Label.claim?]
  have newReturns : returns (history ++ [.producer thread (.finish event position)]) =
      returns history ++ [(position, ⟨thread, event⟩)] := by
    simp [returns_snoc, Label.returned?]
  have owns : owned (machine.producers thread) = some (event, position) := by
    rw [at_]
    rfl
  have claimed := ledger.claimed thread event position owns
  have published := ledger.published thread position (by rw [at_]; rfl)
  have elsewhere : ∀ {other event' position'},
      owned (Function.update machine.producers thread .idle other) = some (event', position') →
      other ≠ thread ∧ owned (machine.producers other) = some (event', position') := by
    intro other event' position' ownsOther
    by_cases same : other = thread
    · subst same
      simp [owned] at ownsOther
    · exact ⟨same, by simpa [Function.update_of_ne same] using ownsOther⟩
  refine ⟨?_, ?_, ?_, ?_, ?_⟩
  · intro other event' position' ownsOther
    rw [sameClaims]
    exact ledger.claimed other event' position' (elsewhere ownsOther).2
  · intro other position' behind
    by_cases same : other = thread
    · subst same
      simp [announced] at behind
    · exact ledger.published other position' (by simpa [Function.update_of_ne same] using behind)
  · intro other event' position' ownsOther
    obtain ⟨differ, ownsOther⟩ := elsewhere ownsOther
    have claimedOther := ledger.claimed other event' position' ownsOther
    rw [newReturns, List.map_append, List.mem_append]
    rintro (old | new)
    · exact ledger.unreturned other event' position' ownsOther old
    · obtain rfl : position' = position := by simpa using new
      rw [claimed] at claimedOther
      cases claimedOther
      exact differ rfl
  · intro position' claim returned
    rw [sameClaims]
    rw [newReturns, List.mem_append] at returned
    rcases returned with old | new
    · exact ledger.returned position' claim old
    · obtain ⟨rfl, rfl⟩ : position' = position ∧ claim = ⟨thread, event⟩ := by simpa using new
      exact ⟨claimed, published⟩
  · rw [newReturns, List.map_append, List.nodup_append]
    refine ⟨ledger.once, by simp, ?_⟩
    intro old member new single same
    have isNew : old = position := same.trans (by simpa using single)
    exact ledger.unreturned thread event position owns (isNew ▸ member)

theorem Ledger.producer {transport : Transport} {thread : Thread} {label : EmitTraceEvent.Label}
    {shared : Shared} {pc : EmitTraceEvent.Pc} (ledger : Ledger history machine)
    (length : (claims history).length = machine.shared.ring.enqueuePosition)
    (numbers : ∀ index, (machine.shared.ring.slots index).sequence ≤
      (shared.ring.slots index).sequence)
    (taken : EmitTraceEvent.Step transport machine.shared (machine.producers thread) label
      shared pc) :
    Ledger (history ++ [.producer thread label])
      { machine with
        shared := shared, producers := Function.update machine.producers thread pc } := by
  have sameOwned : owned pc = owned (machine.producers thread) → ∀ other,
      owned (Function.update machine.producers thread pc other) =
        owned (machine.producers other) := by
    intro same other
    by_cases moved : other = thread
    · subst moved
      simpa using same
    · simp [Function.update_of_ne moved]
  have announces : (∀ position, announced pc = some position →
        announced (machine.producers thread) = some position ∨ Published shared.ring position) →
      ∀ other position,
        announced (Function.update machine.producers thread pc other) = some position →
        announced (machine.producers other) = some position ∨ Published shared.ring position := by
    intro own other position behind
    by_cases moved : other = thread
    · subst moved
      exact own position (by simpa using behind)
    · exact .inl (by simpa [Function.update_of_ne moved] using behind)
  generalize pcEq : machine.producers thread = before at taken sameOwned announces
  cases taken with
  | @claim event position same =>
      subst same
      exact ledger.claim length (by rw [pcEq]; rfl)
  | finish => exact ledger.finish pcEq
  | @publish event position copied =>
      refine ledger.silent numbers rfl rfl (sameOwned rfl) (announces ?_)
      rintro _ ⟨⟩
      right
      simp [Published, TraceRing.slotAt, TraceRing.setSlot]
  | call | reject | takeSequence | loadPosition | full | free | behind | drop | contend | copy
  | skipWake | requestFirst | requestAgain | setEvent | setEventFailed | clearWake =>
      exact ledger.silent numbers rfl rfl (sameOwned rfl) (announces fun _ => .inl)

end Steps

section Runs

variable [DecidableEq Thread] {transport : Transport} {history : List (Label Thread)}
  {machine : Machine Thread}

theorem Run.ledger (run : (system transport Thread).Run history machine) :
    Ledger history machine := by
  refine (@System.Run.invariant _ _ _
    (fun history machine => Invariant history machine ∧ Ledger history machine)
    ?_ ?_ _ _ run).2
  · rintro machine isInitial
    refine ⟨invariant_of_initial isInitial, ?_⟩
    obtain ⟨_, idle, _⟩ := isInitial
    constructor <;> simp [idle, owned, announced, returns]
  · rintro history machine label next ⟨inv, ledger⟩ taken
    have numbers := (inv.viewStep taken).sequence_le inv.protocol
    refine ⟨inv.step taken, ?_⟩
    cases taken with
    | producer step => exact ledger.producer inv.length_claims numbers step
    | reader => exact ledger.silent numbers rfl rfl (fun _ => rfl) fun _ _ => .inl

/-! ## The fate of every call -/

/-- A returned or dropped call of a thread. -/
def settled (thread : Thread) (history : List (Label Thread)) : Nat :=
  ((returns history).filter fun entry => entry.2.thread = thread).length +
    ((drops history).filter fun entry => entry.thread = thread).length

/-- 1 inside a call, 0 outside. -/
def inside : EmitTraceEvent.Pc → Nat
  | .idle => 0
  | _ => 1

theorem settled_snoc (thread : Thread) (history : List (Label Thread)) (label : Label Thread) :
    settled thread (history ++ [label]) = settled thread history + settled thread [label] := by
  simp only [settled, returns, drops, List.filterMap_append, List.filter_append,
    List.length_append]
  omega

/-- What one label of a thread adds to its calls and settled calls. -/
theorem fates_step {transport : Transport} {shared shared' : Shared} {thread : Thread}
    {pc pc' : EmitTraceEvent.Pc} {label : EmitTraceEvent.Label}
    (taken : EmitTraceEvent.Step transport shared pc label shared' pc') :
    (calls thread [.producer thread label]).length + inside pc =
      settled thread [.producer thread label] + inside pc' := by
  cases taken <;>
    simp [calls, settled, returns, drops, List.filterMap_cons, Label.call?, Label.returned?,
      Label.drop?, inside]

theorem calls_other {thread other : Thread} (differ : thread ≠ other)
    (label : EmitTraceEvent.Label) :
    calls other [.producer thread label] = [] ∧ settled other [.producer thread label] = 0 := by
  cases label <;>
    simp [calls, settled, returns, drops, List.filterMap_cons, Label.call?, Label.returned?,
      Label.drop?, differ]

omit [DecidableEq Thread] in
theorem droppedEvents_step {transport : Transport} {shared shared' : Shared} {thread : Thread}
    {pc pc' : EmitTraceEvent.Pc} {label : EmitTraceEvent.Label}
    (taken : EmitTraceEvent.Step transport shared pc label shared' pc') :
    shared'.ring.droppedEvents =
      shared.ring.droppedEvents + .ofNat (drops [.producer thread label]).length := by
  cases taken <;> simp [drops, List.filterMap_cons, Label.drop?, TraceRing.setSlot]

/-- Each call that passed the header checks has returned true, was dropped, or is unfinished;
and `droppedEvents` counts the drops. -/
theorem Run.fates (run : (system transport Thread).Run history machine) :
    (∀ thread, (calls thread history).length =
      settled thread history + inside (machine.producers thread)) ∧
    machine.shared.ring.droppedEvents = .ofNat (drops history).length := by
  refine @System.Run.invariant _ _ _ (fun history machine =>
    (∀ thread, (calls thread history).length =
      settled thread history + inside (machine.producers thread)) ∧
    machine.shared.ring.droppedEvents = .ofNat (drops history).length) ?_ ?_ _ _ run
  · rintro machine ⟨shared, idle, _⟩
    refine ⟨fun thread => ?_, ?_⟩
    · rw [idle]
      rfl
    · rw [shared]
      rfl
  · rintro history machine label next ⟨counted, dropped⟩ taken
    cases taken with
    | @reader label _ _ step =>
        refine ⟨fun thread => ?_, ?_⟩
        · have noFate : settled thread [.reader label] = 0 := rfl
          rw [calls_snoc, settled_snoc, noFate]
          simpa [Label.call?] using counted thread
        · rw [(reader_counters step).2, dropped, drops_snoc]
          simp [Label.drop?]
    | @producer thread label shared pc step =>
        refine ⟨fun other => ?_, ?_⟩
        · have before := counted other
          simp only [calls, List.filterMap_append, List.length_append, settled_snoc] at before ⊢
          by_cases differ : thread = other
          · subst differ
            have own := @fates_step _ _ _ _ _ thread _ _ _ step
            simp only [calls, Function.update_self] at own ⊢
            omega
          · obtain ⟨noCall, noFate⟩ := calls_other differ label
            rw [calls] at noCall
            simp only [noCall, noFate, Function.update_of_ne (Ne.symm differ), List.length_nil]
            omega
        · have own := @droppedEvents_step _ _ _ _ thread _ _ _ step
          simp only [drops, List.filterMap_append, List.length_append] at dropped own ⊢
          rw [own, dropped, UInt32.ofNat_add]

end Runs

end Ring

end ApiScope
