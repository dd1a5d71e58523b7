import ApiScope.Ring.Calls
import Mathlib.Algebra.Group.Action.Defs
import Mathlib.Algebra.Order.BigOperators.Group.Finset
import Mathlib.Data.Finset.Card

/-!
# Producers never wait

An iteration of the claim loop that neither claims nor drops has been overtaken:
`enqueuePosition` has moved since the iteration read it, and only another
producer can have moved it.
-/

namespace ApiScope

open Bytes Transition

/-- The step ends an iteration of the claim loop and begins another one. -/
def EmitTraceEvent.Label.retries : EmitTraceEvent.Label → Bool
  | .contend => true
  | .loadSequence difference => 0 < difference
  | _ => false

namespace Ring

variable {Thread : Type*}

def Label.retrier : Label Thread → Option Thread
  | .producer thread label => if label.retries then some thread else none
  | .reader _ => none

def Label.producer? : Label Thread → Option Thread
  | .producer thread _ => some thread
  | .reader _ => none

/-- The failed iterations of a history, by the thread that failed. -/
def retries (history : List (Label Thread)) : List Thread := history.filterMap Label.retrier

/-- The threads that take part in a history as producers. -/
def producersOf [DecidableEq Thread] (history : List (Label Thread)) : Finset Thread :=
  (history.filterMap Label.producer?).toFinset

theorem retries_snoc (history : List (Label Thread)) (label : Label Thread) :
    retries (history ++ [label]) = retries history ++ label.retrier.toList :=
  filterMap_snoc _ history label

/-! ## One step -/

/-- The position an iteration has read, or would read now. -/
def seenPosition (ring : TraceRing) : EmitTraceEvent.Pc → Nat
  | .loadSequence _ position | .compareExchange _ position => position
  | _ => ring.enqueuePosition

section Step

variable {history : List (Label Thread)} {machine : Machine Thread}

/-- A slot number is ahead of a position only if the position has been claimed. -/
theorem lt_enqueuePosition_of_ahead
    (inv : SequencedRing.Invariant TRACE_MAX_EVENT_BYTES (view history machine)) {position : Nat}
    (bound : position ≤ machine.shared.ring.enqueuePosition)
    (ahead : 0 < EmitTraceEvent.difference machine.shared.ring position) :
    position < machine.shared.ring.enqueuePosition := by
  unfold EmitTraceEvent.difference at ahead
  refine lt_of_le_of_ne bound fun same => ?_
  have number := inv.sequenceAt_tail (by decide)
  have tail : (view history machine).tail = position := same.symm
  rw [tail, view_sequenceAt] at number
  have level := number (by omega)
  omega

/-- A step of a producer keeps the position it has seen or takes a later one,
and a retry has seen an earlier one than it will see. -/
theorem seenPosition_producer {transport : Transport} {shared' : Shared}
    {pc pc' : EmitTraceEvent.Pc} {label : EmitTraceEvent.Label}
    (inv : SequencedRing.Invariant TRACE_MAX_EVENT_BYTES (view history machine))
    (promised : ProducerLocal machine.shared.ring pc)
    (taken : EmitTraceEvent.Step transport machine.shared pc label shared' pc') :
    seenPosition machine.shared.ring pc + label.retries.toNat ≤
      seenPosition shared'.ring pc' := by
  cases taken with
  | behind ahead =>
      have overtaken := Nat.succ_le_of_lt (lt_enqueuePosition_of_ahead inv promised.2 ahead)
      simpa [seenPosition, EmitTraceEvent.Label.retries, ahead] using overtaken
  | contend moved =>
      have overtaken := Nat.succ_le_of_lt (lt_of_le_of_ne promised.2.1 (Ne.symm moved))
      simpa [seenPosition, EmitTraceEvent.Label.retries] using overtaken
  | full less =>
      have notAhead := less.le.not_gt
      simpa [seenPosition, EmitTraceEvent.Label.retries, notAhead] using promised.2
  | free same => simp [seenPosition, EmitTraceEvent.Label.retries, same]
  | _ => simp [seenPosition, EmitTraceEvent.Label.retries]

theorem seenPosition_mono {ring ring' : TraceRing}
    (positions : ring.enqueuePosition ≤ ring'.enqueuePosition) (pc : EmitTraceEvent.Pc) :
    seenPosition ring pc ≤ seenPosition ring' pc := by
  cases pc with
  | loadSequence | compareExchange => exact le_rfl
  | _ => exact positions

end Step

/-! ## How often an iteration fails -/

section Count

variable [DecidableEq Thread] {transport : Transport} {history : List (Label Thread)}
  {machine next : Machine Thread} {label : Label Thread}

theorem enqueuePosition_le (inv : Invariant history machine)
    (taken : (system transport Thread).step machine label next) :
    machine.shared.ring.enqueuePosition ≤ next.shared.ring.enqueuePosition :=
  (inv.viewStep taken).tail_le

/-- Every failed iteration of a thread has cost the others a claim. -/
theorem count_retries_step (inv : Invariant history machine) {thread : Thread}
    (counted : (retries history).count thread ≤
      seenPosition machine.shared.ring (machine.producers thread))
    (taken : (system transport Thread).step machine label next) :
    (retries (history ++ [label])).count thread ≤
      seenPosition next.shared.ring (next.producers thread) := by
  have positions := enqueuePosition_le inv taken
  rw [retries_snoc, List.count_append]
  cases taken with
  | reader step =>
      simp only [Label.retrier, Option.toList_none, List.count_nil, Nat.add_zero]
      exact counted.trans (seenPosition_mono positions _)
  | @producer other label shared pc step =>
      by_cases same : other = thread
      · subst same
        have moved := seenPosition_producer inv.protocol (inv.locals.producers other) step
        have cost : (Label.producer other label).retrier.toList.count other =
            label.retries.toNat := by
          cases retried : label.retries <;> simp [Label.retrier, retried]
        simp only [Function.update_self, cost]
        omega
      · have free : (Label.producer other label).retrier.toList.count thread = 0 := by
          cases retried : label.retries <;> simp [Label.retrier, retried, same]
        simp only [Function.update_of_ne (Ne.symm same), free, Nat.add_zero]
        exact counted.trans (seenPosition_mono positions _)

theorem count_retries_le (run : (system transport Thread).Run history machine)
    (thread : Thread) : (retries history).count thread ≤ (claims history).length := by
  have held : Invariant history machine ∧ (retries history).count thread ≤
      seenPosition machine.shared.ring (machine.producers thread) := by
    refine @System.Run.invariant _ _ _
      (fun history machine => Invariant history machine ∧ (retries history).count thread ≤
        seenPosition machine.shared.ring (machine.producers thread)) ?_ ?_ _ _ run
    · intro machine isInitial
      exact ⟨invariant_of_initial isInitial, Nat.zero_le _⟩
    · rintro history machine label next ⟨inv, counted⟩ taken
      exact ⟨inv.step taken, count_retries_step inv counted taken⟩
  obtain ⟨inv, counted⟩ := held
  have length := inv.protocol.claimed_length
  rw [show (view history machine).claimed.length = (claims history).length from
    List.length_map ..] at length
  rw [length]
  refine counted.trans ?_
  have promised := inv.locals.producers thread
  cases pc : machine.producers thread with
  | loadSequence event position =>
      rw [pc] at promised
      exact promised.2
  | compareExchange event position =>
      rw [pc] at promised
      exact promised.2.1
  | _ => exact le_rfl

/-- The failed iterations of all producers. -/
theorem length_retries_le (run : (system transport Thread).Run history machine) :
    (retries history).length ≤ (claims history).length * (producersOf history).card := by
  have inside : ∀ thread ∈ (retries history : Multiset Thread), thread ∈ producersOf history := by
    intro thread member
    obtain ⟨label, present, retried⟩ := List.mem_filterMap.mp (Multiset.mem_coe.mp member)
    refine List.mem_toFinset.mpr (List.mem_filterMap.mpr ⟨label, present, ?_⟩)
    cases label with
    | reader label => cases retried
    | producer other label =>
        simp only [Label.retrier] at retried
        split_ifs at retried
        exact retried
  have total := Multiset.sum_count_eq_card inside
  rw [Multiset.coe_card] at total
  rw [← total, Nat.mul_comm, ← smul_eq_mul]
  refine Finset.sum_le_card_nsmul _ _ _ fun thread _ => ?_
  rw [Multiset.coe_count]
  exact count_retries_le run thread

end Count

/-! ## Who has overtaken a failed iteration -/

section Overtaken

variable [DecidableEq Thread] {transport : Transport} {history : List (Label Thread)}
  {machine next last : Machine Thread} {label : Label Thread} {labels : List (Label Thread)}

omit [DecidableEq Thread] in
/-- Only a claim moves `enqueuePosition`. -/
theorem producer_enqueuePosition {shared shared' : Shared} {pc pc' : EmitTraceEvent.Pc}
    {label : EmitTraceEvent.Label} {thread : Thread}
    (taken : EmitTraceEvent.Step transport shared pc label shared' pc')
    (noClaim : (Label.producer thread label).claim? = none) :
    shared'.ring.enqueuePosition = shared.ring.enqueuePosition := by
  cases taken with
  | claim => cases noClaim
  | _ => rfl

theorem reader_enqueuePosition {shared shared' : Shared} {pc pc' : TryReadRing.Pc}
    {label : TryReadRing.Label} (taken : TryReadRing.Step shared pc label shared' pc') :
    shared'.ring.enqueuePosition = shared.ring.enqueuePosition := by
  cases taken <;> rfl

theorem exists_claim (path : (system transport Thread).Path machine labels last)
    (moved : last.shared.ring.enqueuePosition ≠ machine.shared.ring.enqueuePosition) :
    ∃ label ∈ labels, ∃ claim, label.claim? = some claim := by
  induction path with
  | refl => exact absurd rfl moved
  | @snoc middle last labels label path taken inductionHypothesis =>
      cases claimed : label.claim? with
      | some claim => exact ⟨label, by simp, claim, claimed⟩
      | none =>
          have same : last.shared.ring.enqueuePosition =
              middle.shared.ring.enqueuePosition := by
            cases taken with
            | producer step => exact producer_enqueuePosition step claimed
            | reader step => exact reader_enqueuePosition step
          rw [same] at moved
          obtain ⟨earlier, member, isClaim⟩ := inductionHypothesis moved
          exact ⟨earlier, List.mem_append_left _ member, isClaim⟩

/-- An iteration between its first and its last read. -/
def InIteration (event : TraceEvent) (position : Nat) (pc : EmitTraceEvent.Pc) : Prop :=
  pc = .loadSequence event position ∨ pc = .compareExchange event position

omit [DecidableEq Thread] in
/-- A step inside an iteration stays inside without a claim, or leaves it. -/
theorem inIteration_step {shared shared' : Shared} {pc pc' : EmitTraceEvent.Pc}
    {label : EmitTraceEvent.Label} (thread : Thread) {event : TraceEvent} {position : Nat}
    (taken : EmitTraceEvent.Step transport shared pc label shared' pc')
    (inside : InIteration event position pc) :
    (InIteration event position pc' ∧ (Label.producer thread label).claim? = none) ∨
      ∀ event position, ¬InIteration event position pc' := by
  rcases inside with rfl | rfl
  · cases taken with
    | free => exact Or.inl ⟨Or.inr rfl, rfl⟩
    | full | behind => exact Or.inr fun _ _ inside => by cases inside <;> contradiction
  · cases taken with
    | claim | contend => exact Or.inr fun _ _ inside => by cases inside <;> contradiction

/-- An iteration only begins by reading `enqueuePosition`. -/
theorem outside_step {shared shared' : Shared} {pc pc' : EmitTraceEvent.Pc}
    {label : EmitTraceEvent.Label}
    (taken : EmitTraceEvent.Step transport shared pc label shared' pc')
    (notRead : ∀ position, label ≠ .loadPosition position)
    (outside : ∀ event position, ¬InIteration event position pc) :
    ∀ event position, ¬InIteration event position pc' := by
  cases taken with
  | loadPosition => exact absurd rfl (notRead _)
  | full | free | behind => exact absurd (Or.inl rfl) (outside _ _)
  | claim | contend => exact absurd (Or.inr rfl) (outside _ _)
  | _ => exact fun _ _ inside => by cases inside <;> contradiction

/-- Until a thread reads `enqueuePosition` again it is in the same iteration
and has claimed nothing, or it has left the loop. -/
theorem iteration_path {thread : Thread} {event : TraceEvent} {position : Nat}
    (path : (system transport Thread).Path machine labels last)
    (begins : machine.producers thread = .loadSequence event position)
    (once : ∀ position, .producer thread (.loadPosition position) ∉ labels) :
    (InIteration event position (last.producers thread) ∧
        ∀ label ∈ labels, ∀ claim, label.claim? = some claim → claim.thread ≠ thread) ∨
      ∀ event position, ¬InIteration event position (last.producers thread) := by
  induction path with
  | refl => exact Or.inl ⟨Or.inl begins, by simp⟩
  | @snoc middle last labels label path taken inductionHypothesis =>
      have earlier := inductionHypothesis
        fun position member => once position (List.mem_append_left _ member)
      have notRead : ∀ position, label ≠ .producer thread (.loadPosition position) := by
        rintro position rfl
        exact once position (by simp)
      simp only [List.forall_mem_append, List.forall_mem_singleton]
      cases taken with
      | @reader label shared pc step =>
          refine earlier.imp_left fun ⟨inside, others⟩ => ⟨inside, others, ?_⟩
          intro claim claimed
          cases claimed
      | @producer other label shared pc step =>
          by_cases same : other = thread
          · subst same
            simp only [Function.update_self]
            rcases earlier with ⟨inside, others⟩ | outside
            · refine (inIteration_step other step inside).imp_left ?_
              rintro ⟨still, noClaim⟩
              exact ⟨still, others, by simp [noClaim]⟩
            · refine Or.inr (outside_step step (fun position isRead => ?_) outside)
              exact notRead position (by rw [isRead])
          · simp only [Function.update_of_ne (Ne.symm same)]
            refine earlier.imp_left fun ⟨inside, others⟩ => ⟨inside, others, ?_⟩
            intro claim claimed
            cases label with
            | claim event position =>
                cases claimed
                exact same
            | _ => cases claimed

/-- The position an iteration starts with is the current one. -/
theorem loadPosition_step {thread : Thread} {position : Nat}
    (taken : (system transport Thread).step machine
      (.producer thread (.loadPosition position)) next) :
    (∃ event, next.producers thread = .loadSequence event position) ∧
      next.shared.ring.enqueuePosition = position := by
  cases taken with
  | producer step =>
      generalize machine.producers thread = pc at step
      cases step with
      | loadPosition => exact ⟨⟨_, Function.update_self ..⟩, rfl⟩

/-- An iteration that fails has been overtaken. -/
theorem retry_step {thread : Thread} {label : EmitTraceEvent.Label}
    (inv : Invariant history machine) (failed : label.retries = true)
    (taken : (system transport Thread).step machine (.producer thread label) next) :
    ∃ event position, InIteration event position (machine.producers thread) ∧
      position < machine.shared.ring.enqueuePosition := by
  have promised := inv.locals.producers thread
  cases taken with
  | producer step =>
      generalize machine.producers thread = pc at promised step ⊢
      cases step with
      | behind ahead =>
          exact ⟨_, _, Or.inl rfl, lt_enqueuePosition_of_ahead inv.protocol promised.2 ahead⟩
      | contend moved => exact ⟨_, _, Or.inr rfl, lt_of_le_of_ne promised.2.1 (Ne.symm moved)⟩
      | full less => simp [EmitTraceEvent.Label.retries, less.le.not_gt] at failed
      | free same => simp [EmitTraceEvent.Label.retries, same] at failed
      | _ => cases failed

theorem inIteration_unique {event event' : TraceEvent} {position position' : Nat}
    {pc : EmitTraceEvent.Pc} (left : InIteration event position pc)
    (right : InIteration event' position' pc) : position = position' := by
  rcases left with rfl | rfl <;> rcases right with same | same <;> cases same <;> rfl

/-- Between the first read of an iteration and its failure another producer has
claimed a position. -/
theorem overtaken {before middle after : List (Label Thread)} {thread : Thread}
    {position : Nat} {label : EmitTraceEvent.Label}
    (run : (system transport Thread).Run
      (before ++ .producer thread (.loadPosition position) ::
        (middle ++ .producer thread label :: after)) machine)
    (once : ∀ position, .producer thread (.loadPosition position) ∉ middle)
    (failed : label.retries = true) :
    ∃ other event claimed, other ≠ thread ∧ .producer other (.claim event claimed) ∈ middle := by
  rw [← List.cons_append, ← List.append_assoc] at run
  obtain ⟨last, next, reached, fails, _⟩ := run.step_at
  obtain ⟨event, seen, inside, behind⟩ := retry_step (Run.invariant reached) failed fails
  obtain ⟨start, first, _, begins, path⟩ := reached.step_at
  obtain ⟨⟨event', loaded⟩, current⟩ := loadPosition_step begins
  rcases iteration_path path loaded once with ⟨still, others⟩ | outside
  · have same := inIteration_unique still inside
    have moved : last.shared.ring.enqueuePosition ≠ first.shared.ring.enqueuePosition := by
      rw [current]
      omega
    obtain ⟨label, member, claim, claimed⟩ := exists_claim path moved
    have other := others label member claim claimed
    cases label with
    | reader label => cases claimed
    | producer thread' label =>
        cases label with
        | claim event position =>
            cases claimed
            exact ⟨thread', event, position, other, member⟩
        | _ => cases claimed
  · exact absurd inside (outside _ _)

end Overtaken

/-! ## Running alone -/

/-- An iteration that claims. -/
def claimsIn (thread : Thread) (event : TraceEvent) (position : Nat) : List (Label Thread) :=
  [.producer thread (.loadPosition position), .producer thread (.loadSequence 0),
    .producer thread (.claim event position)]

/-- An iteration that drops. -/
def dropsIn (thread : Thread) (event : TraceEvent) (position : Nat) (difference : Int) :
    List (Label Thread) :=
  [.producer thread (.loadPosition position), .producer thread (.loadSequence difference),
    .producer thread (.drop event)]

section Alone

variable [DecidableEq Thread] {transport : Transport} {history : List (Label Thread)}
  {machine : Machine Thread} {thread : Thread} {event : TraceEvent}

/-- A step of a producer, seen in its own control state. -/
theorem step_iff {own : EmitTraceEvent.Label} {next : Machine Thread} {pc : EmitTraceEvent.Pc}
    (control : machine.producers thread = pc) :
    (system transport Thread).step machine (.producer thread own) next ↔
      ∃ shared pc', EmitTraceEvent.Step transport machine.shared pc own shared pc' ∧
        next = advance machine thread shared pc' := by
  subst control
  constructor
  · intro taken
    cases taken with
    | producer step => exact ⟨_, _, step, rfl⟩
  · rintro ⟨shared, pc, step, rfl⟩
    exact .producer step

/-- What an iteration does when nobody else takes a step. -/
theorem alone_iteration {labels : List (Label Thread)} {last : Machine Thread}
    (run : (system transport Thread).Run history machine)
    (begins : machine.producers thread = .loadPosition event) (solo : Solo thread labels)
    (three : labels.length = 3) (path : (system transport Thread).Path machine labels last) :
    labels = claimsIn thread event machine.shared.ring.enqueuePosition ∨
      ∃ difference < 0,
        labels = dropsIn thread event machine.shared.ring.enqueuePosition difference := by
  obtain ⟨first, second, third, rfl⟩ := List.length_eq_three.mp three
  obtain ⟨own, rfl⟩ := solo first (by simp)
  obtain ⟨own', rfl⟩ := solo second (by simp)
  obtain ⟨own'', rfl⟩ := solo third (by simp)
  obtain ⟨_, reads, path⟩ := path.uncons
  obtain ⟨_, compares, path⟩ := path.uncons
  obtain ⟨_, _, loaded, rfl⟩ := (step_iff begins).mp reads
  obtain ⟨_, _, compared, rfl⟩ := (step_iff (producers_advance _ _)).mp compares
  obtain ⟨_, _, decided, _⟩ := (step_iff (producers_advance _ _)).mp path.step_of_singleton
  cases loaded
  cases compared with
  | full less =>
      cases decided
      exact Or.inr ⟨_, less, rfl⟩
  | free same =>
      cases decided with
      | claim => exact Or.inl (by rw [claimsIn, same])
      | contend moved => exact absurd rfl moved
  | behind ahead =>
      have overtaken := lt_enqueuePosition_of_ahead (Run.invariant run).protocol le_rfl ahead
      exact absurd overtaken (lt_irrefl _)

/-- An iteration can always be taken to its end alone. -/
theorem exists_alone (run : (system transport Thread).Run history machine)
    (begins : machine.producers thread = .loadPosition event) :
    ∃ labels, Solo thread labels ∧ labels.length = 3 ∧
      (system transport Thread).Admits machine labels fun _ => True := by
  rcases lt_trichotomy (EmitTraceEvent.difference machine.shared.ring
    machine.shared.ring.enqueuePosition) 0 with less | same | ahead
  · refine ⟨dropsIn thread event machine.shared.ring.enqueuePosition
      (EmitTraceEvent.difference machine.shared.ring machine.shared.ring.enqueuePosition),
      by simp [Solo, dropsIn], rfl, ?_⟩
    refine .cons (step_advance transport begins .loadPosition) ?_
    refine .cons (step_advance transport (producers_advance _ _) (.full less)) ?_
    exact .cons (step_advance transport (producers_advance _ _) .drop) (.nil trivial)
  · refine ⟨claimsIn thread event machine.shared.ring.enqueuePosition,
      by simp [Solo, claimsIn], rfl, ?_⟩
    refine .cons (step_advance transport begins .loadPosition) ?_
    rw [← same]
    refine .cons (step_advance transport (producers_advance _ _) (.free same)) ?_
    exact .cons (step_advance transport (producers_advance _ _) (.claim rfl)) (.nil trivial)
  · have overtaken := lt_enqueuePosition_of_ahead (Run.invariant run).protocol le_rfl ahead
    exact absurd overtaken (lt_irrefl _)

/-- Alone a producer leaves the claim loop in the iteration it is in; when
others take steps too, every iteration that fails has been overtaken by a claim of
another producer, so there are at most as many as claims for each producer. -/
theorem producers_never_wait {transport : Transport} {history : List (Label Thread)}
    {machine : Machine Thread} (run : (system transport Thread).Run history machine) :
    (∀ thread event, machine.producers thread = .loadPosition event →
      (∃ labels, Solo thread labels ∧ labels.length = 3 ∧
        (system transport Thread).Admits machine labels fun _ => True) ∧
      ∀ labels last, Solo thread labels → labels.length = 3 →
        (system transport Thread).Path machine labels last →
        labels = claimsIn thread event machine.shared.ring.enqueuePosition ∨
          ∃ difference < 0,
            labels = dropsIn thread event machine.shared.ring.enqueuePosition difference) ∧
    (∀ before middle after thread position label,
      history = before ++ .producer thread (.loadPosition position) ::
        (middle ++ .producer thread label :: after) →
      (∀ position, .producer thread (.loadPosition position) ∉ middle) →
      label.retries = true →
      ∃ other event claimed, other ≠ thread ∧
        .producer other (.claim event claimed) ∈ middle) ∧
    (retries history).length ≤ (claims history).length * (producersOf history).card := by
  refine ⟨fun thread event begins => ⟨exists_alone run begins, ?_⟩, ?_, length_retries_le run⟩
  · intro labels last solo three path
    exact alone_iteration run begins solo three path
  · rintro before middle after thread position label rfl once failed
    exact overtaken run once failed

theorem producers_never_wait_sample : ∃ difference, ∃ machine : Machine Bool,
    (system ⟨true, true⟩ Bool).Run (sampleHistory difference) machine ∧
    (∃ before middle after, sampleHistory difference =
        before ++ .producer false (.loadPosition 0) :: (middle ++ .producer false .contend :: after) ∧
      ∃ other event claimed, other ≠ false ∧ .producer other (.claim event claimed) ∈ middle) ∧
    (retries (sampleHistory difference)).length = 1 ∧
    1 ≤ (claims (sampleHistory difference)).length * (producersOf (sampleHistory difference)).card := by
  obtain ⟨difference, negative, machine, run, _⟩ := sample_run
  obtain ⟨_, lost, bound⟩ := producers_never_wait run
  have once : (retries (sampleHistory difference)).length = 1 := by
    have before := length_filterMap_sampleHistory Label.retrier 0 (fun _ _ => rfl) difference
    have drop : (dropCall true sampleEvent 4099 4098 difference).filterMap Label.retrier = [] := by
      have failed : ¬0 < difference := not_lt.mpr (Int.le_of_lt negative)
      simp [dropCall, EmitTraceEvent.dropping, Label.retrier, EmitTraceEvent.Label.retries, failed]
    rw [drop] at before
    exact before
  refine ⟨difference, machine, run, ?_, once, once ▸ bound⟩
  obtain ⟨before, middle, after, split, free⟩ : ∃ before middle after, sampleHistory difference =
      before ++ .producer false (.loadPosition 0) ::
        (middle ++ .producer false .contend :: after) ∧
      ∀ position, .producer false (.loadPosition position) ∉ middle := by
    refine ⟨contested.take 5, (contested.drop 6).take 3, contested.drop 10 ++ (readOut 1 ++
      (readOut 2 ++ (fillCalls false sampleEvent [.requestWake] TRACE_RING_CAPACITY 3 2 ++
        dropCall true sampleEvent 4099 4098 difference))), ?_, by simp [contested]⟩
    simp only [sampleHistory, List.append_assoc]
    rfl
  exact ⟨before, middle, after, split, lost before middle after false 0 .contend split free rfl⟩

end Alone

end Ring

end ApiScope
