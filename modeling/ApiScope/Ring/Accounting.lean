import ApiScope.Ring.Delivery
import Mathlib.Algebra.BigOperators.Group.Finset.Piecewise
import Mathlib.Data.List.Perm.Subperm

/-!
# Drops and the three counters

`eventSequence`, `enqueuePosition` and `droppedEvents` move at different steps
of different threads.  What relates them is the number of calls between their
sequence number and their claim or drop.
-/

namespace ApiScope

open Bytes Transition

namespace Ring

variable {Thread : Type*}

/-! ## Counting threads -/

/-- The number of threads in some control states. -/
def threadsIn [Fintype Thread] (inside : EmitTraceEvent.Pc → Bool) (machine : Machine Thread) :
    Nat :=
  ∑ thread, (inside (machine.producers thread)).toNat

theorem threadsIn_update [Fintype Thread] [DecidableEq Thread] (inside : EmitTraceEvent.Pc → Bool)
    (machine : Machine Thread) (shared : Shared) (thread : Thread) (pc : EmitTraceEvent.Pc) :
    threadsIn inside
        { machine with
          shared := shared, producers := Function.update machine.producers thread pc } +
      (inside (machine.producers thread)).toNat =
    threadsIn inside machine + (inside pc).toNat := by
  have others : ∀ other ∈ Finset.univ.erase thread,
      (inside (Function.update machine.producers thread pc other)).toNat =
        (inside (machine.producers other)).toNat := by
    intro other member
    rw [Function.update_of_ne (Finset.ne_of_mem_erase member)]
  have before := Finset.add_sum_erase Finset.univ
    (fun other => (inside (machine.producers other)).toNat) (Finset.mem_univ thread)
  have after := Finset.add_sum_erase Finset.univ
    (fun other => (inside (Function.update machine.producers thread pc other)).toNat)
    (Finset.mem_univ thread)
  rw [Finset.sum_congr rfl others, Function.update_self] at after
  simp only [threadsIn]
  omega

/-- The call has passed the header checks and not taken its number. -/
def unnumberedCall : EmitTraceEvent.Pc → Bool
  | .takeSequence _ => true
  | _ => false

/-- The call has taken its number and has neither claimed nor dropped. -/
def undecidedCall : EmitTraceEvent.Pc → Bool
  | .loadPosition _ | .loadSequence _ _ | .compareExchange _ _ | .drop _ => true
  | _ => false

/-! ## Counting labels -/

def Label.accepted? : Label Thread → Option (Claim Thread)
  | .producer thread (.call event) => some ⟨thread, event⟩
  | _ => none

def Label.take? : Label Thread → Option (Claim Thread)
  | .producer thread (.takeSequence event) => some ⟨thread, event⟩
  | _ => none

def Label.drop? : Label Thread → Option (Claim Thread)
  | .producer thread (.drop event) => some ⟨thread, event⟩
  | _ => none

/-- The calls that passed the header checks. -/
def accepted (history : List (Label Thread)) : List (Claim Thread) :=
  history.filterMap Label.accepted?

/-- The sequence numbers taken, with their events. -/
def takes (history : List (Label Thread)) : List (Claim Thread) :=
  history.filterMap Label.take?

/-- The dropped events. -/
def drops (history : List (Label Thread)) : List (Claim Thread) :=
  history.filterMap Label.drop?

theorem accepted_snoc (history : List (Label Thread)) (label : Label Thread) :
    accepted (history ++ [label]) = accepted history ++ label.accepted?.toList :=
  filterMap_snoc _ history label

theorem takes_snoc (history : List (Label Thread)) (label : Label Thread) :
    takes (history ++ [label]) = takes history ++ label.take?.toList :=
  filterMap_snoc _ history label

theorem drops_snoc (history : List (Label Thread)) (label : Label Thread) :
    drops (history ++ [label]) = drops history ++ label.drop?.toList :=
  filterMap_snoc _ history label

/-- The sequence numbers taken, in the order they were taken. -/
def sequences (history : List (Label Thread)) : List UInt32 :=
  (takes history).map fun take => take.event.header.sequence

/-- The counters, in terms of the history. -/
structure Counters [Fintype Thread] (history : List (Label Thread)) (machine : Machine Thread) :
    Prop where
  accepted : (accepted history).length =
    (takes history).length + threadsIn unnumberedCall machine
  takes : (takes history).length =
    (claims history).length + (drops history).length + threadsIn undecidedCall machine
  eventSequence : machine.shared.ring.eventSequence = .ofNat (Ring.takes history).length
  droppedEvents : machine.shared.ring.droppedEvents = .ofNat (drops history).length
  sequences : sequences history =
    (List.range (Ring.takes history).length).map fun k => .ofNat (k + 1)

/-- The reader never touches the producers' counters. -/
theorem reader_counters {shared shared' : Shared} {pc pc' : TryReadRing.Pc}
    {label : TryReadRing.Label} (taken : TryReadRing.Step shared pc label shared' pc') :
    shared'.ring.eventSequence = shared.ring.eventSequence ∧
    shared'.ring.droppedEvents = shared.ring.droppedEvents := by
  cases taken <;> exact ⟨rfl, rfl⟩

section Accounts

variable [Fintype Thread] [DecidableEq Thread] {transport : Transport}
  {history : List (Label Thread)} {machine : Machine Thread}

omit [DecidableEq Thread] in
/-- Steps that touch neither the counters nor what they count. -/
theorem Counters.silent {label : Label Thread} {next : Machine Thread}
    (counters : Counters history machine) (noCall : label.accepted? = none)
    (noTake : label.take? = none) (noDrop : label.drop? = none) (noClaim : label.claim? = none)
    (unnumbered : threadsIn unnumberedCall next = threadsIn unnumberedCall machine)
    (undecided : threadsIn undecidedCall next = threadsIn undecidedCall machine)
    (sequence : next.shared.ring.eventSequence = machine.shared.ring.eventSequence)
    (dropped : next.shared.ring.droppedEvents = machine.shared.ring.droppedEvents) :
    Counters (history ++ [label]) next := by
  have sameTakes : Ring.takes (history ++ [label]) = Ring.takes history := by
    simp [takes_snoc, noTake]
  refine ⟨?_, ?_, ?_, ?_, ?_⟩
  · rw [sameTakes, unnumbered, ← counters.accepted, accepted_snoc, noCall]
    simp
  · rw [sameTakes, undecided, counters.takes, claims_snoc, drops_snoc, noClaim, noDrop]
    simp
  · rw [sequence, sameTakes, counters.eventSequence]
  · rw [dropped, counters.droppedEvents, drops_snoc, noDrop]
    simp
  · rw [Ring.sequences, sameTakes, ← counters.sequences, Ring.sequences]

/-- What one producer step does to the counters and to the lists behind them. -/
theorem Counters.producer {thread : Thread} {label : EmitTraceEvent.Label} {shared : Shared}
    {pc : EmitTraceEvent.Pc} (counters : Counters history machine)
    (taken : EmitTraceEvent.Step transport machine.shared (machine.producers thread) label
      shared pc) :
    Counters (history ++ [.producer thread label])
      { machine with
        shared := shared, producers := Function.update machine.producers thread pc } := by
  have unnumbered := threadsIn_update unnumberedCall machine shared thread pc
  have undecided := threadsIn_update undecidedCall machine shared thread pc
  obtain ⟨accepted, takes, eventSequence, droppedEvents, sequences⟩ := counters
  generalize machine.producers thread = before at taken unnumbered undecided
  cases taken with
  | call | takeSequence | claim | drop =>
      simp only [unnumberedCall, undecidedCall, Bool.toNat_true, Bool.toNat_false]
        at unnumbered undecided
      simp only [Ring.sequences] at sequences
      refine ⟨?_, ?_, ?_, ?_, ?_⟩
      · simp [accepted_snoc, takes_snoc, Label.accepted?, Label.take?]
        omega
      · simp [claims_snoc, takes_snoc, drops_snoc, Label.claim?, Label.take?, Label.drop?]
        omega
      · simp [takes_snoc, Label.take?, eventSequence]
      · simp [drops_snoc, Label.drop?, droppedEvents]
      · simp [Ring.sequences, takes_snoc, Label.take?, List.range_succ, sequences, eventSequence,
          EmitTraceEvent.withSequence]
  | reject | loadPosition | full | free | behind | contend | copy | publish | skipWake
  | requestFirst | requestAgain | setEvent | setEventFailed | clearWake | finish =>
      exact Counters.silent ⟨accepted, takes, eventSequence, droppedEvents, sequences⟩ rfl rfl rfl rfl
        (Nat.add_right_cancel unnumbered) (Nat.add_right_cancel undecided) rfl rfl

theorem Run.counters (run : (system transport Thread).Run history machine) :
    Counters history machine := by
  refine System.Run.invariant (fun machine initial => ?_)
    (fun history machine label next counters taken => ?_) run
  · obtain ⟨shared, idle, _⟩ := initial
    have nobody : ∀ inside : EmitTraceEvent.Pc → Bool, inside .idle = false →
        threadsIn inside machine = 0 := by
      intro inside outside
      simp [threadsIn, idle, outside]
    refine ⟨?_, ?_, ?_, ?_, rfl⟩
    · rw [nobody unnumberedCall rfl]
      rfl
    · rw [nobody undecidedCall rfl]
      rfl
    · rw [shared]
      rfl
    · rw [shared]
      rfl
  · cases taken with
    | producer step => exact counters.producer step
    | reader step =>
        obtain ⟨sequence, dropped⟩ := reader_counters step
        exact counters.silent rfl rfl rfl rfl rfl rfl sequence dropped

end Accounts

/-! ## Missing sequence numbers -/

section Missing

variable {history : List (Label Thread)} {machine : Machine Thread}

/-- The keys of a list that a part of it does not use. -/
theorem length_missing {Item Key : Type*} [DecidableEq Key] {part whole : List Item}
    (key : Item → Key) (within : part.Subperm whole) (distinct : (whole.map key).Nodup) :
    ((whole.map key).filter fun value => value ∉ part.map key).length + part.length =
      whole.length := by
  obtain ⟨copy, same, sublist⟩ := within
  obtain ⟨rest, split⟩ := sublist.exists_perm_append
  have keys : (whole.map key).Perm (part.map key ++ rest.map key) := by
    rw [← List.map_append]
    exact (split.trans (same.append_right rest)).map key
  have apart := List.disjoint_of_nodup_append (keys.nodup distinct)
  have used : (part.map key).filter (fun value => value ∉ part.map key) = [] := by
    rw [List.filter_eq_nil_iff]
    intro value member
    simpa using List.mem_map.mp member
  have unused : (rest.map key).filter (fun value => value ∉ part.map key) = rest.map key := by
    rw [List.filter_eq_self]
    intro value member
    simpa using fun item present equal => apart (List.mem_map.mpr ⟨item, present, equal⟩) member
  rw [(keys.filter _).length_eq, List.filter_append, used, unused, List.nil_append,
    List.length_map, split.length_eq, List.length_append, same.length_eq, Nat.add_comm]

/-- An emptied ring has returned every claimed event. -/
theorem delivered_sequences (inv : Invariant history machine)
    (emptied : machine.shared.ring.dequeuePosition = machine.shared.ring.enqueuePosition) :
    (delivered history).map (fun event => event.header.sequence) =
      (claims history).map fun claim => claim.event.header.sequence := by
  have lengths : (delivered history).length = (claims history).length := by
    rw [inv.length_delivered, inv.length_claims, emptied]
  refine List.ext_getElem (by simpa using lengths) fun k small small' => ?_
  simp only [List.length_map] at small small'
  obtain ⟨claim, claimed, same⟩ := inv.delivered_exact (List.getElem?_eq_getElem small)
  obtain ⟨_, rfl⟩ := List.getElem?_eq_some_iff.mp claimed
  have sized := inv.locals.sized _ (List.getElem_mem small')
  simp only [List.getElem_map, same.header_eq sized]

section Counted

variable [Fintype Thread]

theorem Counters.nodup_sequences (counters : Counters history machine)
    (few : (Ring.accepted history).length < 2 ^ 32) : (Ring.sequences history).Nodup := by
  have bound := counters.accepted
  rw [counters.sequences]
  refine List.Nodup.map_on ?_ List.nodup_range
  intro first member second member' same
  simp only [List.mem_range] at member member'
  have numbers := congrArg UInt32.toNat same
  simp only [UInt32.toNat_ofNat'] at numbers
  omega

end Counted

variable [DecidableEq Thread] {transport : Transport}

theorem count_claimedBy (entry : Claim Thread) (entries : List (Claim Thread)) :
    (claimedBy entry.thread entries).count entry.event = entries.count entry := by
  obtain ⟨thread, event⟩ := entry
  induction entries with
  | nil => rfl
  | cons first rest inductionHypothesis =>
      obtain ⟨thread', event'⟩ := first
      simp only [claimedBy] at inductionHypothesis ⊢
      by_cases same : thread' = thread
      · subst same
        simp [List.count_cons, inductionHypothesis]
      · simp [inductionHypothesis, same]

theorem claimedBy_takes (thread : Thread) (history : List (Label Thread)) :
    claimedBy thread (takes history) = numbered thread history := by
  induction history using List.reverseRecOn with
  | nil => rfl
  | append_singleton history label inductionHypothesis =>
      rw [takes_snoc, numbered_snoc, ← inductionHypothesis]
      simp only [claimedBy, List.filter_append, List.map_append, List.append_cancel_left_eq]
      cases label with
      | reader => rfl
      | producer other step =>
          by_cases same : other = thread <;> cases step <;>
            simp [Label.take?, Label.numbered?, same]

/-- Every claim is for a sequence number of its own. -/
theorem claims_subperm_takes (run : (system transport Thread).Run history machine) :
    (claims history).Subperm (takes history) := by
  rw [List.subperm_iff_count]
  intro entry
  rw [← count_claimedBy, ← count_claimedBy, claimedBy_takes]
  exact (Run.callOrder run entry.thread).ordered.1.count_le entry.event

variable [Fintype Thread]

theorem missing_sequences (run : (system transport Thread).Run history machine)
    (few : (accepted history).length < 2 ^ 32)
    (returned : ∀ thread, machine.producers thread = .idle)
    (emptied : machine.shared.ring.dequeuePosition = machine.shared.ring.enqueuePosition) :
    ((sequences history).filter fun sequence =>
        sequence ∉ (delivered history).map fun event => event.header.sequence).length =
      machine.shared.ring.droppedEvents.toNat := by
  have counters := Run.counters run
  have nobody : ∀ inside : EmitTraceEvent.Pc → Bool, inside .idle = false →
      threadsIn inside machine = 0 := by
    intro inside outside
    simp [threadsIn, returned, outside]
  have accounted := counters.takes
  rw [nobody _ rfl] at accounted
  rw [delivered_sequences (Run.invariant run) emptied]
  have found := length_missing (fun claim : Claim Thread => claim.event.header.sequence)
    (claims_subperm_takes run) (counters.nodup_sequences few)
  have bound := counters.accepted
  rw [sequences, counters.droppedEvents, UInt32.toNat_ofNat', Nat.mod_eq_of_lt (by omega)]
  omega

end Missing

/-! ## Why a call drops -/

/-- Slots the reader has handed to the next lap. -/
def releases (history : List (Label Thread)) : Nat :=
  history.countP fun
    | .reader .release => true
    | _ => false

/-- The history since some label, with what held just before it. -/
def Since (opening : Label Thread → Prop) (between : Label Thread → Prop)
    (reason : List (Label Thread) → Prop) (history : List (Label Thread)) : Prop :=
  ∃ before label middle, history = before ++ label :: middle ∧ opening label ∧
    (∀ later ∈ middle, between later) ∧ reason before

section Since

variable {opening between : Label Thread → Prop} {reason : List (Label Thread) → Prop}
  {history : List (Label Thread)} {label : Label Thread}

theorem Since.opened (opens : opening label) (held : reason history) :
    Since opening between reason (history ++ [label]) :=
  ⟨history, label, [], rfl, opens, by simp, held⟩

theorem Since.snoc (since : Since opening between reason history) (allowed : between label) :
    Since opening between reason (history ++ [label]) := by
  obtain ⟨before, first, middle, rfl, opens, kept, held⟩ := since
  refine ⟨before, first, middle ++ [label], by simp, opens, fun later member => ?_, held⟩
  rcases List.mem_append.mp member with old | new
  · exact kept later old
  · rwa [List.mem_singleton.mp new]

end Since

/-- Every slot was claimed and unread when the thread last loaded `enqueuePosition`. -/
def FullAtLastLoad (thread : Thread) : List (Label Thread) → Prop :=
  Since (fun label => ∃ position, label = .producer thread (.loadPosition position))
    (fun later => ∀ position, later ≠ .producer thread (.loadPosition position))
    (fun before => (claims before).length = releases before + TRACE_RING_CAPACITY)

/-- Labels of a call that has not yet claimed or dropped. -/
def undecidedLabel : EmitTraceEvent.Label → Bool
  | .takeSequence _ | .loadPosition _ | .loadSequence _ | .contend => true
  | _ => false

/-- The thread's current call has done nothing but look for a slot. -/
def UndecidedSinceCall (thread : Thread) : List (Label Thread) → Prop :=
  Since (fun label => ∃ event, label = .producer thread (.call event))
    (fun later => ∀ label, later = .producer thread label → undecidedLabel label = true)
    (fun _ => True)

/-- What the history says about a call in each control state. -/
def DropStory (ring : TraceRing) (thread : Thread) (history : List (Label Thread)) :
    EmitTraceEvent.Pc → Prop
  | .takeSequence _ | .loadPosition _ | .compareExchange _ _ => UndecidedSinceCall thread history
  | .loadSequence _ position => UndecidedSinceCall thread history ∧
      (position ≤ (ring.slotAt position).sequence ∨ FullAtLastLoad thread history)
  | .drop _ => UndecidedSinceCall thread history ∧ FullAtLastLoad thread history
  | _ => True

/-- Steps of other parties keep a thread's story. -/
theorem DropStory.other {ring ring' : TraceRing} {thread : Thread}
    {history : List (Label Thread)} {pc : EmitTraceEvent.Pc} {label : Label Thread}
    (story : DropStory ring thread history pc)
    (numbers : ∀ index, (ring.slots index).sequence ≤ (ring'.slots index).sequence)
    (elsewhere : ∀ step, label ≠ .producer thread step) :
    DropStory ring' thread (history ++ [label]) pc := by
  have undecided : UndecidedSinceCall thread history →
      UndecidedSinceCall thread (history ++ [label]) := fun since =>
    since.snoc fun step same => absurd same (elsewhere step)
  have full : FullAtLastLoad thread history → FullAtLastLoad thread (history ++ [label]) :=
    fun since => since.snoc fun _ => elsewhere _
  cases pc with
  | loadSequence event position =>
      exact ⟨undecided story.1, story.2.imp (fun seen => seen.trans (numbers _)) full⟩
  | drop => exact ⟨undecided story.1, full story.2⟩
  | takeSequence | loadPosition | compareExchange => exact undecided story
  | idle | copy | wake | setEvent | clearWake | finish => exact True.intro

section Stories

variable {transport : Transport} {history : List (Label Thread)} {machine : Machine Thread}

/-- A call's own steps keep its story. -/
theorem DropStory.step {thread : Thread} {shared : Shared} {pc : EmitTraceEvent.Pc}
    {label : EmitTraceEvent.Label}
    (story : DropStory machine.shared.ring thread history (machine.producers thread))
    (inv : Invariant history machine) (counted : releases history = released machine)
    (taken : EmitTraceEvent.Step transport machine.shared (machine.producers thread) label
      shared pc) :
    DropStory shared.ring thread (history ++ [.producer thread label]) pc := by
  have undecided : undecidedLabel label = true → UndecidedSinceCall thread history →
      UndecidedSinceCall thread (history ++ [.producer thread label]) := fun searching since =>
    since.snoc fun step same => by cases same; exact searching
  generalize machine.producers thread = before at story taken
  cases taken with
  | call => exact Since.opened ⟨_, rfl⟩ True.intro
  | takeSequence => exact undecided rfl story
  | loadPosition =>
      refine ⟨undecided rfl story, or_iff_not_imp_left.mpr fun behind => ?_⟩
      refine Since.opened ⟨_, rfl⟩ ?_
      rw [not_le, ← view_sequenceAt history machine] at behind
      rw [inv.length_claims, counted]
      exact inv.protocol.full_of_sequenceAt_lt behind
  | full behind =>
      refine ⟨undecided rfl story.1, ?_⟩
      simp only [EmitTraceEvent.difference] at behind
      exact Since.snoc (story.2.resolve_left (by omega)) (by simp)
  | free => exact undecided rfl story.1
  | behind => exact undecided rfl story.1
  | contend => exact undecided rfl story
  | reject | drop | claim | copy | publish | skipWake | requestFirst | requestAgain | setEvent
  | setEventFailed | clearWake | finish => exact True.intro

theorem releases_snoc (history : List (Label Thread)) (label : Label Thread) :
    releases (history ++ [label]) = releases history + releases [label] := by
  simp [releases]

variable [DecidableEq Thread]

theorem Run.releases (run : (system transport Thread).Run history machine) :
    releases history = released machine := by
  have both : Invariant history machine ∧ Ring.releases history = released machine := by
    refine @System.Run.invariant _ _ _
      (fun history machine => Invariant history machine ∧ Ring.releases history = released machine)
      ?_ ?_ _ _ run
    · intro machine initial
      refine ⟨invariant_of_initial initial, ?_⟩
      obtain ⟨shared, _, reader⟩ := initial
      rw [released, shared, reader]
      rfl
    · rintro history machine label next ⟨inv, counted⟩ taken
      refine ⟨inv.step taken, ?_⟩
      rw [releases_snoc, counted]
      have promised := inv.locals.reader
      cases taken with
      | producer step =>
          simp [Ring.releases, released, producer_dequeuePosition step]
      | reader step =>
          obtain ⟨shared, producers, pc⟩ := machine
          cases step <;> simp_all [Ring.releases, released, releasedBy, ReaderLocal]
  exact both.2

theorem Run.dropStory (run : (system transport Thread).Run history machine) (thread : Thread) :
    DropStory machine.shared.ring thread history (machine.producers thread) := by
  have both : (system transport Thread).Run history machine ∧
      DropStory machine.shared.ring thread history (machine.producers thread) := by
    refine @System.Run.invariant _ _ _
      (fun history machine => (system transport Thread).Run history machine ∧
        DropStory machine.shared.ring thread history (machine.producers thread)) ?_ ?_ _ _ run
    · intro machine initial
      refine ⟨.start initial, ?_⟩
      rw [initial.2.1]
      exact True.intro
    · rintro history machine label next ⟨run, story⟩ taken
      have inv := Run.invariant run
      have numbers := (inv.viewStep taken).sequence_le inv.protocol
      refine ⟨run.snoc taken, ?_⟩
      cases taken with
      | reader => exact story.other numbers (by simp)
      | @producer other label shared pc step =>
          by_cases same : other = thread
          · subst same
            simpa using story.step inv (Run.releases run) step
          · simpa [Function.update_of_ne (Ne.symm same)] using story.other numbers (by simp [same])
  exact both.2

/-- Every drop of a run happens in a call that only looked for a slot, and found none free. -/
theorem drop_story {before after : List (Label Thread)} {thread : Thread} {event : TraceEvent}
    (run : (system transport Thread).Run (before ++ .producer thread (.drop event) :: after)
      machine) :
    UndecidedSinceCall thread before ∧ FullAtLastLoad thread before := by
  obtain ⟨middle, next, run', taken, _⟩ := run.step_at
  have story := Run.dropStory run' thread
  cases taken with
  | producer step =>
      generalize middle.producers thread = pc at step story
      cases step with
      | drop => exact story

end Stories

/-! ## Drops are justified and accounted for -/

section Accounted

variable [Fintype Thread] [DecidableEq Thread] {transport : Transport}
  {history : List (Label Thread)} {machine : Machine Thread}

theorem drops_accounted (run : (system transport Thread).Run history machine) :
    (∀ before thread event after, history = before ++ .producer thread (.drop event) :: after →
      UndecidedSinceCall thread before ∧ FullAtLastLoad thread before) ∧
    (∀ machine thread label next,
      (system transport Thread).step machine (.producer thread label) next →
      (∀ event, label = .call event → next.shared = machine.shared) ∧
      (undecidedLabel label = true → next.shared = { machine.shared with
        ring := { machine.shared.ring with
          eventSequence := next.shared.ring.eventSequence } }) ∧
      ∀ event, label = .drop event → next.shared = { machine.shared with
        ring := { machine.shared.ring with
          droppedEvents := machine.shared.ring.droppedEvents + 1 } }) ∧
    machine.shared.ring.eventSequence.toNat ≡
      machine.shared.ring.enqueuePosition + machine.shared.ring.droppedEvents.toNat +
        threadsIn undecidedCall machine [MOD 2 ^ 32] ∧
    ((accepted history).length < 2 ^ 32 →
      (sequences history).Nodup ∧
      ((∀ thread, machine.producers thread = .idle) →
        machine.shared.ring.dequeuePosition = machine.shared.ring.enqueuePosition →
        ((sequences history).filter fun sequence =>
            sequence ∉ (delivered history).map fun event => event.header.sequence).length =
          machine.shared.ring.droppedEvents.toNat)) := by
  have counters := Run.counters run
  refine ⟨?_, ?_, ?_, fun few => ⟨counters.nodup_sequences few, missing_sequences run few⟩⟩
  · rintro before thread event after rfl
    exact drop_story run
  · intro machine thread label next taken
    cases taken with
    | producer step =>
        generalize machine.producers thread = pc at step
        refine ⟨?_, fun searching => ?_, ?_⟩
        · rintro event rfl
          cases step
          rfl
        · cases step <;> simp_all [undecidedLabel]
        · rintro event rfl
          cases step
          rfl
  · rw [counters.eventSequence, counters.takes, counters.droppedEvents,
      ← (Run.invariant run).length_claims, UInt32.toNat_ofNat', UInt32.toNat_ofNat']
    unfold Nat.ModEq
    omega

theorem drops_accounted_sample : ∃ difference, ∃ reads : List TryReadRing.Label,
    ∃ machine : Machine Bool,
    (system ⟨true, true⟩ Bool).Run (sampleHistory difference ++ reads.map .reader) machine ∧
    machine.shared.ring.droppedEvents = 1 ∧
    (∃ before event, sampleHistory difference = before ++ [.producer true (.drop event)] ∧
      UndecidedSinceCall true before ∧ FullAtLastLoad true before) ∧
    ((sequences (sampleHistory difference ++ reads.map .reader)).filter fun sequence =>
      sequence ∉ (delivered (sampleHistory difference ++ reads.map .reader)).map
        fun event => event.header.sequence).length = 1 := by
  obtain ⟨difference, _, machine, run, idle, reading, one⟩ := sample_run
  obtain ⟨reads, last, path, producers, emptied, dropped⟩ := admits_emptying run idle reading
  rw [one] at dropped
  obtain ⟨justified, _, _, distinct⟩ := drops_accounted (run.extend path)
  have few : (accepted (sampleHistory difference ++ reads.map .reader)).length < 2 ^ 32 := by
    have calls := length_filterMap_sampleHistory Label.accepted? 1 (fun _ _ => rfl) difference
    have none : (reads.map fun label => (.reader label : Label Bool)).filterMap
        Label.accepted? = [] := by
      simp [List.filterMap_map, Function.comp_def, Label.accepted?]
    rw [accepted, List.filterMap_append, none, List.append_nil, calls]
    exact (by decide : 2 + TRACE_RING_CAPACITY * 1 + 1 < 2 ^ 32)
  refine ⟨difference, reads, last, run.extend path, dropped, ?_, ?_⟩
  · obtain ⟨before, isBefore⟩ : ∃ before, sampleHistory difference = before ++
        [.producer true (.drop (EmitTraceEvent.withSequence sampleEvent 4099))] :=
      ⟨_, (List.append_assoc _ (dropCall true sampleEvent 4099 4098 difference).dropLast _).symm⟩
    have drop := justified before true _ (reads.map .reader)
      (by rw [isBefore, List.append_assoc, List.singleton_append])
    exact ⟨before, _, isBefore, drop⟩
  · have missing := (distinct few).2 (fun thread => producers ▸ idle thread) emptied
    rw [missing, dropped]
    rfl

end Accounted

end Ring

end ApiScope
