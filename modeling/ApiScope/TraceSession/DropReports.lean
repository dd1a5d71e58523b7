import ApiScope.TraceSession.Drain

/-!
# What the user is told about dropped events

After each batch the reader looks at the counter of the ring, and prints it if it
has grown since it was last printed.
-/

namespace ApiScope

open Transition

namespace TraceSession

variable {Thread : Type*}

/-! ## Messages -/

/-- The numbers `reportDroppedEvents` prints for the counts it has found, given the last one
it has printed. -/
def printed (reportedDroppedCount : UInt32) : List UInt32 → List UInt32
  | [] => []
  | droppedCount :: counts =>
      if reportedDroppedCount < droppedCount then droppedCount :: printed droppedCount counts
      else printed reportedDroppedCount counts

def Label.found? : Label Thread → Option UInt32
  | .loop (.report droppedCount) => some droppedCount
  | _ => none

/-- The counts the reader has found in the ring. -/
def foundCounts (history : List (Label Thread)) : List UInt32 := history.filterMap Label.found?

/-- `[!] Trace events dropped:` -/
def messages (history : List (Label Thread)) : List UInt32 := printed 0 (foundCounts history)

def lastPrinted (reportedDroppedCount : UInt32) (counts : List UInt32) : UInt32 :=
  (printed reportedDroppedCount counts).getLast?.getD reportedDroppedCount

@[simp]
theorem lastPrinted_nil (reportedDroppedCount : UInt32) :
    lastPrinted reportedDroppedCount [] = reportedDroppedCount := rfl

theorem printed_append (reportedDroppedCount : UInt32) (front back : List UInt32) :
    printed reportedDroppedCount (front ++ back) =
      printed reportedDroppedCount front ++ printed (lastPrinted reportedDroppedCount front) back := by
  induction front generalizing reportedDroppedCount with
  | nil => rfl
  | cons droppedCount front inductionHypothesis =>
      rw [List.cons_append, printed]
      unfold lastPrinted
      rw [printed]
      split_ifs with grown
      · rw [inductionHypothesis, List.cons_append, List.getLast?_cons, Option.getD_some]
        rfl
      · exact inductionHypothesis reportedDroppedCount

theorem lastPrinted_append (reportedDroppedCount : UInt32) (front back : List UInt32) :
    lastPrinted reportedDroppedCount (front ++ back) =
      lastPrinted (lastPrinted reportedDroppedCount front) back := by
  have start : lastPrinted reportedDroppedCount (front ++ back) =
      (printed (lastPrinted reportedDroppedCount front) back).getLast?.getD
        (lastPrinted reportedDroppedCount front) := by
    rw [lastPrinted, printed_append, List.getLast?_append]
    cases (printed (lastPrinted reportedDroppedCount front) back).getLast? <;> rfl
  exact start

theorem lastPrinted_singleton {reportedDroppedCount droppedCount : UInt32}
    (below : reportedDroppedCount ≤ droppedCount) :
    lastPrinted reportedDroppedCount [droppedCount] = droppedCount := by
  unfold lastPrinted printed
  split_ifs with grown
  · rfl
  · exact UInt32.le_antisymm below (UInt32.not_lt.mp grown)

/-- The printed numbers grow, from above the last one on. -/
theorem pairwise_printed (reportedDroppedCount : UInt32) (counts : List UInt32) :
    (reportedDroppedCount :: printed reportedDroppedCount counts).Pairwise (· < ·) := by
  induction counts generalizing reportedDroppedCount with
  | nil => exact List.pairwise_singleton _ _
  | cons droppedCount counts inductionHypothesis =>
      rw [printed]
      split_ifs with grown
      · have later := inductionHypothesis droppedCount
        refine List.pairwise_cons.mpr ⟨?_, later⟩
        rw [List.forall_mem_cons]
        exact ⟨grown, fun count member =>
          UInt32.lt_trans grown (List.rel_of_pairwise_cons later member)⟩
      · exact inductionHypothesis reportedDroppedCount

theorem printed_sublist (reportedDroppedCount : UInt32) (counts : List UInt32) :
    (printed reportedDroppedCount counts).Sublist counts := by
  induction counts generalizing reportedDroppedCount with
  | nil => exact .slnil
  | cons droppedCount counts inductionHypothesis =>
      rw [printed]
      split_ifs
      · exact (inductionHypothesis droppedCount).cons_cons droppedCount
      · exact (inductionHypothesis reportedDroppedCount).cons droppedCount

theorem foundCounts_snoc (history : List (Label Thread)) (label : Label Thread) :
    foundCounts (history ++ [label]) = foundCounts history ++ label.found?.toList :=
  Ring.filterMap_snoc _ history label

/-! ## What a step of the reader does to the last message -/

theorem LoopStep.reported {shared : Shared} {stopEvent : Bool} {loops loops' : Loops}
    {label : LoopLabel} (taken : LoopStep shared stopEvent loops label loops') :
    loops'.reportedDroppedCount =
      lastPrinted loops.reportedDroppedCount (Label.found? (.loop label : Label Thread)).toList := by
  cases taken with
  | report =>
      simp only [Label.found?, Option.toList_some, lastPrinted, printed]
      split_ifs <;> rfl
  | _ => rfl

/-- A report finds what the counter holds. -/
theorem LoopStep.found {shared : Shared} {stopEvent : Bool} {loops loops' : Loops}
    {droppedCount : UInt32} (taken : LoopStep shared stopEvent loops (.report droppedCount) loops') :
    droppedCount = shared.ring.droppedEvents := by
  cases taken
  rfl

section Runs

variable [DecidableEq Thread] {transport : Transport} {history : List (Label Thread)}
  {machine : Machine Thread}

theorem Run.lastPrinted (run : (system transport Thread).Run history machine) :
    machine.loops.reportedDroppedCount = lastPrinted 0 (foundCounts history) := by
  refine @System.Run.invariant _ _ _ (fun history machine =>
    machine.loops.reportedDroppedCount = TraceSession.lastPrinted 0 (foundCounts history))
    ?_ ?_ _ _ run
  · rintro machine ⟨_, loops, _⟩
    rw [loops]
    rfl
  · intro history machine label next last taken
    rw [foundCounts_snoc]
    cases taken with
    | producer | reader | exit | stop => simpa [Label.found?] using last
    | loop step =>
        rw [@LoopStep.reported Thread _ _ _ _ _ step, last, lastPrinted_append]

theorem Run.last_message (run : (system transport Thread).Run history machine) :
    (messages history).getLast?.getD 0 = machine.loops.reportedDroppedCount :=
  (Run.lastPrinted run).symm

/-- A number that is printed is the count at that time. -/
theorem Run.message_count (run : (system transport Thread).Run history machine) {count : UInt32}
    (member : count ∈ messages history) : ∃ before after,
      history = before ++ .loop (.report count) :: after ∧
      count = .ofNat (Ring.drops (ringHistory before)).length := by
  obtain ⟨label, inside, found⟩ :=
    List.mem_filterMap.mp ((printed_sublist 0 (foundCounts history)).subset member)
  have isReport : label = .loop (.report count) := by
    unfold Label.found? at found
    split at found
    · cases found
      rfl
    · cases found
  obtain ⟨before, after, rfl⟩ := List.append_of_mem inside
  subst isReport
  refine ⟨before, after, rfl, ?_⟩
  obtain ⟨middle, next, run', taken, _⟩ := run.step_at
  rw [← (Ring.Run.fates (Run.ring run')).2]
  cases taken with
  | loop step => exact step.found

/-- The numbers that are printed grow, the last one is the one the session remembers, and each
is the number of events that had been dropped when it was printed, in 32 bits. -/
theorem drops_reported (run : (system transport Thread).Run history machine) :
    (messages history).Pairwise (· < ·) ∧
    (messages history).getLast?.getD 0 = machine.loops.reportedDroppedCount ∧
    ∀ count ∈ messages history, ∃ before after,
      history = before ++ .loop (.report count) :: after ∧
      count = .ofNat (Ring.drops (ringHistory before)).length :=
  ⟨(pairwise_printed 0 (foundCounts history)).of_cons, Run.last_message run,
    fun _ => Run.message_count run⟩

/-- As long as the counter has not overflowed, the session remembers no more drops than there
were. -/
theorem Run.reported_le (run : (system transport Thread).Run history machine)
    (fits : (Ring.drops (ringHistory history)).length < 2 ^ 32) :
    machine.loops.reportedDroppedCount.toNat ≤ (Ring.drops (ringHistory history)).length := by
  rw [← Run.last_message run]
  cases final : (messages history).getLast? with
  | none => exact Nat.zero_le _
  | some count =>
      obtain ⟨before, after, split, same⟩ := Run.message_count run (List.mem_of_getLast? final)
      have earlier : (Ring.drops (ringHistory before)).length ≤
          (Ring.drops (ringHistory history)).length := by
        rw [split]
        exact (((List.sublist_append_left ..).filterMap _).filterMap _).length_le
      rw [Option.getD_some, same, UInt32.toNat_ofNat', Nat.mod_eq_of_lt (earlier.trans_lt fits)]
      exact earlier

end Runs

/-! ## After the exit -/

/-- Told to stop, and past the last report. -/
def ReaderLoop.Pc.leaving : ReaderLoop.Pc → Bool
  | clearWake stopping | recheck stopping => stopping
  | finish | notifyAll | done => true
  | _ => false

theorem ReaderLoop.Pc.not_leaving_of_running {pc : ReaderLoop.Pc} (running : pc.stopping = false) :
    pc.leaving = false := by
  cases pc <;> first | rfl | exact running

theorem ReaderLoop.OnRing.leaving {pc pc' : ReaderLoop.Pc} {label : TryReadRing.Label}
    (onRing : ReaderLoop.OnRing pc label pc') (leaves : pc'.leaving = true) :
    pc.leaving = true := by
  cases onRing with
  | deliver call =>
      cases pc with
      | batch | recheck => cases leaves
      | _ => cases call
  | miss call =>
      cases pc with
      | batch => cases leaves
      | recheck stopping =>
          cases stopping with
          | true => rfl
          | false => cases leaves
      | _ => cases call
  | consumeWake => cases leaves
  | loadPosition | hit | copy | release | clearWake => exact leaves

/-- Only a report lets the reader leave. -/
theorem LoopStep.leaving {shared : Shared} {stopEvent : Bool} {loops loops' : Loops}
    {label : LoopLabel} (taken : LoopStep shared stopEvent loops label loops')
    (noFailure : label ≠ .waitFailed) (leaves : loops'.reader.leaving = true) :
    loops.reader.leaving = true ∨ label = .report shared.ring.droppedEvents := by
  cases taken with
  | waitFailed => exact absurd rfl noFailure
  | report => exact .inr rfl
  | finish at_ | notifyAll at_ =>
      rw [at_]
      exact .inl rfl
  | notifyNotFull =>
      revert leaves
      dsimp only
      cases loops.reader <;> exact .inl
  | endBatch | malformed | accept | sleepNotFull | wakeNotFull | push | notifyNotEmpty
  | waitStop => cases leaves
  | sleepNotEmpty | wakeNotEmpty | pop | leave | render => exact .inl leaves

/-- The counter stands still, and the reader does not leave before it has told. -/
structure Telling (total : UInt32) (machine : Machine Thread) : Prop where
  exited : machine.exited = true
  still : machine.ring.shared.ring.droppedEvents = total
  below : machine.loops.reportedDroppedCount ≤ total
  told : machine.loops.reader.leaving = true → machine.loops.reportedDroppedCount = total

section Runs

variable [DecidableEq Thread] {transport : Transport} {history : List (Label Thread)}
  {machine : Machine Thread} {total : UInt32}

theorem Telling.step {label : Label Thread} {next : Machine Thread}
    (telling : Telling total machine) (taken : (system transport Thread).step machine label next)
    (noFailure : label ≠ .loop .waitFailed) : Telling total next := by
  obtain ⟨exited, still, below, told⟩ := telling
  cases taken with
  | producer running => simp [exited] at running
  | exit running => simp [exited] at running
  | stop => exact ⟨exited, still, below, told⟩
  | reader onRing step =>
      refine ⟨exited, ?_, below, fun leaves => told (onRing.leaving leaves)⟩
      cases step with
      | reader step => exact (Ring.reader_counters step).2.trans still
  | @loop label loops step =>
      have remembered := @LoopStep.reported Thread _ _ _ _ _ step
      cases label with
      | report droppedCount =>
          have found : droppedCount = total := step.found.trans still
          have all : loops.reportedDroppedCount = total :=
            remembered.trans (found ▸ lastPrinted_singleton (found ▸ below))
          exact ⟨exited, still, UInt32.le_of_eq all, fun _ => all⟩
      | _ =>
          refine ⟨exited, still, remembered ▸ below, fun leaves => ?_⟩
          rcases step.leaving (fun failed => noFailure (congrArg Label.loop failed)) leaves
            with before | isReport
          · exact remembered.trans (told before)
          · cases isReport

theorem Telling.path {after : List (Label Thread)} {final : Machine Thread}
    (path : (system transport Thread).Path machine after final)
    (waits : .loop .waitFailed ∉ after) (telling : Telling total machine) : Telling total final := by
  induction path with
  | refl => exact telling
  | @snoc middle last labels label _ taken inductionHypothesis =>
      simp only [List.mem_append, List.mem_singleton, not_or] at waits
      exact (inductionHypothesis waits.1).step taken (Ne.symm waits.2)

/-- After a natural exit the last message is the total: with fewer than 2^32 drops, the reader
does not leave before it has told about all of them. -/
theorem exit_reports_total {before after : List (Label Thread)} {middle final : Machine Thread}
    (run : (system transport Thread).Run before middle)
    (path : (system transport Thread).Path middle (.exit :: after) final)
    (natural : .stop ∉ before) (waits : .loop .waitFailed ∉ before ++ after)
    (readerJoined : final.loops.reader = .done)
    (fits : (Ring.drops (ringHistory (before ++ .exit :: after))).length < 2 ^ 32) :
    ((messages (before ++ .exit :: after)).getLast?.getD 0).toNat =
      (Ring.drops (ringHistory (before ++ .exit :: after))).length := by
  have whole := run.extend path
  have counted := (Ring.Run.fates (Run.ring whole)).2
  obtain ⟨noFailureBefore, noFailureAfter⟩ := not_or.mp (List.mem_append.not.mp waits)
  have few : (Ring.drops (ringHistory before)).length < 2 ^ 32 :=
    ((((List.sublist_append_left ..).filterMap _).filterMap _).length_le).trans_lt fits
  have dropped := (Ring.Run.fates (Run.ring run)).2
  rw [← List.singleton_append] at path
  obtain ⟨exited, single, rest⟩ := path.split
  obtain rfl := exit_step single.step_of_singleton
  have start : Telling middle.ring.shared.ring.droppedEvents { middle with exited := true } := by
    refine ⟨rfl, rfl, ?_, fun leaves => ?_⟩
    · have remembered := Run.reported_le run few
      rwa [← Nat.mod_eq_of_lt few, ← UInt32.toNat_ofNat', ← dropped,
        ← UInt32.le_iff_toNat_le] at remembered
    · have running := (Run.running run natural noFailureBefore).2
      simp [ReaderLoop.Pc.not_leaving_of_running running] at leaves
  obtain ⟨_, still, _, told⟩ := start.path rest noFailureAfter
  rw [Run.last_message whole, told (by rw [readerJoined]; rfl), ← still, counted,
    UInt32.toNat_ofNat', Nat.mod_eq_of_lt fits]

end Runs

/-! ## Two messages -/

/-- One thread has stopped copying at position 0.  The other one fills the ring behind it, and
two of its calls find it full; the reader looks in between. -/
def crowdedBefore (first second : Int) : List (Label Bool) :=
  killedBefore ++ ((Ring.fillCalls true Ring.sampleEvent [.requestWake] 4094 3 2).map .ring ++
    ((Ring.dropCall true Ring.sampleEvent 4097 4096 first).map .ring ++
      (emptyRound 1 ++ (Ring.dropCall true Ring.sampleEvent 4098 4096 second).map .ring)))

def crowdedAfter : List (Label Bool) := .stop :: (closing 2 ++ renders [])

theorem filterMap_ring (labels : List (Ring.Label Thread)) :
    (labels.map Label.ring).filterMap Label.ring? = labels := by
  simp [List.filterMap_map, Function.comp_def, Label.ring?]

theorem filterMap_found_ring (labels : List (Ring.Label Thread)) :
    (labels.map Label.ring).filterMap Label.found? = [] := by
  simp [List.filterMap_map, Function.comp_def, Label.found?]

namespace Killed

variable {history : List (Label Bool)} {loops : Loops} {enqueuePosition : Nat}
  {eventSequence droppedEvents : UInt32} {machine : Machine Bool}

/-- Whole calls of the other thread only move the counters. -/
theorem called {stored dropped : Nat} {ring : Ring.Machine Bool}
    (killed : Killed loops enqueuePosition eventSequence droppedEvents machine)
    (called : Ring.Called machine.ring ring stored dropped) :
    Killed loops (enqueuePosition + stored) (eventSequence + .ofNat (stored + dropped))
      (droppedEvents + .ofNat dropped) { machine with ring := ring } where
  loops := killed.loops
  reading := called.reader.trans killed.reading
  between := by
    rw [called.producers, killed.between, called.shared.dequeuePosition]
  idle := (congrFun called.producers true).trans killed.idle
  enqueuePosition := by rw [called.shared.enqueuePosition, killed.enqueuePosition]
  dequeuePosition := by rw [called.shared.dequeuePosition, killed.dequeuePosition]
  eventSequence := by rw [called.shared.eventSequence, killed.eventSequence]
  droppedEvents := by rw [called.shared.droppedEvents, killed.droppedEvents]
  wakeEvent := called.shared.wakeEvent.trans killed.wakeEvent
  checks := called.shared.checks _ killed.checks
  exited := killed.exited

/-- As long as there is room, the other thread stores. -/
theorem fill {count : Nat} (run : (system ⟨true, true⟩ Bool).Run history machine)
    (killed : Killed loops enqueuePosition eventSequence droppedEvents machine)
    (pending : machine.ring.shared.ring.wakePending ≠ 0)
    (room : enqueuePosition + count ≤ TRACE_RING_CAPACITY) :
    ∃ next, (system ⟨true, true⟩ Bool).Run (history ++ (Ring.fillCalls true Ring.sampleEvent
        [.requestWake] count (eventSequence + 1) enqueuePosition).map .ring) next ∧
      Killed loops (enqueuePosition + count) (eventSequence + .ofNat count) droppedEvents next := by
  have behind : machine.ring.shared.ring.enqueuePosition + count ≤
      machine.ring.shared.ring.dequeuePosition + TRACE_RING_CAPACITY := by
    rw [killed.enqueuePosition, killed.dequeuePosition, Nat.zero_add]
    exact room
  obtain ⟨ring, filling, filled⟩ := Ring.admits_fill (Run.ring run) killed.idle killed.reading
    behind killed.checks (.again rfl pending)
  rw [killed.eventSequence, killed.enqueuePosition] at filling
  have next := killed.called filled
  rw [show UInt32.ofNat 0 = 0 from rfl, UInt32.add_zero] at next
  exact ⟨_, run.extend (path_solo killed.exited (Ring.solo_fillCalls _ _ _ _ _ _) filling), next⟩

/-- Behind a full lap it drops. -/
theorem drop (run : (system ⟨true, true⟩ Bool).Run history machine)
    (killed : Killed loops TRACE_RING_CAPACITY eventSequence droppedEvents machine) :
    ∃ difference next, (system ⟨true, true⟩ Bool).Run (history ++ (Ring.dropCall true
        Ring.sampleEvent (eventSequence + 1) TRACE_RING_CAPACITY difference).map .ring) next ∧
      Killed loops TRACE_RING_CAPACITY (eventSequence + 1) (droppedEvents + 1) next := by
  have full : machine.ring.shared.ring.enqueuePosition =
      machine.ring.shared.ring.dequeuePosition + TRACE_RING_CAPACITY := by
    rw [killed.enqueuePosition, killed.dequeuePosition, Nat.zero_add]
  obtain ⟨difference, _, ring, dropping, dropped⟩ := Ring.admits_drop (Run.ring run) killed.idle
    killed.reading full killed.checks
  rw [killed.eventSequence, killed.enqueuePosition] at dropping
  exact ⟨difference, _, run.extend (path_solo killed.exited (Ring.solo_map _ _) dropping),
    killed.called dropped⟩

/-- The reader finds nothing at the head, and tells how many events have been dropped. -/
theorem round (run : (system ⟨true, true⟩ Bool).Run history machine)
    (killed : Killed loops enqueuePosition eventSequence droppedEvents machine)
    (batch : loops.reader = .batch 0 false)
    (below : loops.reportedDroppedCount ≤ droppedEvents) :
    ∃ next, (system ⟨true, true⟩ Bool).Run (history ++ emptyRound droppedEvents) next ∧
      Killed { loops with reader := .wait, reportedDroppedCount := droppedEvents } enqueuePosition
        eventSequence droppedEvents next := by
  obtain ⟨next, telling, rfl⟩ : (system ⟨true, true⟩ Bool).Admits machine
      (emptyRound droppedEvents ++ []) (· = _) :=
    admits_emptyRound (killed.loops ▸ batch) killed.reading
      (unpublished_of_copying run killed.between) killed.droppedEvents (killed.loops ▸ below)
      (.nil rfl)
  rw [List.append_nil] at telling
  exact ⟨_, run.extend telling, ⟨by rw [killed.loops]; rfl, killed.reading, killed.between,
    killed.idle, killed.enqueuePosition, killed.dequeuePosition, killed.eventSequence,
    killed.droppedEvents, killed.wakeEvent, killed.checks, killed.exited⟩⟩

end Killed

theorem crowded_run : ∃ first second, ∃ final,
    (system ⟨true, true⟩ Bool).Run (crowdedBefore first second ++ .exit :: crowdedAfter) final ∧
    final.loops.reader = .done := by
  obtain ⟨_, run, killed, pending⟩ := killed_before
  obtain ⟨_, runFull, full⟩ := killed.fill run pending (by decide : 2 + 4094 ≤ TRACE_RING_CAPACITY)
  obtain ⟨first, _, runOnce, once⟩ := full.drop runFull
  obtain ⟨_, runTold, told⟩ := once.round runOnce rfl (by decide)
  obtain ⟨second, last, runTwice, twice⟩ := told.drop runTold
  have unpublished := unpublished_of_copying runTwice twice.between
  obtain ⟨final, ending, joined⟩ : (system ⟨true, true⟩ Bool).Admits last (.exit :: crowdedAfter)
      fun final => final.loops.reader = .done := by
    refine .cons (.exit twice.exited) (.cons .stop ?_)
    refine admits_closing (congrArg Loops.reader twice.loops) twice.reading unpublished
      twice.droppedEvents (twice.loops ▸ (by decide : (1 : UInt32) ≤ 2)) twice.wakeEvent rfl ?_
    rw [twice.loops]
    refine (admits_renders []).mono ?_
    rintro final rfl
    rfl
  refine ⟨first, second, final, ?_, joined⟩
  have whole := runTwice.extend ending
  simp only [List.append_assoc] at whole
  rw [crowdedBefore, List.append_assoc, List.append_assoc, List.append_assoc, List.append_assoc]
  exact whole

theorem drops_reported_crowded : ∃ first second, ∃ final,
    (system ⟨true, true⟩ Bool).Run (crowdedBefore first second ++ .exit :: crowdedAfter) final ∧
    messages (crowdedBefore first second ++ .exit :: crowdedAfter) = [1, 2] ∧
    ∀ count ∈ messages (crowdedBefore first second ++ .exit :: crowdedAfter), ∃ before after,
      crowdedBefore first second ++ .exit :: crowdedAfter =
        before ++ .loop (.report count) :: after ∧
      count = .ofNat (Ring.drops (ringHistory before)).length := by
  obtain ⟨first, second, final, run, _⟩ := crowded_run
  refine ⟨first, second, final, run, ?_, (drops_reported run).2.2⟩
  have found : foundCounts (crowdedBefore first second ++ .exit :: crowdedAfter) = [1, 2, 2] := by
    simp only [foundCounts, crowdedBefore, List.filterMap_append, filterMap_found_ring]
    rfl
  rw [messages, found]
  decide

theorem exit_reports_total_crowded : ∃ first second,
    ((messages (crowdedBefore first second ++ .exit :: crowdedAfter)).getLast?.getD 0).toNat =
      (Ring.drops (ringHistory (crowdedBefore first second ++ .exit :: crowdedAfter))).length ∧
    (Ring.drops (ringHistory (crowdedBefore first second ++ .exit :: crowdedAfter))).length = 2 := by
  obtain ⟨first, second, final, run, reader⟩ := crowded_run
  have drops : (Ring.drops
      (ringHistory (crowdedBefore first second ++ .exit :: crowdedAfter))).length = 2 := by
    have filling := Ring.length_filterMap_fillCalls (fun sequence position =>
      (rfl : ((Ring.storeCall true Ring.sampleEvent [.requestWake] sequence position).filterMap
        Ring.Label.drop?).length = 0)) 4094 3 2
    simp only [Ring.drops, ringHistory, crowdedBefore, List.filterMap_append, filterMap_ring,
      List.length_append, filling]
    rfl
  obtain ⟨middle, before, path⟩ := run.split
  have few : (Ring.drops (ringHistory
      (crowdedBefore first second ++ .exit :: crowdedAfter))).length < 2 ^ 32 :=
    drops.trans_lt (by decide)
  refine ⟨first, second, exit_reports_total before path ?_ ?_ reader few, drops⟩
  · simp [crowdedBefore, killedBefore, emptyRound]
  · simp [crowdedBefore, killedBefore, emptyRound, crowdedAfter, closing, renders]

end TraceSession

end ApiScope
