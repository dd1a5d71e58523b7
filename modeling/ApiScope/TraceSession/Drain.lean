import ApiScope.Ring.Ledger
import ApiScope.Trace.Language
import ApiScope.TraceSession.Endings

/-!
# What is rendered once the target has exited

Everything the reader takes from the ring is rendered if it is well formed.  The
reader stops at the first position that is not published, so what it takes after
the exit depends on which producers the exit has stopped between their claim and
their publication.
-/

namespace ApiScope

open Transition TraceLanguage

/-- `IsValidTraceEvent(event, event.header.size)` -/
def WellFormed (event : TraceEvent) : Bool :=
  TraceRenderer.IsValidTraceEvent event event.header.size.toNat

theorem wellFormed_iff {event : TraceEvent} :
    WellFormed event = true ↔ ∃ moduleName apiName fields, Encodes event moduleName apiName fields := by
  constructor
  · intro accepted
    obtain ⟨parsed, accepted⟩ := Option.isSome_iff_exists.mp accepted
    exact ⟨_, _, _, (parseTraceEvent_sound accepted).2⟩
  · rintro ⟨moduleName, apiName, fields, encodes⟩
    rw [WellFormed, TraceRenderer.IsValidTraceEvent, parseTraceEvent_complete encodes]
    rfl

/-- What an event encodes depends on its header and the bytes up to its size. -/
theorem Encodes_congr {event other : TraceEvent} (header : event.header = other.header)
    (payload : event.payload.take (event.header.size.toNat - sizeofTraceEventHeader) =
      other.payload.take (event.header.size.toNat - sizeofTraceEventHeader))
    {moduleName apiName : List UInt8} {fields : List Field}
    (encodes : Encodes event moduleName apiName fields) :
    Encodes other moduleName apiName fields := by
  obtain ⟨magic, version, validModule, moduleLength, validApi, apiLength, counted, valid, distinct,
    size, fits, contents⟩ := encodes
  rw [payload] at contents
  rw [header] at magic version moduleLength apiLength counted size fits contents
  exact ⟨magic, version, validModule, moduleLength, validApi, apiLength, counted, valid, distinct,
    size, fits, contents⟩

theorem Ring.SameMessage.payload_eq {event claimed : TraceEvent}
    (same : Ring.SameMessage event claimed) (sized : Ring.Sized claimed) :
    event.payload.take (event.header.size.toNat - sizeofTraceEventHeader) =
      claimed.payload.take (event.header.size.toNat - sizeofTraceEventHeader) := by
  have header := same.header_eq sized
  have agree := same.2
  have enough := sized.1
  rw [← header] at agree enough
  rw [TraceEvent.bytes, TraceEvent.bytes, header, List.take_append, List.take_append] at agree
  have behind := List.append_cancel_left agree
  simpa [header] using behind

theorem wellFormed_congr {event claimed : TraceEvent} (same : Ring.SameMessage event claimed)
    (sized : Ring.Sized claimed) : WellFormed event = WellFormed claimed := by
  have header := same.header_eq sized
  have payload := same.payload_eq sized
  rw [Bool.eq_iff_iff, wellFormed_iff, wellFormed_iff]
  constructor
  · rintro ⟨moduleName, apiName, fields, encodes⟩
    exact ⟨moduleName, apiName, fields, Encodes_congr header payload encodes⟩
  · rintro ⟨moduleName, apiName, fields, encodes⟩
    exact ⟨moduleName, apiName, fields,
      Encodes_congr header.symm (header ▸ payload.symm) encodes⟩

namespace TraceSession

variable {Thread : Type*}

/-! ## From the ring to the renderer -/

/-- The well-formed event the reader has taken but not queued yet. -/
def ReaderLoop.Pc.holding : ReaderLoop.Pc → List TraceEvent
  | validate event _ _ => [event].filter WellFormed
  | push event _ _ _ => [event]
  | _ => []

/-- The event the writer has taken from the queue but not rendered yet. -/
def WriterLoop.Pc.holding : WriterLoop.Pc → List TraceEvent
  | notify event | render event => [event]
  | _ => []

/-- Behind its loop. -/
def ReaderLoop.Pc.ended : ReaderLoop.Pc → Bool
  | finish | notifyAll | done => true
  | _ => false

/-- The well-formed events between the ring and the renderer, oldest first. -/
def Loops.inFlight (loops : Loops) : List TraceEvent :=
  loops.writer.holding ++ loops.eventQueue ++ loops.reader.holding

/-- How the two loops come to an end. -/
structure Loops.Closing (loops : Loops) : Prop where
  finished : loops.readerFinished = true → loops.reader = .notifyAll ∨ loops.reader = .done
  left : loops.writer = .done → loops.eventQueue = [] ∧ loops.readerFinished = true

def LoopLabel.rendered? : LoopLabel → Option TraceEvent
  | .render event => some event
  | _ => none

/-- A step of the loops renders the oldest event or moves one along. -/
theorem LoopStep.inFlight {shared : Shared} {stopEvent : Bool} {loops loops' : Loops}
    {label : LoopLabel} (taken : LoopStep shared stopEvent loops label loops') :
    loops.inFlight = label.rendered?.toList ++ loops'.inFlight := by
  obtain ⟨reader, writer, eventQueue, readerFinished, reportedDroppedCount⟩ := loops
  have sameReader : reader.notified.holding = reader.holding := by cases reader <;> rfl
  have sameWriter : writer.notified.holding = writer.holding := by cases writer <;> rfl
  cases taken with
  | malformed at_ malformed =>
      dsimp only at at_
      subst at_
      simp [Loops.inFlight, LoopLabel.rendered?, ReaderLoop.Pc.holding, WellFormed, malformed]
  | accept at_ valid =>
      dsimp only at at_
      subst at_
      simp [Loops.inFlight, LoopLabel.rendered?, ReaderLoop.Pc.holding, WellFormed, valid]
  | report at_ =>
      dsimp only at at_
      subst at_
      dsimp only [Loops.inFlight, LoopLabel.rendered?]
      split_ifs <;> simp [ReaderLoop.Pc.holding]
  | notifyNotEmpty at_ | notifyAll at_ =>
      dsimp only at at_
      subst at_
      simp [Loops.inFlight, LoopLabel.rendered?, ReaderLoop.Pc.holding, sameWriter]
  | notifyNotFull at_ =>
      dsimp only at at_
      subst at_
      simp [Loops.inFlight, LoopLabel.rendered?, WriterLoop.Pc.holding, sameReader]
  | endBatch at_ | sleepNotFull at_ | wakeNotFull at_ | push at_ | waitStop at_ | waitFailed at_
  | finish at_ | sleepNotEmpty at_ | wakeNotEmpty at_ | leave at_ | render at_ =>
      dsimp only at at_
      subst at_
      simp [Loops.inFlight, LoopLabel.rendered?, ReaderLoop.Pc.holding, WriterLoop.Pc.holding]
  | pop at_ queued =>
      dsimp only at at_ queued
      subst at_ queued
      simp [Loops.inFlight, LoopLabel.rendered?, WriterLoop.Pc.holding]

theorem LoopStep.closing {shared : Shared} {stopEvent : Bool} {loops loops' : Loops}
    {label : LoopLabel} (taken : LoopStep shared stopEvent loops label loops')
    (closing : loops.Closing) : loops'.Closing := by
  obtain ⟨reader, writer, eventQueue, readerFinished, reportedDroppedCount⟩ := loops
  obtain ⟨finished, left⟩ := closing
  have writerDone : writer.notified = .done ↔ writer = .done := by
    cases writer <;> simp [WriterLoop.Pc.notified]
  have readerDone : (reader.notified = .notifyAll ↔ reader = .notifyAll) ∧
      (reader.notified = .done ↔ reader = .done) := by
    cases reader <;> simp [ReaderLoop.Pc.notified]
  cases taken <;> constructor <;> simp_all

/-- The reader holds no event while it reads the ring. -/
theorem ReaderLoop.OnRing.holding {pc pc' : ReaderLoop.Pc} {label : TryReadRing.Label}
    (onRing : ReaderLoop.OnRing pc label pc') : pc.holding = [] := by
  cases onRing with
  | clearWake | consumeWake => rfl
  | _ call => cases pc <;> first | rfl | cases call

/-- It takes what `TryReadRing` delivers. -/
theorem ReaderLoop.OnRing.takes {pc pc' : ReaderLoop.Pc} {label : TryReadRing.Label}
    {thread : Type*} (onRing : ReaderLoop.OnRing pc label pc') :
    pc'.holding =
      (Ring.Label.delivered? (.reader label : Ring.Label thread)).toList.filter WellFormed := by
  have nothing := onRing.holding
  cases onRing with
  | clearWake | consumeWake => rfl
  | deliver call =>
      cases pc with
      | batch | recheck => rfl
      | _ => cases call
  | miss call =>
      cases pc with
      | batch => rfl
      | recheck stopping => cases stopping <;> rfl
      | _ => cases call
  | loadPosition | hit | copy | release => simpa [Ring.Label.delivered?] using nothing

/-- No step of the reader on the ring ends the loop's bookkeeping. -/
theorem ReaderLoop.OnRing.running {pc pc' : ReaderLoop.Pc} {label : TryReadRing.Label}
    (onRing : ReaderLoop.OnRing pc label pc') : pc ≠ .notifyAll ∧ pc ≠ .done := by
  cases onRing with
  | clearWake | consumeWake => simp
  | _ call => constructor <;> rintro rfl <;> cases call

/-- No well-formed event is lost, repeated or overtaken on its way to the renderer. -/
structure QueueInvariant (history : List (Label Thread)) (machine : Machine Thread) : Prop where
  conserved : (Ring.delivered (ringHistory history)).filter WellFormed =
    rendered history ++ machine.loops.inFlight
  closing : machine.loops.Closing

section Runs

variable [DecidableEq Thread] {transport : Transport} {history : List (Label Thread)}
  {machine next : Machine Thread} {label : Label Thread}

theorem QueueInvariant.step (inv : QueueInvariant history machine)
    (taken : (system transport Thread).step machine label next) :
    QueueInvariant (history ++ [label]) next := by
  obtain ⟨conserved, closing⟩ := inv
  cases taken with
  | producer => 
      refine ⟨?_, closing⟩
      rw [ringHistory_snoc, rendered_snoc]
      simpa [Label.ring?, Label.rendered?, Ring.delivered_snoc, Ring.Label.delivered?]
        using conserved
  | @reader label _ pc onRing =>
      refine ⟨?_, fun finished => ?_, closing.left⟩
      · rw [ringHistory_snoc, rendered_snoc]
        have before := onRing.holding
        have after : pc.holding = _ := @ReaderLoop.OnRing.takes _ _ _ Thread onRing
        simp only [Loops.inFlight, before, List.append_nil] at conserved
        simp only [Label.ring?, Option.toList_some, Ring.delivered_snoc, List.filter_append,
          conserved, ← after, Label.rendered?, Option.toList_none, Loops.inFlight,
          List.append_nil, List.append_assoc]
      · obtain ⟨notNotify, notDone⟩ := onRing.running
        rcases closing.finished finished with at_ | at_
        · exact absurd at_ notNotify
        · exact absurd at_ notDone
  | @loop label _ step =>
      refine ⟨?_, step.closing closing⟩
      have moved := step.inFlight
      have same : (Label.loop label : Label Thread).rendered? = label.rendered? := by
        cases label <;> rfl
      rw [ringHistory_snoc, rendered_snoc, same, List.append_assoc, ← moved, ← conserved]
      simp [Label.ring?]
  | exit | stop =>
      refine ⟨?_, closing⟩
      rw [ringHistory_snoc, rendered_snoc]
      simpa [Label.ring?, Label.rendered?] using conserved

theorem Run.queueInvariant (run : (system transport Thread).Run history machine) :
    QueueInvariant history machine := by
  refine System.Run.invariant ?_ (fun _ _ _ _ => QueueInvariant.step) run
  rintro machine ⟨_, loops, _⟩
  refine ⟨?_, ?_⟩
  · simp [loops, Loops.inFlight, WriterLoop.Pc.holding, ReaderLoop.Pc.holding, Ring.delivered,
      ringHistory, rendered]
  · constructor <;> simp [loops]

end Runs

/-! ## Before the stop event is set -/

/-- Told to stop, or behind the loop. -/
def ReaderLoop.Pc.stopping : ReaderLoop.Pc → Bool
  | batch _ stopping | validate _ _ stopping | push _ _ stopping _ | notify _ stopping
  | report _ stopping | clearWake stopping | recheck stopping => stopping
  | wait => false
  | finish | notifyAll | done => true

theorem ReaderLoop.OnRing.stopping {pc pc' : ReaderLoop.Pc} {label : TryReadRing.Label}
    (onRing : ReaderLoop.OnRing pc label pc') (running : pc.stopping = false) :
    pc'.stopping = false := by
  cases onRing with
  | deliver call =>
      cases pc with
      | batch | recheck => exact running
      | _ => cases call
  | miss call =>
      cases pc with
      | batch => exact running
      | recheck stopping =>
          cases stopping with
          | true => cases running
          | false => rfl
      | _ => cases call
  | consumeWake => rfl
  | loadPosition | hit | copy | release | clearWake => exact running

theorem LoopStep.stopping {shared : Shared} {loops loops' : Loops} {label : LoopLabel}
    (taken : LoopStep shared false loops label loops') (noFailure : label ≠ .waitFailed)
    (running : loops.reader.stopping = false) : loops'.reader.stopping = false := by
  cases taken with
  | waitFailed => exact absurd rfl noFailure
  | waitStop _ _ set => cases set
  | report at_ =>
      rw [at_] at running
      dsimp only
      split_ifs <;> exact running
  | finish at_ | notifyAll at_ =>
      rw [at_] at running
      cases running
  | notifyNotFull =>
      revert running
      dsimp only
      cases loops.reader <;> exact id
  | endBatch at_ | malformed at_ | accept at_ | sleepNotFull at_ | wakeNotFull at_ | push at_
  | notifyNotEmpty at_ =>
      rw [at_] at running
      exact running
  | sleepNotEmpty | wakeNotEmpty | pop | leave | render => exact running

section Runs

variable [DecidableEq Thread] {transport : Transport} {history : List (Label Thread)}
  {machine next : Machine Thread} {label : Label Thread}

/-- The reader goes on until it is told to stop. -/
theorem Run.running (run : (system transport Thread).Run history machine)
    (noStop : .stop ∉ history) (noFailure : .loop .waitFailed ∉ history) :
    machine.stopEvent = false ∧ machine.loops.reader.stopping = false := by
  have inv := @System.Run.invariant _ _ _
    (fun history machine => .stop ∉ history → .loop .waitFailed ∉ history →
      machine.stopEvent = false ∧ machine.loops.reader.stopping = false) ?_ ?_ _ _ run
  · exact inv noStop noFailure
  · rintro machine ⟨_, loops, stopEvent, _⟩ _ _
    exact ⟨stopEvent, by rw [loops]; rfl⟩
  · intro history machine label next held taken noStop noFailure
    simp only [List.mem_append, List.mem_singleton, not_or] at noStop noFailure
    obtain ⟨unset, running⟩ := held noStop.1 noFailure.1
    cases taken with
    | producer | exit => exact ⟨unset, running⟩
    | reader onRing => exact ⟨unset, onRing.stopping running⟩
    | loop step =>
        rw [unset] at step
        exact ⟨unset, step.stopping (fun failed => noFailure.2 (by rw [failed])) running⟩
    | stop => exact absurd rfl noStop.2

end Runs

/-! ## After the exit -/

/-- Behind its loop. -/
theorem LoopStep.ended {shared : Shared} {stopEvent : Bool} {loops loops' : Loops}
    {label : LoopLabel} (taken : LoopStep shared stopEvent loops label loops')
    (noFailure : label ≠ .waitFailed) (ends : loops'.reader.ended = true) :
    loops.reader.ended = true := by
  cases taken with
  | waitFailed => exact absurd rfl noFailure
  | report =>
      dsimp only at ends
      split_ifs at ends <;> cases ends
  | finish at_ | notifyAll at_ =>
      rw [at_]
      rfl
  | notifyNotFull =>
      revert ends
      dsimp only
      cases loops.reader <;> exact id
  | endBatch | malformed | accept | sleepNotFull | wakeNotFull | push | notifyNotEmpty
  | waitStop => cases ends
  | sleepNotEmpty | wakeNotEmpty | pop | leave | render => exact ends

theorem ReaderLoop.Pc.not_ended_of_reads {pc : ReaderLoop.Pc} (call : pc.reads = true) :
    pc.ended = false ∧ ∀ event, (pc.read event).ended = false := by
  cases pc with
  | batch | recheck => exact ⟨rfl, fun _ => rfl⟩
  | _ => cases call

theorem ReaderLoop.Pc.not_ended_of_running {pc : ReaderLoop.Pc} (running : pc.stopping = false) :
    pc.ended = false := by
  cases pc <;> first | rfl | cases running

/-- The loop ends at a read that finds nothing. -/
theorem ReaderLoop.OnRing.ended {pc pc' : ReaderLoop.Pc} {label : TryReadRing.Label}
    (onRing : ReaderLoop.OnRing pc label pc') (ends : pc'.ended = true) : label = .miss := by
  cases onRing with
  | miss => rfl
  | @deliver _ event call => simp [(ReaderLoop.Pc.not_ended_of_reads call).2 event] at ends
  | clearWake | consumeWake => cases ends
  | loadPosition call | hit call | copy call | release call =>
      simp [(ReaderLoop.Pc.not_ended_of_reads call).1] at ends

/-- The target is gone, and everything below some positions is published.  When the loop
has ended these positions have been read. -/
structure Draining (promised : Nat → Prop) (machine : Machine Thread) : Prop where
  exited : machine.exited = true
  published : ∀ position, promised position → ∀ earlier ≤ position,
    Ring.Published machine.ring.shared.ring earlier
  ended : machine.loops.reader.ended = true → ∀ position, promised position →
    position < machine.ring.shared.ring.dequeuePosition

section Runs

variable [DecidableEq Thread] {transport : Transport} {history : List (Label Thread)}
  {machine next : Machine Thread} {label : Label Thread} {promised : Nat → Prop}

theorem Draining.step (draining : Draining promised machine)
    (inv : Ring.Invariant (ringHistory history) machine.ring)
    (taken : (system transport Thread).step machine label next)
    (noFailure : label ≠ .loop .waitFailed) : Draining promised next := by
  obtain ⟨exited, published, ended⟩ := draining
  cases taken with
  | producer running => simp [exited] at running
  | exit running => simp [exited] at running
  | stop => exact ⟨exited, published, ended⟩
  | loop step =>
      refine ⟨exited, published, fun ends => ended (step.ended ?_ ends)⟩
      rintro rfl
      exact noFailure rfl
  | reader onRing step =>
      have numbers := (inv.viewStep step).sequence_le inv.protocol
      refine ⟨exited, fun position isPromised earlier below =>
        (published position isPromised earlier below).mono numbers, fun ends => ?_⟩
      cases onRing.ended ends
      generalize ringEq : machine.ring = ring at step inv published
      cases step with
      | reader step =>
          generalize readerEq : ring.reader = reader at step
          cases step with
          | miss unpublished =>
              obtain ⟨head, hidden⟩ := inv.missed readerEq unpublished
              intro position isPromised
              rw [head] at hidden
              exact lt_of_not_ge fun unread => hidden (published position isPromised _ unread)

theorem Draining.path {before after : List (Label Thread)} {final : Machine Thread}
    (run : (system transport Thread).Run before machine)
    (path : (system transport Thread).Path machine after final)
    (waits : .loop .waitFailed ∉ after) (draining : Draining promised machine) :
    Draining promised final := by
  induction path with
  | refl => exact draining
  | @snoc middle last labels label path taken inductionHypothesis =>
      simp only [List.mem_append, List.mem_singleton, not_or] at waits
      have inv := Ring.Run.invariant (Run.ring (run.extend path))
      exact (inductionHypothesis waits.1).step inv taken (Ne.symm waits.2)

/-- Once the target has exited no call returns any more and nothing is published any more. -/
theorem exited_step (inv : Ring.Invariant (ringHistory history) machine.ring)
    (exited : machine.exited = true) (taken : (system transport Thread).step machine label next) :
    next.exited = true ∧
    Ring.returns (ringHistory (history ++ [label])) = Ring.returns (ringHistory history) ∧
    ∀ position, ¬Ring.Published machine.ring.shared.ring position →
      ¬Ring.Published next.ring.shared.ring position := by
  rw [ringHistory_snoc]
  cases taken with
  | producer running => simp [exited] at running
  | exit running => simp [exited] at running
  | reader _ step =>
      refine ⟨exited, ?_, ?_⟩
      · simp [Label.ring?, Ring.returns_snoc, Ring.Label.returned?]
      · cases step with
        | reader step => exact fun position => inv.reader_hides step
  | loop | stop => exact ⟨exited, by simp [Label.ring?], fun _ => id⟩

theorem exited_path {before after : List (Label Thread)} {final : Machine Thread}
    (run : (system transport Thread).Run before machine)
    (path : (system transport Thread).Path machine after final)
    (exited : machine.exited = true) :
    final.exited = true ∧
    Ring.returns (ringHistory (before ++ after)) = Ring.returns (ringHistory before) ∧
    ∀ position, ¬Ring.Published machine.ring.shared.ring position →
      ¬Ring.Published final.ring.shared.ring position := by
  induction path with
  | refl => exact ⟨exited, by simp, fun _ => id⟩
  | @snoc middle last labels label path taken inductionHypothesis =>
      obtain ⟨exitedMiddle, returns, hidden⟩ := inductionHypothesis
      have inv := Ring.Run.invariant (Run.ring (run.extend path))
      obtain ⟨exitedLast, returnsLast, hiddenLast⟩ := exited_step inv exitedMiddle taken
      rw [← List.append_assoc, returnsLast]
      exact ⟨exitedLast, returns, fun position unseen => hiddenLast position (hidden position unseen)⟩

/-! ## No silent loss -/

/-- Every position below that of a returned call is published: no producer has stopped
between its claim and its publication in front of an event that was accepted. -/
def NoGap (history : List (Label Thread)) (machine : Machine Thread) : Prop :=
  ∀ position claim, (position, claim) ∈ Ring.returns (ringHistory history) →
    ∀ earlier < position, Ring.Published machine.ring.shared.ring earlier

/-- Every event of a call that returned true has been rendered if it is well formed, and every
other call was counted as dropped or has not returned. -/
structure NoSilentLoss (history : List (Label Thread)) (machine : Machine Thread) : Prop where
  rendered : rendered history = (Ring.delivered (ringHistory history)).filter WellFormed
  returned : ∀ position claim, (position, claim) ∈ Ring.returns (ringHistory history) →
    ∃ event, (Ring.delivered (ringHistory history))[position]? = some event ∧
      Ring.SameMessage event claim.event ∧ WellFormed event = WellFormed claim.event
  once : ((Ring.returns (ringHistory history)).map Prod.fst).Nodup
  fates : ∀ thread, (Ring.calls thread (ringHistory history)).length =
    Ring.settled thread (ringHistory history) + Ring.inside (machine.ring.producers thread)
  counted : machine.ring.shared.ring.droppedEvents =
    .ofNat (Ring.drops (ringHistory history)).length

/-- The exit itself changes nothing but who can run. -/
theorem exit_step {next : Machine Thread}
    (taken : (system transport Thread).step machine .exit next) :
    next = { machine with exited := true } := by
  cases taken
  rfl

/-- The state right after an exit without a gap promises every position returned so far. -/
theorem NoGap.draining (noGap : NoGap history machine)
    (run : (system transport Thread).Run history machine) (natural : .stop ∉ history)
    (waits : .loop .waitFailed ∉ history) :
    Draining (fun position => ∃ claim, (position, claim) ∈ Ring.returns (ringHistory history))
      { machine with exited := true } := by
  refine ⟨rfl, ?_, fun ends => ?_⟩
  · rintro position ⟨claim, returned⟩ earlier below
    rcases Nat.lt_or_eq_of_le below with less | rfl
    · exact noGap position claim returned earlier less
    · exact ((Ring.Run.ledger (Run.ring run)).returned earlier claim returned).2
  · have running := (Run.running run natural waits).2
    simp [ReaderLoop.Pc.not_ended_of_running running] at ends

/-- Whatever the reader has read is rendered when both threads are done. -/
theorem Run.rendered (run : (system transport Thread).Run history machine)
    (readerJoined : machine.loops.reader = .done) (writerJoined : machine.loops.writer = .done) :
    rendered history = (Ring.delivered (ringHistory history)).filter WellFormed := by
  have queue := Run.queueInvariant run
  obtain ⟨empty, _⟩ := queue.closing.left writerJoined
  rw [queue.conserved, Loops.inFlight, empty, readerJoined, writerJoined]
  simp [WriterLoop.Pc.holding, ReaderLoop.Pc.holding]

/-- After a natural exit, nothing is lost silently exactly when the exit leaves no gap. -/
theorem drain_delivers {before after : List (Label Thread)} {middle final : Machine Thread}
    (run : (system transport Thread).Run before middle)
    (path : (system transport Thread).Path middle (.exit :: after) final)
    (natural : .stop ∉ before) (waits : .loop .waitFailed ∉ before ++ after)
    (readerJoined : final.loops.reader = .done) (writerJoined : final.loops.writer = .done) :
    NoSilentLoss (before ++ .exit :: after) final ↔ NoGap before middle := by
  have whole := run.extend path
  have inv := Ring.Run.invariant (Run.ring whole)
  have ledger := Ring.Run.ledger (Run.ring whole)
  obtain ⟨fates, counted⟩ := Ring.Run.fates (Run.ring whole)
  obtain ⟨noFailureBefore, noFailureAfter⟩ := not_or.mp (List.mem_append.not.mp waits)
  rw [← List.singleton_append] at path
  obtain ⟨exited, single, rest⟩ := path.split
  have taken := single.step_of_singleton
  obtain rfl := exit_step taken
  obtain ⟨_, sameReturns, hidden⟩ := exited_path (run.snoc taken) rest rfl
  rw [List.append_assoc, List.singleton_append, ringHistory_snoc] at sameReturns
  simp only [Label.ring?, Option.toList_none, List.append_nil] at sameReturns
  constructor
  · intro noLoss position claim returned earlier below
    obtain ⟨event, found, _⟩ := noLoss.returned position claim (sameReturns ▸ returned)
    have read := (List.getElem?_eq_some_iff.mp found).1
    rw [inv.length_delivered] at read
    exact not_not.mp fun unseen => hidden earlier unseen (inv.published_of_lt (below.trans read))
  · intro noGap
    have drained := (noGap.draining run natural noFailureBefore).path (run.snoc taken) rest
      noFailureAfter
    refine ⟨Run.rendered whole readerJoined writerJoined, fun position claim returned => ?_,
      ledger.once, fates, counted⟩
    have read : position < (Ring.delivered (ringHistory (before ++ .exit :: after))).length := by
      rw [inv.length_delivered]
      exact drained.ended (by rw [readerJoined]; rfl) position ⟨claim, sameReturns ▸ returned⟩
    have found := List.getElem?_eq_getElem read
    have claimed := (ledger.returned position claim returned).1
    obtain ⟨claim', known, same⟩ := inv.delivered_exact found
    rw [claimed] at known
    cases known
    have sized := inv.locals.sized claim (List.mem_of_getElem? claimed)
    exact ⟨_, found, same, wellFormed_congr same sized⟩

/-- What a thread is still copying is not published. -/
theorem unpublished_of_copying {thread : Thread} {event : TraceEvent} {copied : Nat}
    (run : (system transport Thread).Run history machine)
    (between : machine.ring.producers thread =
      .copy event machine.ring.shared.ring.dequeuePosition copied) :
    (machine.ring.shared.ring.slotAt machine.ring.shared.ring.dequeuePosition).sequence ≠
      machine.ring.shared.ring.dequeuePosition + 1 := by
  have inv := Ring.Run.invariant (Run.ring run)
  have writes : (Ring.view (ringHistory history) machine.ring).writers thread =
      some ⟨machine.ring.shared.ring.dequeuePosition, event.message, copied⟩ := by
    change Ring.writerOf (machine.ring.producers thread) = _
    rw [between]
    rfl
  obtain ⟨_, _, own⟩ := inv.protocol.writer_owns thread _ writes
  rw [Ring.view_sequenceAt] at own
  rw [own]
  exact Nat.ne_of_lt (Nat.lt_succ_self _)

end Runs

/-! ## A producer stopped between its claim and its publication -/

/-- The event of the call that returns. -/
def storedEvent : TraceEvent := EmitTraceEvent.withSequence Ring.sampleEvent 2

/-- One thread claims position 0 and gets no further; another one stores its event at
position 1 and returns true. -/
def killedBefore : List (Label Bool) :=
  [.ring (.producer false (.call Ring.sampleEvent)),
    .ring (.producer false (.takeSequence (EmitTraceEvent.withSequence Ring.sampleEvent 1))),
    .ring (.producer false (.loadPosition 0)), .ring (.producer false (.loadSequence 0)),
    .ring (.producer false (.claim (EmitTraceEvent.withSequence Ring.sampleEvent 1) 0)),
    .ring (.producer true (.call Ring.sampleEvent)),
    .ring (.producer true (.takeSequence storedEvent)),
    .ring (.producer true (.loadPosition 1)), .ring (.producer true (.loadSequence 0)),
    .ring (.producer true (.claim storedEvent 1)), .ring (.producer true (.copy 34)),
    .ring (.producer true (.publish 1)), .ring (.producer true .requestWake),
    .ring (.producer true .setEvent), .ring (.producer true (.finish storedEvent 1))]

/-- The reader wakes for the stored event, never finds it, and is told to stop. -/
def killedAfter : List (Label Bool) := ending 0 ++ renders []

/-- One thread is still copying at position 0, and the other one has returned: so many positions
have been claimed, so many numbers taken, and so many events dropped. -/
structure Killed (loops : Loops) (enqueuePosition : Nat) (eventSequence droppedEvents : UInt32)
    (machine : Machine Bool) : Prop where
  loops : machine.loops = loops
  reading : machine.ring.reader = .idle
  between : machine.ring.producers false = .copy (EmitTraceEvent.withSequence Ring.sampleEvent 1)
    machine.ring.shared.ring.dequeuePosition 0
  idle : machine.ring.producers true = .idle
  enqueuePosition : machine.ring.shared.ring.enqueuePosition = enqueuePosition
  dequeuePosition : machine.ring.shared.ring.dequeuePosition = 0
  eventSequence : machine.ring.shared.ring.eventSequence = eventSequence
  droppedEvents : machine.ring.shared.ring.droppedEvents = droppedEvents
  wakeEvent : machine.ring.shared.wakeEvent = true
  checks : EmitTraceEvent.HeaderChecks machine.ring.shared.ring Ring.sampleEvent
  exited : machine.exited = false

theorem killed_before : ∃ machine, (system ⟨true, true⟩ Bool).Run killedBefore machine ∧
    Killed (startMachine Bool).loops 2 2 0 machine ∧ machine.ring.shared.ring.wakePending ≠ 0 := by
  refine System.Admits.run ?_ startMachine_initial
  refine .cons (.producer rfl (.producer (.call (by decide)))) ?_
  refine .cons (.producer rfl (.producer .takeSequence)) ?_
  refine .cons (.producer rfl (.producer .loadPosition)) ?_
  refine .cons (.producer rfl (.producer (.free (by decide)))) ?_
  refine .cons (.producer rfl (.producer (.claim rfl))) ?_
  refine .cons (.producer rfl (.producer (.call (by decide)))) ?_
  refine .cons (.producer rfl (.producer .takeSequence)) ?_
  refine .cons (.producer rfl (.producer .loadPosition)) ?_
  refine .cons (.producer rfl (.producer (.free (by decide)))) ?_
  refine .cons (.producer rfl (.producer (.claim rfl))) ?_
  refine .cons (.producer rfl (.producer (.copy (by decide)))) ?_
  refine .cons (.producer rfl (.producer (.publish rfl))) ?_
  refine .cons (.producer rfl (.producer (.requestFirst rfl rfl))) ?_
  refine .cons (.producer rfl (.producer .setEvent)) ?_
  refine .cons (.producer rfl (.producer .finish)) ?_
  exact .nil ⟨⟨rfl, rfl, rfl, rfl, rfl, rfl, rfl, rfl, rfl, by decide, rfl⟩, by decide⟩

theorem killed_run : ∃ final,
    (system ⟨true, true⟩ Bool).Run (killedBefore ++ .exit :: killedAfter) final ∧
    final.loops.reader = .done ∧ final.loops.writer = .done ∧
    final.ring.shared.ring.droppedEvents = 0 := by
  obtain ⟨machine, run, killed, _⟩ := killed_before
  have unpublished := unpublished_of_copying run killed.between
  obtain ⟨final, path, rfl⟩ : (system ⟨true, true⟩ Bool).Admits machine (.exit :: killedAfter)
      (· = _) := by
    refine .cons (.exit killed.exited) ?_
    refine admits_ending (congrArg Loops.reader killed.loops) killed.reading unpublished
      killed.droppedEvents (killed.loops ▸ by decide) killed.wakeEvent ?_
    simp only [killed.loops]
    exact admits_renders []
  exact ⟨_, run.extend path, rfl, rfl, killed.droppedEvents⟩

/-- The call at position 1 has returned true, and its event is never rendered nor counted. -/
theorem killed_producer_hides_event : ∃ final,
    (system ⟨true, true⟩ Bool).Run (killedBefore ++ .exit :: killedAfter) final ∧
    .stop ∉ killedBefore ∧ .loop .waitFailed ∉ killedBefore ++ killedAfter ∧
    final.loops.reader = .done ∧ final.loops.writer = .done ∧
    (1, ⟨true, storedEvent⟩) ∈ Ring.returns (ringHistory (killedBefore ++ .exit :: killedAfter)) ∧
    WellFormed storedEvent = true ∧
    rendered (killedBefore ++ .exit :: killedAfter) = [] ∧
    final.ring.shared.ring.droppedEvents = 0 ∧
    ¬NoSilentLoss (killedBefore ++ .exit :: killedAfter) final := by
  obtain ⟨final, run, reader, writer, noDrops⟩ := killed_run
  have returned : (1, ⟨true, storedEvent⟩) ∈
      Ring.returns (ringHistory (killedBefore ++ .exit :: killedAfter)) := List.mem_singleton.mpr rfl
  refine ⟨final, run, by simp [killedBefore], ?_, reader, writer, returned, by decide +kernel, rfl,
    noDrops, fun noLoss => ?_⟩
  · simp [killedBefore, killedAfter, ending, closing, emptyRound, renders]
  · obtain ⟨event, found, _⟩ := noLoss.returned 1 _ returned
    cases found

/-- Every position below the last one returned is published. -/
theorem Sample.noGap {middle : Machine Bool}
    (run : (system ⟨true, true⟩ Bool).Run Sample.before middle) : NoGap Sample.before middle := by
  have returns : Ring.returns (ringHistory Sample.before) =
      [(1, ⟨false, Sample.second⟩), (0, ⟨true, Sample.first⟩), (2, ⟨true, Sample.third⟩)] := rfl
  have ledger := Ring.Run.ledger (Run.ring run)
  intro position claim returned earlier below
  rw [returns] at returned
  have small : position ≤ 2 := by
    simp only [List.mem_cons, Prod.mk.injEq, List.not_mem_nil, or_false] at returned
    omega
  obtain rfl | rfl : earlier = 0 ∨ earlier = 1 := by omega
  · exact (ledger.returned 0 ⟨true, Sample.first⟩ (by simp [returns])).2
  · exact (ledger.returned 1 ⟨false, Sample.second⟩ (by simp [returns])).2

/-- The call behind the gap loses its event; where both threads have published, all three
events of the two threads are rendered. -/
theorem drain_delivers_sample :
    (∃ middle final, (system ⟨true, true⟩ Bool).Run killedBefore middle ∧
      ¬NoSilentLoss (killedBefore ++ .exit :: killedAfter) final ∧ ¬NoGap killedBefore middle) ∧
    ∃ middle final, (system ⟨true, true⟩ Bool).Run Sample.before middle ∧
      NoSilentLoss (Sample.before ++ .exit :: Sample.after) final ∧ NoGap Sample.before middle ∧
      rendered (Sample.before ++ .exit :: Sample.after) =
        [Sample.taken Sample.first, Sample.taken Sample.second, Sample.taken Sample.third] := by
  constructor
  · obtain ⟨final, run, reader, writer, _⟩ := killed_run
    obtain ⟨middle, before, after⟩ := run.split
    have exactly := drain_delivers before after (by simp [killedBefore])
      (by simp [killedBefore, killedAfter, ending, closing, emptyRound, renders]) reader writer
    have gap : ¬NoGap killedBefore middle := by
      intro noGap
      obtain ⟨event, found, _⟩ := (exactly.mpr noGap).returned 1 ⟨true, storedEvent⟩
        (List.mem_singleton.mpr rfl)
      cases found
    exact ⟨middle, final, before, exactly.not.mpr gap, gap⟩
  · obtain ⟨final, run, reader, writer, _⟩ := Sample.run
    obtain ⟨middle, before, after⟩ := run.split
    have exactly := drain_delivers before after (by simp [Sample.before])
      (by simp [Sample.before, Sample.after, take, ending, closing, emptyRound, renders]) reader writer
    have noGap := Sample.noGap before
    exact ⟨middle, final, before, exactly.mpr noGap, noGap, rfl⟩

end TraceSession

end ApiScope
