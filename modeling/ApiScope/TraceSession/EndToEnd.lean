import ApiScope.Hook.Handlers
import ApiScope.TraceSession.Drain
import ApiScope.TraceSession.Output

/-!
# From the hooked call to the line in the file

The threads of the target run hooked calls, one after the other.  Their handlers
emit events into the ring, the session takes them out and writes its file.  The
lines of a thread in that file report calls of that thread, in the order in which
it has made them.
-/

namespace ApiScope

open Bytes TraceLanguage TraceRenderer Transition

/-- A hooked call and what its handler finds when it arrives. -/
structure Invocation where
  process : HookedProcess
  call : HookedCall
  memory : Memory

def HandlerAction.emitted? : HandlerAction → Option TraceEvent
  | emitTraceEvent event => some event
  | _ => none

namespace Invocation

/-- What its handler passes to `EmitTraceEvent`. -/
def emits (invocation : Invocation) : List TraceEvent :=
  (invocation.call.handler invocation.process invocation.memory).log.filterMap
    HandlerAction.emitted?

def Reports (invocation : Invocation) (event : TraceEvent) : Prop :=
  ApiScope.Reports invocation.process invocation.call invocation.memory event

/-- The object of a line that shows the call, its arguments and its result. -/
def ShownBy (invocation : Invocation) (object : Json.Value) : Prop :=
  ∃ sequence members fieldMembers, object = .object members ∧
    LineReports invocation.process invocation.call invocation.memory sequence members fieldMembers

theorem exists_emits (invocation : Invocation) :
    ∃ event, invocation.emits = [event] ∧ invocation.Reports event := by
  obtain ⟨_, event, log, reports⟩ := invocation.call.handler_spec invocation.process
    invocation.memory
  refine ⟨event, ?_, reports⟩
  rw [emits, log]
  rfl

variable {invocation : Invocation} {event : TraceEvent}

/-- The copy that comes out of the ring reports the same call. -/
theorem Reports.congr {claimed : TraceEvent} (reports : invocation.Reports claimed)
    (same : Ring.SameMessage event claimed) (sized : Ring.Sized claimed) :
    invocation.Reports event := by
  obtain ⟨encodes, flags, threadId, timestamp⟩ := reports
  have header := same.header_eq sized
  refine ⟨Encodes_congr header.symm ?_ encodes, header ▸ flags, header ▸ threadId,
    header ▸ timestamp⟩
  rw [← header]
  exact (same.payload_eq sized).symm

theorem Reports.wellFormed (reports : invocation.Reports event) : WellFormed event = true :=
  wellFormed_iff.mpr ⟨_, _, _, reports.encodes⟩

/-- The object on the line of an event shows the call the event reports. -/
theorem Reports.shown (reports : invocation.Reports event)
    (fileTimeToSystemTime : FileTimeToSystemTime) {parsed : ParsedEvent}
    (parses : ParseTraceEvent event event.header.size.toNat = some parsed) :
    invocation.ShownBy (eventObject fileTimeToSystemTime event parsed) := by
  obtain ⟨line, members, fieldMembers, rendered, _, decoded, reported⟩ :=
    ApiScope.Reports.line reports fileTimeToSystemTime
  rw [renderTraceEventJsonl_line fileTimeToSystemTime parses] at rendered
  rw [← List.append_cancel_right rendered,
    Json.decode_encode _ (printable_eventObject fileTimeToSystemTime parses)] at decoded
  exact ⟨_, members, fieldMembers, Option.some.inj decoded, reported⟩

/-- Events that differ in their number only. -/
theorem eq_withSequence {numbered original : TraceEvent}
    (same : Ring.unnumbered numbered = Ring.unnumbered original) :
    numbered = EmitTraceEvent.withSequence original numbered.header.sequence := by
  obtain ⟨⟨magic, version, size, flags, fieldCount, sequence, timestamp, thread, moduleLength,
    apiLength, reserved⟩, payload, sized⟩ := numbered
  obtain ⟨⟨magic', version', size', flags', fieldCount', sequence', timestamp', thread',
    moduleLength', apiLength', reserved'⟩, payload', sized'⟩ := original
  simp only [Ring.unnumbered, EmitTraceEvent.withSequence, TraceEvent.mk.injEq,
    TraceEventHeader.mk.injEq] at same ⊢
  exact ⟨⟨same.1.1, same.1.2.1, same.1.2.2.1, same.1.2.2.2.1, same.1.2.2.2.2.1, trivial,
    same.1.2.2.2.2.2.2⟩, same.2⟩

theorem Reports.numbered {numbered : TraceEvent} (reports : invocation.Reports event)
    (same : Ring.unnumbered numbered = Ring.unnumbered event) : invocation.Reports numbered :=
  eq_withSequence same ▸ ApiScope.Reports.withSequence reports _

end Invocation

/-! ## Lines and their threads -/

namespace TraceSession

variable {Thread : Type*} [DecidableEq Thread]

/-- The events a thread passes to `EmitTraceEvent` come from its hooked calls, in order. -/
def RunsHooked (program : Thread → List Invocation) (history : List (Label Thread)) : Prop :=
  ∀ thread, Ring.calls thread (ringHistory history) <+:
    (program thread).flatMap Invocation.emits

/-- The objects that stand where the thread has claimed. -/
def linesOf (thread : Thread) (claims : List (Ring.Claim Thread)) (objects : List Json.Value) :
    List Json.Value :=
  ((claims.zip objects).filter fun line => line.1.thread = thread).map Prod.snd

section Claims

variable {transport : Transport} {history : List (Label Thread)} {machine : Machine Thread}
  {program : Thread → List Invocation}

/-- The claims of a thread report calls of its program, in order. -/
theorem exists_reported (run : (system transport Thread).Run history machine)
    (hooked : RunsHooked program history) (thread : Thread) {front : List (Ring.Claim Thread)}
    (among : front.Sublist (Ring.claims (ringHistory history))) :
    ∃ reported, reported.Sublist (program thread) ∧
      List.Forall₂ Invocation.Reports reported (Ring.claimedBy thread front) := by
  choose event emits reports using Invocation.exists_emits
  have calls := hooked thread
  rw [show Invocation.emits = fun invocation => [event invocation] from funext emits,
    ← List.map_eq_flatMap] at calls
  obtain ⟨ordered, counted⟩ := (Ring.Run.callOrder (Run.ring run) thread).ordered
  have claimed : (Ring.claimedBy thread front).Sublist
      (Ring.numbered thread (ringHistory history)) :=
    ((among.filter _).map _).trans ordered
  have sub : ((Ring.claimedBy thread front).map Ring.unnumbered).Sublist
      ((program thread).map fun invocation => Ring.unnumbered (event invocation)) := by
    refine (claimed.map _).trans (counted.sublist.trans ?_)
    have renamed := calls.sublist.map Ring.unnumbered
    rwa [List.map_map] at renamed
  obtain ⟨reported, isSub, same⟩ := List.sublist_map_iff.mp sub
  refine ⟨reported, isSub, ?_⟩
  have paired : List.Forall₂ (fun invocation numbered =>
      Ring.unnumbered (event invocation) = Ring.unnumbered numbered) reported
      (Ring.claimedBy thread front) := by
    have equal := List.forall₂_eq_eq_eq ▸ same.symm
    rwa [List.forall₂_map_left_iff, List.forall₂_map_right_iff] at equal
  exact paired.imp fun invocation numbered equal => (reports invocation).numbered equal.symm

/-- Every claim reports a call. -/
theorem claim_reports (run : (system transport Thread).Run history machine)
    (hooked : RunsHooked program history) {claim : Ring.Claim Thread}
    (member : claim ∈ Ring.claims (ringHistory history)) :
    ∃ invocation : Invocation, invocation.Reports claim.event := by
  obtain ⟨reported, _, paired⟩ := exists_reported run hooked claim.thread
    (List.Sublist.refl (Ring.claims (ringHistory history)))
  have own : claim.event ∈ Ring.claimedBy claim.thread (Ring.claims (ringHistory history)) :=
    List.mem_map_of_mem (List.mem_filter.mpr ⟨member, by simp⟩)
  obtain ⟨k, found⟩ := List.mem_iff_get.mp own
  have reports := paired.get (paired.length_eq.symm ▸ k.2 : k.1 < reported.length) k.2
  exact ⟨_, (congrArg _ found).mp reports⟩

/-- An event on its way to the file and the claim it was copied from. -/
structure CopyOf (claim : Ring.Claim Thread) (event : TraceEvent) : Prop where
  same : Ring.SameMessage event claim.event
  sized : Ring.Sized claim.event
  hooked : ∃ invocation : Invocation, invocation.Reports claim.event

theorem delivered_copyOf (run : (system transport Thread).Run history machine)
    (hooked : RunsHooked program history) {k : Nat} {event : TraceEvent}
    (found : (Ring.delivered (ringHistory history))[k]? = some event) :
    ∃ claim, (Ring.claims (ringHistory history))[k]? = some claim ∧ CopyOf claim event := by
  have inv := Ring.Run.invariant (Run.ring run)
  obtain ⟨claim, known, same⟩ := inv.delivered_exact found
  have member := List.mem_of_getElem? known
  exact ⟨claim, known, same, inv.locals.sized claim member, claim_reports run hooked member⟩

/-- No event of a hooked call is taken for a malformed one. -/
theorem filter_delivered (run : (system transport Thread).Run history machine)
    (hooked : RunsHooked program history) :
    (Ring.delivered (ringHistory history)).filter WellFormed =
      Ring.delivered (ringHistory history) := by
  refine List.filter_eq_self.mpr fun event member => ?_
  obtain ⟨k, found⟩ := List.mem_iff_getElem?.mp member
  obtain ⟨claim, _, same, sized, invocation, reports⟩ := delivered_copyOf run hooked found
  exact (reports.congr same sized).wellFormed

/-- The rendered events are copies of the first claimed ones. -/
theorem rendered_claims (run : (system transport Thread).Run history machine)
    (hooked : RunsHooked program history) :
    List.Forall₂ CopyOf
      ((Ring.claims (ringHistory history)).take (rendered history).length) (rendered history) := by
  have inv := Ring.Run.invariant (Run.ring run)
  have front : rendered history <+: Ring.delivered (ringHistory history) :=
    ⟨machine.loops.inFlight, by
      rw [← (Run.queueInvariant run).conserved, filter_delivered run hooked]⟩
  have enough : (rendered history).length ≤ (Ring.claims (ringHistory history)).length := by
    rw [inv.length_claims]
    exact front.length_le.trans (inv.length_delivered ▸ inv.delivered_le)
  refine List.forall₂_iff_get.mpr ⟨by simp [enough], fun k bound bound' => ?_⟩
  have found : (Ring.delivered (ringHistory history))[k]? = some (rendered history)[k] :=
    List.getElem?_eq_some_iff.mpr ⟨_, (front.getElem bound').symm⟩
  obtain ⟨claim, known, facts⟩ := delivered_copyOf run hooked found
  have same : ((Ring.claims (ringHistory history)).take (rendered history).length)[k] = claim := by
    rw [List.getElem_take]
    exact (List.getElem?_eq_some_iff.mp known).2
  simpa [same] using facts

end Claims

/-- The object shows every call that the event reports. -/
def ShowsCallsOf (claimed : TraceEvent) (object : Json.Value) : Prop :=
  ∀ invocation : Invocation, invocation.Reports claimed → invocation.ShownBy object

omit [DecidableEq Thread] in
/-- The object of a copy shows the call that was claimed for. -/
theorem forall₂_objects (fileTimeToSystemTime : FileTimeToSystemTime)
    {front : List (Ring.Claim Thread)} {events : List TraceEvent}
    (paired : List.Forall₂ CopyOf front events) :
    List.Forall₂ (fun claim object => ShowsCallsOf claim.event object) front
      ((accepted events).map fun entry => eventObject fileTimeToSystemTime entry.1 entry.2) := by
  induction paired with
  | nil => exact .nil
  | @cons claim event front events first _ inductionHypothesis =>
      obtain ⟨same, sized, invocation, reports⟩ := first
      obtain ⟨parsed, parses⟩ :=
        Option.isSome_iff_exists.mp (reports.congr same sized).wellFormed
      rw [accepted_cons_some parses, List.map_cons]
      refine .cons (fun invocation reports => ?_) inductionHypothesis
      exact (reports.congr same sized).shown fileTimeToSystemTime parses

/-- A relation between claims and objects, seen by one thread. -/
theorem forall₂_linesOf {related : TraceEvent → Json.Value → Prop} (thread : Thread)
    {front back : List (Ring.Claim Thread)} {objects : List Json.Value}
    (paired : List.Forall₂ (fun claim object => related claim.event object) front objects) :
    List.Forall₂ related (Ring.claimedBy thread front) (linesOf thread (front ++ back) objects) := by
  induction paired with
  | nil => simp [Ring.claimedBy, linesOf]
  | @cons claim object front objects first _ inductionHypothesis =>
      by_cases own : claim.thread = thread
      · have claimed : Ring.claimedBy thread (claim :: front) =
            claim.event :: Ring.claimedBy thread front := by simp [Ring.claimedBy, own]
        have lines : linesOf thread (claim :: front ++ back) (object :: objects) =
            object :: linesOf thread (front ++ back) objects := by simp [linesOf, own]
        rw [claimed, lines]
        exact .cons first inductionHypothesis
      · have claimed : Ring.claimedBy thread (claim :: front) = Ring.claimedBy thread front := by
          simp [Ring.claimedBy, own]
        have lines : linesOf thread (claim :: front ++ back) (object :: objects) =
            linesOf thread (front ++ back) objects := by simp [linesOf, own]
        rw [claimed, lines]
        exact inductionHypothesis

section Reports

variable {transport : Transport} {history : List (Label Thread)} {machine : Machine Thread}
  {program : Thread → List Invocation}

/-- What a JSONL file shows of the calls of a thread. -/
theorem exists_shown (run : (system transport Thread).Run history machine)
    (hooked : RunsHooked program history) (fileTimeToSystemTime : FileTimeToSystemTime)
    (thread : Thread) :
    ∃ reported, reported.Sublist (program thread) ∧
      reported.length = (Ring.claimedBy thread
        ((Ring.claims (ringHistory history)).take (rendered history).length)).length ∧
      List.Forall₂ Invocation.ShownBy reported
        (linesOf thread (Ring.claims (ringHistory history))
          ((accepted (rendered history)).map fun entry =>
            eventObject fileTimeToSystemTime entry.1 entry.2)) := by
  obtain ⟨reported, among, reports⟩ := exists_reported run hooked thread
    (List.take_sublist (rendered history).length (Ring.claims (ringHistory history)))
  have objects := @forall₂_linesOf _ _ ShowsCallsOf thread _
    ((Ring.claims (ringHistory history)).drop (rendered history).length) _
    (forall₂_objects fileTimeToSystemTime (rendered_claims run hooked))
  rw [List.take_append_drop] at objects
  refine ⟨reported, among, reports.length_eq, ?_⟩
  refine List.forall₂_iff_get.mpr
    ⟨reports.length_eq.trans objects.length_eq, fun k bound bound' => ?_⟩
  exact objects.get (reports.length_eq ▸ bound) bound' _ (reports.get bound _)

theorem jsonlFile (fileTimeToSystemTime : FileTimeToSystemTime)
    {outputOptions : TraceOutputOptions} (jsonl : outputOptions.format = .jsonl)
    (named : outputOptions.outputPath ≠ []) (cout : Ostream) (events : List TraceEvent) :
    ∃ outputFile, (renderAll fileTimeToSystemTime (openOutputs outputOptions true cout)
        events).outputFile = some outputFile ∧
      outputFile.written = events.flatMap (RenderTraceEventJsonl fileTimeToSystemTime) := by
  have file : (openOutputs outputOptions true cout).outputFile = some {} := if_pos ⟨named, rfl⟩
  obtain ⟨saved, isSaved, written⟩ :=
    written_outputFile fileTimeToSystemTime file Ostream.settled_new events
  exact ⟨saved, isSaved, written.trans (if_pos jsonl)⟩

/-- At any time of any session with a JSONL file, the file reads back as objects; those that a
thread has claimed for show calls of that thread, in the order of its program. -/
theorem session_reports_calls (run : (system transport Thread).Run history machine)
    (hooked : RunsHooked program history) (fileTimeToSystemTime : FileTimeToSystemTime)
    (outputOptions : TraceOutputOptions) (jsonl : outputOptions.format = .jsonl)
    (named : outputOptions.outputPath ≠ []) (cout : Ostream) :
    ∃ outputFile objects,
      (renderAll fileTimeToSystemTime (openOutputs outputOptions true cout)
        (rendered history)).outputFile = some outputFile ∧
      readJsonl outputFile.written = some objects ∧
      objects.length = (rendered history).length ∧
      objects.length ≤ (Ring.claims (ringHistory history)).length ∧
      ∀ thread, ∃ reported, reported.Sublist (program thread) ∧
        List.Forall₂ Invocation.ShownBy reported
          (linesOf thread (Ring.claims (ringHistory history)) objects) := by
  obtain ⟨saved, isSaved, logged⟩ :=
    jsonlFile fileTimeToSystemTime jsonl named cout (rendered history)
  have copies := rendered_claims run hooked
  have counted := (forall₂_objects fileTimeToSystemTime copies).length_eq
  refine ⟨saved, _, isSaved, logged ▸ readJsonl_flatMap _ _, ?_, ?_, fun thread => ?_⟩
  · exact counted.symm.trans copies.length_eq
  · exact counted.symm.trans_le (List.length_take_le' ..)
  · obtain ⟨reported, among, _, shown⟩ := exists_shown run hooked fileTimeToSystemTime thread
    exact ⟨reported, among, shown⟩

end Reports

end TraceSession

/-! ## Nothing is missing at the end -/

namespace Ring

variable {Thread : Type*} [DecidableEq Thread]

/-- Inside a call that has neither claimed nor dropped. -/
def deciding : EmitTraceEvent.Pc → Nat
  | .takeSequence _ | .loadPosition _ | .loadSequence _ _ | .compareExchange _ _ | .drop _ => 1
  | _ => 0

/-- The calls of a thread that were dropped. -/
def dropped (thread : Thread) (history : List (Label Thread)) : List (Claim Thread) :=
  (drops history).filter fun entry => entry.thread = thread

theorem decided_step {transport : Transport} {shared shared' : Shared} {thread : Thread}
    {pc pc' : EmitTraceEvent.Pc} {label : EmitTraceEvent.Label}
    (taken : EmitTraceEvent.Step transport shared pc label shared' pc') :
    (calls thread [.producer thread label]).length + deciding pc =
      (claimedBy thread (claims [.producer thread label])).length +
        (dropped thread [.producer thread label]).length + deciding pc' := by
  cases taken <;>
    simp [calls, claimedBy, claims, dropped, drops, List.filterMap_cons, Label.call?,
      Label.claim?, Label.drop?, deciding]

theorem decided_other {thread other : Thread} (differ : thread ≠ other)
    (label : EmitTraceEvent.Label) :
    calls other [.producer thread label] = [] ∧
    claimedBy other (claims [.producer thread label]) = [] ∧
    dropped other [.producer thread label] = [] := by
  cases label <;>
    simp [calls, claimedBy, claims, dropped, drops, List.filterMap_cons, Label.call?,
      Label.claim?, Label.drop?, differ]

theorem decided_snoc (thread : Thread) (history : List (Label Thread)) (label : Label Thread) :
    (claimedBy thread (claims (history ++ [label]))).length +
        (dropped thread (history ++ [label])).length =
      (claimedBy thread (claims history)).length + (dropped thread history).length +
        ((claimedBy thread (claims [label])).length + (dropped thread [label]).length) := by
  simp only [claimedBy, claims, dropped, drops, List.filterMap_append, List.filter_append,
    List.map_append, List.length_append]
  omega

/-- Each call of a thread has claimed, was dropped, or is still deciding. -/
theorem Run.decided {transport : Transport} {history : List (Label Thread)}
    {machine : Machine Thread} (run : (system transport Thread).Run history machine)
    (thread : Thread) :
    (calls thread history).length =
      (claimedBy thread (claims history)).length + (dropped thread history).length +
        deciding (machine.producers thread) := by
  refine @System.Run.invariant _ _ _ (fun history machine => (calls thread history).length =
    (claimedBy thread (claims history)).length + (dropped thread history).length +
      deciding (machine.producers thread)) ?_ ?_ _ _ run
  · rintro machine ⟨_, idle, _⟩
    rw [idle]
    rfl
  · intro history machine label next counted taken
    rw [decided_snoc]
    simp only [calls, List.filterMap_append, List.length_append] at counted ⊢
    cases taken with
    | reader => exact counted
    | @producer other label shared pc step =>
        by_cases differ : other = thread
        · subst differ
          have own := @decided_step _ _ _ _ _ other _ _ _ step
          simp only [calls, Function.update_self] at own ⊢
          omega
        · obtain ⟨noCall, noClaim, noDrop⟩ := decided_other differ label
          rw [calls] at noCall
          simp only [noCall, noClaim, noDrop, Function.update_of_ne (Ne.symm differ),
            List.length_nil]
          omega

/-- Positions that are returned are places of the thread among the claims. -/
theorem length_returned_le {thread : Thread} {claims : List (Claim Thread)}
    {returned : List (Nat × Claim Thread)} {count : Nat}
    (once : (returned.map Prod.fst).Nodup)
    (known : ∀ position claim, (position, claim) ∈ returned →
      claims[position]? = some claim ∧ position < count) :
    (returned.filter fun entry => entry.2.thread = thread).length ≤
      (claimedBy thread (claims.take count)).length := by
  have places : ((List.range count).filter fun position =>
      claims[position]?.any fun claim => claim.thread = thread).length =
        (claimedBy thread (claims.take count)).length := by
    clear known
    induction count with
    | zero => simp [claimedBy]
    | succ count inductionHypothesis =>
        rw [List.range_succ, List.filter_append, List.length_append, inductionHypothesis,
          List.take_add_one]
        cases found : claims[count]? with
        | none => simp [claimedBy, found]
        | some claim =>
            by_cases own : claim.thread = thread <;> simp [claimedBy, found, own]
  have distinct : ((returned.filter fun entry => entry.2.thread = thread).map Prod.fst).Nodup :=
    once.sublist ((List.filter_sublist ..).map _)
  rw [← places, ← List.length_map Prod.fst]
  refine (List.subperm_of_subset distinct fun position member => ?_).length_le
  obtain ⟨⟨_, claim⟩, inside, rfl⟩ := List.mem_map.mp member
  obtain ⟨among, own⟩ := List.mem_filter.mp inside
  obtain ⟨found, small⟩ := known _ _ among
  exact List.mem_filter.mpr ⟨List.mem_range.mpr small, by simpa [found] using own⟩

end Ring

namespace TraceSession

variable {Thread : Type*} [DecidableEq Thread] {transport : Transport}
  {program : Thread → List Invocation}

/-- After a natural exit that leaves no gap, every event of a call that returned is read. -/
theorem returned_read {before after : List (Label Thread)} {middle final : Machine Thread}
    (run : (system transport Thread).Run before middle)
    (path : (system transport Thread).Path middle (.exit :: after) final)
    (natural : .stop ∉ before) (waits : .loop .waitFailed ∉ before ++ after)
    (readerJoined : final.loops.reader = .done) (noGap : NoGap before middle) {position : Nat}
    {claim : Ring.Claim Thread}
    (returned : (position, claim) ∈ Ring.returns (ringHistory (before ++ .exit :: after))) :
    position < (Ring.delivered (ringHistory (before ++ .exit :: after))).length := by
  have inv := Ring.Run.invariant (Run.ring (run.extend path))
  obtain ⟨noFailureBefore, noFailureAfter⟩ := not_or.mp (List.mem_append.not.mp waits)
  rw [← List.singleton_append] at path
  obtain ⟨exited, single, rest⟩ := path.split
  have taken := single.step_of_singleton
  obtain rfl := exit_step taken
  obtain ⟨_, sameReturns, _⟩ := exited_path (run.snoc taken) rest rfl
  rw [List.append_assoc, List.singleton_append, ringHistory_snoc] at sameReturns
  simp only [Label.ring?, Option.toList_none, List.append_nil] at sameReturns
  have drained := (noGap.draining run natural noFailureBefore).path (run.snoc taken) rest
    noFailureAfter
  rw [inv.length_delivered]
  exact drained.ended (by rw [readerJoined]; rfl) position ⟨claim, sameReturns ▸ returned⟩

/-- After a natural exit that leaves no gap, the file misses nothing: of a thread that is outside
of `EmitTraceEvent`, each call is on a line of its own or counted as dropped. -/
theorem exited_session_reports_all {before after : List (Label Thread)}
    {middle final : Machine Thread}
    (run : (system transport Thread).Run before middle)
    (path : (system transport Thread).Path middle (.exit :: after) final)
    (natural : .stop ∉ before) (waits : .loop .waitFailed ∉ before ++ after)
    (readerJoined : final.loops.reader = .done) (writerJoined : final.loops.writer = .done)
    (noGap : NoGap before middle) (hooked : RunsHooked program (before ++ .exit :: after))
    (fileTimeToSystemTime : FileTimeToSystemTime) (outputOptions : TraceOutputOptions)
    (jsonl : outputOptions.format = .jsonl) (named : outputOptions.outputPath ≠ [])
    (cout : Ostream) :
    let history := before ++ .exit :: after
    ∃ outputFile objects,
      (renderAll fileTimeToSystemTime (openOutputs outputOptions true cout)
        (rendered history)).outputFile = some outputFile ∧
      readJsonl outputFile.written = some objects ∧
      final.ring.shared.ring.droppedEvents =
        .ofNat (Ring.drops (ringHistory history)).length ∧
      ∀ thread, final.ring.producers thread = .idle →
        ∃ reported, reported.Sublist (program thread) ∧
          List.Forall₂ Invocation.ShownBy reported
            (linesOf thread (Ring.claims (ringHistory history)) objects) ∧
          reported.length + (Ring.dropped thread (ringHistory history)).length =
            (Ring.calls thread (ringHistory history)).length := by
  intro history
  have whole : (system transport Thread).Run history final := run.extend path
  have ledger := Ring.Run.ledger (Run.ring whole)
  obtain ⟨fates, counted⟩ := Ring.Run.fates (Run.ring whole)
  obtain ⟨saved, isSaved, logged⟩ :=
    jsonlFile fileTimeToSystemTime jsonl named cout (rendered history)
  refine ⟨saved, _, isSaved, logged ▸ readJsonl_flatMap _ _, counted, fun thread outside => ?_⟩
  obtain ⟨reported, among, length, shown⟩ :=
    exists_shown whole hooked fileTimeToSystemTime thread
  refine ⟨reported, among, shown, ?_⟩
  have everything : rendered history = Ring.delivered (ringHistory history) :=
    (Run.rendered whole readerJoined writerJoined).trans (filter_delivered whole hooked)
  have atLeast := @Ring.length_returned_le _ _ thread (Ring.claims (ringHistory history)) _
    (rendered history).length ledger.once fun position claim returned =>
      ⟨(ledger.returned position claim returned).1, everything ▸
        returned_read run path natural waits readerJoined noGap returned⟩
  have atMost : (Ring.claimedBy thread
      ((Ring.claims (ringHistory history)).take (rendered history).length)).length ≤
        (Ring.claimedBy thread (Ring.claims (ringHistory history))).length :=
    (((List.take_sublist ..).filter _).map _).length_le
  have fate := fates thread
  have decided := Ring.Run.decided (Run.ring whole) thread
  rw [outside] at fate decided
  simp only [Ring.settled, Ring.inside, Ring.deciding, Ring.dropped] at fate decided ⊢
  omega

/-! ## From the handlers to the file -/

namespace Sample

/-- A thread of the process that opens an algorithm provider. -/
def invocation (threadId flags : UInt32) : Invocation where
  process := ⟨⟨threadId, 133⟩, none, fun _ memory => (0, memory)⟩
  call := .bcryptOpenAlgorithmProvider ⟨0x1000, 0x2000, 0, flags⟩
  memory := fun _ => 0

/-- One thread makes two calls, the other one a single call. -/
def target (thread : Bool) : List Invocation :=
  if thread then [invocation 7 4, invocation 7 0] else [invocation 9 8]

theorem hooked : RunsHooked target (before ++ .exit :: after) := by
  intro thread
  cases thread <;> exact ⟨[], rfl⟩

end Sample

open Sample in
theorem session_reports_calls_sample :
    ∃ outputFile objects,
      (renderAll (fun _ => none) (openOutputs ⟨.jsonl, [116], true⟩ true {})
        (rendered (before ++ .exit :: after))).outputFile = some outputFile ∧
      readJsonl outputFile.written = some objects ∧ objects.length = 3 ∧
      ∀ thread, ∃ reported, reported.Sublist (target thread) ∧
        List.Forall₂ Invocation.ShownBy reported
          (linesOf thread (Ring.claims (ringHistory (before ++ .exit :: after))) objects) := by
  obtain ⟨final, run, _⟩ := run
  obtain ⟨outputFile, objects, isOpen, reads, counted, _, shown⟩ :=
    session_reports_calls run hooked (fun _ => none) ⟨.jsonl, [116], true⟩ rfl (by decide) {}
  exact ⟨outputFile, objects, isOpen, reads, counted, shown⟩

open Sample in
theorem exited_session_reports_all_sample :
    ∃ outputFile objects,
      (renderAll (fun _ => none) (openOutputs ⟨.jsonl, [116], true⟩ true {})
        (rendered (before ++ .exit :: after))).outputFile = some outputFile ∧
      readJsonl outputFile.written = some objects ∧
      ∀ thread, List.Forall₂ Invocation.ShownBy (target thread)
        (linesOf thread (Ring.claims (ringHistory (before ++ .exit :: after))) objects) := by
  obtain ⟨final, run, reader, writer, outside⟩ := run
  obtain ⟨middle, toExit, path⟩ := run.split
  obtain ⟨outputFile, objects, isOpen, reads, _, shown⟩ :=
    exited_session_reports_all toExit path (by simp [before])
      (by simp [before, after, take, ending, closing, emptyRound, renders]) reader writer (noGap toExit)
      hooked (fun _ => none) ⟨.jsonl, [116], true⟩ rfl (by decide) {}
  refine ⟨outputFile, objects, isOpen, reads, fun thread => ?_⟩
  obtain ⟨reported, among, lines, counted⟩ := shown thread (outside thread)
  have whole : reported = target thread := by
    refine among.eq_of_length (counted.trans ?_)
    cases thread <;> rfl
  exact whole ▸ lines

end TraceSession

end ApiScope
