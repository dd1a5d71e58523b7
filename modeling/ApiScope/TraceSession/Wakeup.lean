import ApiScope.TraceSession.Loops
import ApiScope.Ring.Refinement

/-!
# No lost wakeup

Once the reader has reset `wakePending`, a producer that finds it set again has a
predecessor that is about to set the event.  Once the reader's second look at the
ring has failed, a head that is published now was published later, by a producer
that has yet to exchange `wakePending`.
-/

namespace ApiScope

open Transition

namespace EmitTraceEvent

/-- Published, and about to exchange `wakePending`. -/
def AtWake (pc : Pc) : Prop := ∃ event position, pc = .wake event position

/-- The first to set `wakePending`, and about to set the event. -/
def AtSetEvent (pc : Pc) : Prop := ∃ event position, pc = .setEvent event position

/-- Steps other than publications and those behind them leave the wake state and the slot
numbers alone. -/
theorem Step.quiet {transport : Transport} {shared shared' : Shared} {pc pc' : Pc}
    {label : Label} (taken : Step transport shared pc label shared' pc')
    (noWake : ¬AtWake pc) (noSetEvent : ¬AtSetEvent pc)
    (noRetreat : ∀ event position, pc ≠ .clearWake event position)
    (noPublish : ∀ position, label ≠ .publish position) :
    shared'.wakeEvent = shared.wakeEvent ∧
    shared'.ring.wakePending = shared.ring.wakePending ∧
    ∀ position, (shared'.ring.slotAt position).sequence =
      (shared.ring.slotAt position).sequence := by
  cases taken with
  | @copy event position copied count inside =>
      refine ⟨rfl, rfl, fun other => ?_⟩
      by_cases same : slotIndex other = slotIndex position
      · simp [TraceRing.slotAt, TraceRing.setSlot, same]
      · simp [TraceRing.slotAt, TraceRing.setSlot, Function.update_of_ne same]
  | publish => exact absurd rfl (noPublish _)
  | skipWake | requestFirst | requestAgain => exact absurd ⟨_, _, rfl⟩ noWake
  | setEvent | setEventFailed => exact absurd ⟨_, _, rfl⟩ noSetEvent
  | clearWake => exact absurd rfl (noRetreat _ _)
  | _ => exact ⟨rfl, rfl, fun _ => rfl⟩

/-- Only a failed `NtSetEvent` makes a producer take its wake request back. -/
theorem Step.retreat {transport : Transport} {shared shared' : Shared} {pc pc' : Pc}
    {label : Label} (taken : Step transport shared pc label shared' pc')
    {event : TraceEvent} {position : Nat} (retreats : pc' = .clearWake event position) :
    label = .setEventFailed := by
  cases taken <;> first | rfl | cases retreats

end EmitTraceEvent

namespace Ring

variable {Thread : Type*}

/-- The slot of the next event to read is published. -/
def HeadPublished (ring : TraceRing) : Prop :=
  (ring.slotAt ring.dequeuePosition).sequence = ring.dequeuePosition + 1

section Update

variable [DecidableEq Thread] {producers : Thread → EmitTraceEvent.Pc} {thread : Thread}
  {pc : EmitTraceEvent.Pc} {inside : EmitTraceEvent.Pc → Prop}

/-- A witness among the producers survives the step of a producer that is none. -/
theorem exists_update (found : ∃ other, inside (producers other))
    (outside : ¬inside (producers thread)) :
    ∃ other, inside (Function.update producers thread pc other) := by
  obtain ⟨other, held⟩ := found
  have differ : other ≠ thread := by
    rintro rfl
    exact outside held
  exact ⟨other, by simpa [Function.update_of_ne differ] using held⟩

theorem exists_update_self (held : inside pc) :
    ∃ other, inside (Function.update producers thread pc other) :=
  ⟨thread, by simpa using held⟩

end Update

/-! ## A producer that will signal -/

/-- The thread's own remaining steps lead to a set event, and its call cannot return without
one when `NtSetEvent` succeeds. -/
structure WillSignal [DecidableEq Thread] (transport : Transport) (machine : Machine Thread)
    (thread : Thread) : Prop where
  published : EmitTraceEvent.AtWake (machine.producers thread) ∨
    EmitTraceEvent.AtSetEvent (machine.producers thread)
  signals : ∃ (labels : List EmitTraceEvent.Label) (next : Machine Thread), (system transport Thread).Path machine
    (labels.map (.producer thread)) next ∧ next.shared.wakeEvent = true
  always : ∀ (labels : List EmitTraceEvent.Label) (next : Machine Thread), (system transport Thread).Path machine
    (labels.map (.producer thread)) next → next.producers thread = .idle →
    .setEventFailed ∉ labels → .setEvent ∈ labels

section Signal

variable [DecidableEq Thread] {transport : Transport} {machine : Machine Thread} {thread : Thread}

/-- The first step of a path of one thread. -/
theorem path_cons {label : EmitTraceEvent.Label} {labels : List EmitTraceEvent.Label}
    {next : Machine Thread}
    (path : (system transport Thread).Path machine
      ((label :: labels).map (.producer thread)) next) :
    ∃ shared pc, EmitTraceEvent.Step transport machine.shared (machine.producers thread) label
        shared pc ∧
      (system transport Thread).Path
        { machine with
          shared := shared
          producers := Function.update machine.producers thread pc }
        (labels.map (.producer thread)) next := by
  rw [List.map_cons, ← List.singleton_append] at path
  obtain ⟨middle, first, rest⟩ := path.split
  cases first.step_of_singleton with
  | producer step => exact ⟨_, _, step, rest⟩

theorem willSignal_of_atSetEvent (atSetEvent : EmitTraceEvent.AtSetEvent (machine.producers thread)) :
    WillSignal transport machine thread := by
  obtain ⟨event, position, pcEq⟩ := atSetEvent
  refine ⟨.inr ⟨event, position, pcEq⟩, ?_, ?_⟩
  · have own : EmitTraceEvent.Step transport machine.shared (machine.producers thread) .setEvent
        { machine.shared with wakeEvent := true } (.finish event position) := by
      rw [pcEq]
      exact .setEvent
    exact ⟨[.setEvent], _, .single (Step.producer own), rfl⟩
  · intro labels next path returned succeeded
    cases labels with
    | nil =>
        rw [← path.eq_of_nil, pcEq] at returned
        cases returned
    | cons label labels =>
        obtain ⟨shared, pc, step, _⟩ := path_cons path
        rw [pcEq] at step
        cases step with
        | setEvent => exact List.mem_cons_self
        | setEventFailed => exact absurd List.mem_cons_self succeeded

theorem willSignal_of_atWake (configured : (transport.wakeEvent && transport.ntSetEvent) = true)
    (atWake : EmitTraceEvent.AtWake (machine.producers thread))
    (first : machine.shared.ring.wakePending = 0) : WillSignal transport machine thread := by
  obtain ⟨event, position, pcEq⟩ := atWake
  have own : EmitTraceEvent.Step transport machine.shared (machine.producers thread) .requestWake
      { machine.shared with ring := { machine.shared.ring with wakePending := 1 } }
      (.setEvent event position) := by
    rw [pcEq]
    exact .requestFirst configured first
  have behind : WillSignal transport { machine with
        shared := { machine.shared with ring := { machine.shared.ring with wakePending := 1 } }
        producers := Function.update machine.producers thread (.setEvent event position) } thread :=
    willSignal_of_atSetEvent ⟨event, position, by simp⟩
  refine ⟨.inl ⟨event, position, pcEq⟩, ?_, ?_⟩
  · obtain ⟨labels, next, path, signalled⟩ := behind.signals
    exact ⟨.requestWake :: labels, next, .cons (Step.producer own) path, signalled⟩
  · intro labels next path returned succeeded
    cases labels with
    | nil =>
        rw [← path.eq_of_nil, pcEq] at returned
        cases returned
    | cons label labels =>
        obtain ⟨shared, pc, step, rest⟩ := path_cons path
        rw [pcEq] at step
        cases step with
        | skipWake off => simp [configured] at off
        | requestAgain _ again => exact absurd first again
        | requestFirst =>
            exact List.mem_cons_of_mem _
              (behind.always labels next rest returned fun failed =>
                succeeded (List.mem_cons_of_mem _ failed))

end Signal

end Ring

namespace TraceSession

variable {Thread : Type*}

/-- Between the reset of `wakePending` and the next batch. -/
def ReaderLoop.Pc.armed : ReaderLoop.Pc → Bool
  | recheck _ | wait => true
  | _ => false

namespace ReaderLoop.Pc

variable {pc : ReaderLoop.Pc}

theorem armed_of_missed (call : pc.reads = true) (after : pc.missed.armed = true) :
    pc.armed = true := by
  cases pc <;> simp_all [reads, missed, armed]

theorem not_armed_read (call : pc.reads = true) (event : TraceEvent) :
    (pc.read event).armed = false := by
  cases pc <;> simp_all [reads, read, armed]

theorem ne_wait_of_reads (call : pc.reads = true) : pc ≠ wait := by
  rintro rfl
  cases call

end ReaderLoop.Pc

/-- Whoever keeps a waiting reader from sleeping through a published head. -/
structure WakeInvariant (machine : Machine Thread) : Prop where
  noRetreat : ∀ thread event position, machine.ring.producers thread ≠ .clearWake event position
  armed : machine.loops.reader.armed = true → machine.ring.shared.ring.wakePending ≠ 0 →
    machine.ring.shared.wakeEvent = true ∨
      ∃ thread, EmitTraceEvent.AtSetEvent (machine.ring.producers thread)
  missed : machine.loops.reader = .wait → Ring.HeadPublished machine.ring.shared.ring →
    machine.ring.shared.ring.wakePending ≠ 0 ∨
      ∃ thread, EmitTraceEvent.AtWake (machine.ring.producers thread)

section Steps

variable {machine : Machine Thread}

/-- The reader's steps on the ring keep the invariant. -/
theorem WakeInvariant.reader {label : TryReadRing.Label} {shared : Shared} {pc : TryReadRing.Pc}
    {loop : ReaderLoop.Pc} (inv : WakeInvariant machine)
    (current : Ring.ReaderLocal machine.ring.shared.ring machine.ring.reader)
    (onRing : ReaderLoop.OnRing machine.loops.reader label loop)
    (taken : TryReadRing.Step machine.ring.shared machine.ring.reader label shared pc) :
    WakeInvariant { machine with
      ring := { machine.ring with shared := shared, reader := pc }
      loops := { machine.loops with reader := loop } } := by
  generalize loopEq : machine.loops.reader = before at onRing
  generalize machine.ring.reader = reader at taken current
  cases onRing with
  | miss call =>
      cases taken with
      | miss unpublished =>
          refine ⟨inv.noRetreat, fun armed => ?_, fun _ published => ?_⟩
          · exact inv.armed (loopEq ▸ ReaderLoop.Pc.armed_of_missed call armed)
          · rw [show _ = machine.ring.shared.ring.dequeuePosition from current] at unpublished
            exact absurd published unpublished
  | @deliver _ event call =>
      have quiet := ReaderLoop.Pc.not_armed_read call event
      refine ⟨?_, fun armed => ?_, fun waiting => ?_⟩
      · cases taken
        exact inv.noRetreat
      · simp [quiet] at armed
      · simp [show before.read event = .wait from waiting, ReaderLoop.Pc.armed] at quiet
  | clearWake =>
      cases taken
      refine ⟨inv.noRetreat, fun _ pending => absurd rfl pending, fun waiting => ?_⟩
      cases waiting
  | consumeWake =>
      cases taken
      refine ⟨inv.noRetreat, fun armed => ?_, fun waiting => ?_⟩
      · cases armed
      · cases waiting
  | release call =>
      cases taken
      exact ⟨inv.noRetreat, fun armed => inv.armed (loopEq ▸ armed),
        fun waiting => absurd waiting (ReaderLoop.Pc.ne_wait_of_reads call)⟩
  | loadPosition call | hit call | copy call =>
      cases taken
      subst loopEq
      exact ⟨inv.noRetreat, inv.armed, inv.missed⟩

/-- The steps of the loops off the ring keep the invariant. -/
theorem WakeInvariant.loop {stopEvent : Bool} {label : LoopLabel} {loops : Loops}
    (inv : WakeInvariant machine)
    (taken : LoopStep machine.ring.shared stopEvent machine.loops label loops) :
    WakeInvariant { machine with loops := loops } := by
  have kept : loops.reader.armed = true → loops.reader = machine.loops.reader := by
    intro armed
    cases taken with
    | report =>
        split_ifs at armed <;> cases armed
    | notifyNotFull =>
        revert armed
        cases machine.loops.reader <;> simp [ReaderLoop.Pc.notified, ReaderLoop.Pc.armed]
    | sleepNotEmpty | wakeNotEmpty | pop | leave | render => rfl
    | _ => cases armed
  refine ⟨inv.noRetreat, fun armed => ?_, fun waiting => ?_⟩
  · exact inv.armed (kept armed ▸ armed)
  · have armed : loops.reader.armed = true := by
      rw [waiting]
      rfl
    exact inv.missed (kept armed ▸ waiting)

variable [DecidableEq Thread]

/-- A producer that does not touch the wake state and does not publish. -/
theorem WakeInvariant.quiet {thread : Thread} {shared : Shared} {pc : EmitTraceEvent.Pc}
    (inv : WakeInvariant machine)
    (noWake : ¬EmitTraceEvent.AtWake (machine.ring.producers thread))
    (noSetEvent : ¬EmitTraceEvent.AtSetEvent (machine.ring.producers thread))
    (noRetreat : ∀ event position, pc ≠ .clearWake event position)
    (sameEvent : shared.wakeEvent = machine.ring.shared.wakeEvent)
    (samePending : shared.ring.wakePending = machine.ring.shared.ring.wakePending)
    (sameHead : Ring.HeadPublished shared.ring → Ring.HeadPublished machine.ring.shared.ring) :
    WakeInvariant { machine with
      ring := { machine.ring with
        shared := shared
        producers := Function.update machine.ring.producers thread pc } } := by
  refine ⟨fun other event position => ?_, fun armed pending => ?_, fun waiting published => ?_⟩
  · by_cases same : other = thread
    · subst same
      simpa using noRetreat event position
    · simpa [Function.update_of_ne same] using inv.noRetreat other event position
  · rcases inv.armed armed (samePending ▸ pending) with signalled | found
    · exact .inl (sameEvent.trans signalled)
    · exact .inr (Ring.exists_update found noSetEvent)
  · rcases inv.missed waiting (sameHead published) with pending | found
    · exact .inl (samePending ▸ pending)
    · exact .inr (Ring.exists_update found noWake)

/-- A producer's step keeps the invariant unless setting the event fails. -/
theorem WakeInvariant.producer {thread : Thread} {label : EmitTraceEvent.Label} {shared : Shared}
    {pc : EmitTraceEvent.Pc} (inv : WakeInvariant machine)
    (taken : EmitTraceEvent.Step ⟨true, true⟩ machine.ring.shared (machine.ring.producers thread)
      label shared pc)
    (succeeded : label ≠ .setEventFailed) :
    WakeInvariant { machine with
      ring := { machine.ring with
        shared := shared
        producers := Function.update machine.ring.producers thread pc } } := by
  have noRetreat : ∀ other event position,
      Function.update machine.ring.producers thread pc other ≠ .clearWake event position := by
    intro other event position
    by_cases same : other = thread
    · subst same
      simpa using fun retreats => succeeded (taken.retreat retreats)
    · simpa [Function.update_of_ne same] using inv.noRetreat other event position
  by_cases atWake : EmitTraceEvent.AtWake (machine.ring.producers thread)
  · -- Either this thread is the first and goes on to set the event, or another one was.
    obtain ⟨event, position, pcEq⟩ := atWake
    rw [pcEq] at taken
    cases taken with
    | skipWake off => cases off
    | requestFirst =>
        refine ⟨noRetreat, fun _ _ => .inr ?_, fun _ _ => .inl (by simp)⟩
        exact Ring.exists_update_self ⟨event, position, rfl⟩
    | requestAgain _ again =>
        refine ⟨noRetreat, fun armed _ => ?_, fun _ _ => .inl (by simp)⟩
        rcases inv.armed armed again with signalled | found
        · exact .inl signalled
        · refine .inr (Ring.exists_update found ?_)
          rintro ⟨_, _, atSetEvent⟩
          rw [pcEq] at atSetEvent
          cases atSetEvent
  by_cases atSetEvent : EmitTraceEvent.AtSetEvent (machine.ring.producers thread)
  · obtain ⟨event, position, pcEq⟩ := atSetEvent
    rw [pcEq] at taken
    cases taken with
    | setEventFailed => exact absurd rfl succeeded
    | setEvent =>
        refine ⟨noRetreat, fun _ _ => .inl rfl, fun waiting published => ?_⟩
        rcases inv.missed waiting published with pending | found
        · exact .inl pending
        · exact .inr (Ring.exists_update found atWake)
  by_cases publishes : ∃ position, label = .publish position
  · obtain ⟨position, rfl⟩ := publishes
    generalize pcEq : machine.ring.producers thread = before at taken
    cases taken with
    | @publish event _ copied =>
        refine ⟨noRetreat, fun armed pending => ?_, fun _ _ => .inr ?_⟩
        · rcases inv.armed armed pending with signalled | found
          · exact .inl signalled
          · exact .inr (Ring.exists_update found atSetEvent)
        · exact Ring.exists_update_self ⟨event, position, rfl⟩
  · obtain ⟨sameEvent, samePending, sameNumbers⟩ := taken.quiet atWake atSetEvent
      (inv.noRetreat thread) fun position isPublish => publishes ⟨position, isPublish⟩
    refine inv.quiet atWake atSetEvent
      (fun event position retreats => succeeded (taken.retreat retreats)) sameEvent samePending ?_
    rw [Ring.HeadPublished, Ring.HeadPublished, Ring.producer_dequeuePosition taken, sameNumbers]
    exact id

/-- In every run in which `NtSetEvent` succeeds. -/
theorem Run.wakeInvariant {history : List (Label Thread)}
    (run : (system ⟨true, true⟩ Thread).Run history machine)
    (succeeds : ∀ thread, .ring (.producer thread .setEventFailed) ∉ history) :
    WakeInvariant machine := by
  have inv := @System.Run.invariant _ _ _
    (fun history machine => (∀ thread, .ring (.producer thread .setEventFailed) ∉ history) →
      WakeInvariant machine ∧ Ring.ReaderLocal machine.ring.shared.ring machine.ring.reader)
    ?_ ?_ _ _ run
  · exact (inv succeeds).1
  · rintro machine ⟨⟨_, idle, readerIdle⟩, loops, _⟩ _
    refine ⟨⟨fun thread event position => ?_, ?_, ?_⟩, ?_⟩
    · simp [idle]
    · simp [loops, ReaderLoop.Pc.armed]
    · simp [loops]
    · rw [readerIdle]
      exact True.intro
  · intro history machine label next held taken succeeds
    obtain ⟨inv, current⟩ := held fun thread failed =>
      succeeds thread (List.mem_append_left _ failed)
    cases taken with
    | @producer thread label ring _ step =>
        have succeeded : label ≠ .setEventFailed := by
          rintro rfl
          exact succeeds thread (by simp)
        cases step with
        | producer step =>
            exact ⟨inv.producer step succeeded, current.congr (Ring.producer_dequeuePosition step)⟩
    | reader onRing step =>
        cases step with
        | reader step => exact ⟨inv.reader current onRing step, Ring.reader_local step current⟩
    | loop step => exact ⟨inv.loop step, current⟩
    | exit | stop => exact ⟨⟨inv.noRetreat, inv.armed, inv.missed⟩, current⟩

/-- While the reader sleeps on a published head, a producer is due to wake it. -/
theorem no_lost_wakeup {history : List (Label Thread)}
    (run : (system ⟨true, true⟩ Thread).Run history machine)
    (succeeds : ∀ thread, .ring (.producer thread .setEventFailed) ∉ history)
    (waiting : machine.loops.reader = .wait)
    (unsignalled : machine.ring.shared.wakeEvent = false)
    (published : Ring.HeadPublished machine.ring.shared.ring) :
    ∃ thread, Ring.WillSignal ⟨true, true⟩ machine.ring thread := by
  have inv := Run.wakeInvariant run succeeds
  by_cases pending : machine.ring.shared.ring.wakePending = 0
  · obtain nonzero | ⟨thread, atWake⟩ := inv.missed waiting published
    · exact absurd pending nonzero
    · exact ⟨thread, Ring.willSignal_of_atWake rfl atWake pending⟩
  · have armed : machine.loops.reader.armed = true := by
      rw [waiting]
      rfl
    obtain signalled | ⟨thread, atSetEvent⟩ := inv.armed armed pending
    · simp [unsignalled] at signalled
    · exact ⟨thread, Ring.willSignal_of_atSetEvent atSetEvent⟩

/-! ## A reader asleep on a published head -/

/-- The reader finds the ring empty twice and waits; then an event is published. -/
def sleepHistory : List (Label Unit) :=
  [.ring (.reader .loadPosition), .ring (.reader .miss), .loop (.report 0),
    .ring (.reader .clearWake), .ring (.reader .loadPosition), .ring (.reader .miss),
    .ring (.producer () (.call Ring.sampleEvent)),
    .ring (.producer () (.takeSequence (EmitTraceEvent.withSequence Ring.sampleEvent 1))),
    .ring (.producer () (.loadPosition 0)),
    .ring (.producer () (.loadSequence 0)),
    .ring (.producer () (.claim (EmitTraceEvent.withSequence Ring.sampleEvent 1) 0)),
    .ring (.producer () (.copy 34)),
    .ring (.producer () (.publish 0))]

theorem sleep_run : ∃ machine, (system ⟨true, true⟩ Unit).Run sleepHistory machine ∧
    machine.loops.reader = .wait ∧ machine.ring.shared.wakeEvent = false ∧
    Ring.HeadPublished machine.ring.shared.ring := by
  refine System.Admits.run ?_ startMachine_initial
  refine .cons (.reader (.loadPosition rfl) (.reader .loadPosition)) ?_
  refine .cons (.reader (.miss rfl) (.reader (.miss (by decide)))) ?_
  refine .cons (.loop (.report rfl)) ?_
  refine .cons (.reader .clearWake (.reader .clearWake)) ?_
  refine .cons (.reader (.loadPosition rfl) (.reader .loadPosition)) ?_
  refine .cons (.reader (.miss rfl) (.reader (.miss (by decide)))) ?_
  refine .cons (.producer rfl (.producer (.call (by decide)))) ?_
  refine .cons (.producer rfl (.producer .takeSequence)) ?_
  refine .cons (.producer rfl (.producer .loadPosition)) ?_
  refine .cons (.producer rfl (.producer (.free (by decide)))) ?_
  refine .cons (.producer rfl (.producer (.claim rfl))) ?_
  refine .cons (.producer rfl (.producer (.copy (by decide)))) ?_
  refine .cons (.producer rfl (.producer (.publish rfl))) ?_
  exact .nil ⟨rfl, rfl, rfl⟩

theorem no_lost_wakeup_sleep : ∃ machine,
    (system ⟨true, true⟩ Unit).Run sleepHistory machine ∧ machine.loops.reader = .wait ∧
    ∃ thread, Ring.WillSignal ⟨true, true⟩ machine.ring thread := by
  obtain ⟨machine, run, waiting, unsignalled, published⟩ := sleep_run
  exact ⟨machine, run, waiting,
    no_lost_wakeup run (by simp [sleepHistory]) waiting unsignalled published⟩

end Steps

end TraceSession

end ApiScope
