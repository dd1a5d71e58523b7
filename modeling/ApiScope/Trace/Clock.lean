import ApiScope.Library.Transition
import Mathlib.Algebra.Group.Nat.Defs

/-!
# The clock of an event

`GetSystemTime100nsFast` of `trace_transport.cpp` beside the kernel, which writes
every time in three parts.  The reader takes the parts in the reverse order, so the
versions that it finds do not decrease, and between two equal high parts the high
part has not changed.
-/

namespace ApiScope

open Transition

structure SharedSystemTime where
  lowPart : UInt32
  high1Time : Int32
  high2Time : Int32
  deriving DecidableEq

namespace GetSystemTime100nsFast

/-! ## The kernel and the reader -/

/-- The value of `High1Time` and `High2Time` for a time. -/
def highTime (time : UInt64) : Int32 := (time >>> 32).toUInt32.toInt32

/-- The value of `LowPart` for a time. -/
def lowPart (time : UInt64) : UInt32 := time.toUInt32

/-- The returned expression. -/
def value (high1Time : Int32) (lowPart : UInt32) : UInt64 :=
  (high1Time.toUInt32.toUInt64 <<< 32) ||| lowPart.toUInt64

/-- Where the kernel is. -/
inductive Writer where
  | rests
  | wroteHigh2Time
  | wroteLowPart
  deriving DecidableEq

/-- Where the reader is, with its local variables. -/
inductive Reader where
  | idle
  | loop
  | hasHigh1Time (high1Time : Int32)
  | hasLowPart (high1Time : Int32) (lowPart : UInt32)
  | returned (value : UInt64)
  deriving DecidableEq

structure State where
  systemTime : SharedSystemTime
  /-- How many times have been written whole, behind the first. -/
  written : Nat
  writer : Writer
  reader : Reader

inductive Label where
  | writeHigh2Time
  | writeLowPart
  | writeHigh1Time
  | call
  | readHigh1Time
  | readLowPart
  | readHigh2Time
  deriving DecidableEq

inductive Step (times : Nat → UInt64) : State → Label → State → Prop where
  | writeHigh2Time {state : State} : state.writer = .rests →
      Step times state .writeHigh2Time
        { state with
          systemTime :=
            { state.systemTime with high2Time := highTime (times (state.written + 1)) }
          writer := .wroteHigh2Time }
  | writeLowPart {state : State} : state.writer = .wroteHigh2Time →
      Step times state .writeLowPart
        { state with
          systemTime := { state.systemTime with lowPart := lowPart (times (state.written + 1)) }
          writer := .wroteLowPart }
  | writeHigh1Time {state : State} : state.writer = .wroteLowPart →
      Step times state .writeHigh1Time
        { state with
          systemTime :=
            { state.systemTime with high1Time := highTime (times (state.written + 1)) }
          written := state.written + 1
          writer := .rests }
  | call {state : State} : state.reader = .idle →
      Step times state .call { state with reader := .loop }
  | readHigh1Time {state : State} : state.reader = .loop →
      Step times state .readHigh1Time
        { state with reader := .hasHigh1Time state.systemTime.high1Time }
  | readLowPart {state : State} {high1Time : Int32} : state.reader = .hasHigh1Time high1Time →
      Step times state .readLowPart
        { state with reader := .hasLowPart high1Time state.systemTime.lowPart }
  | readHigh2Time {state : State} {high1Time : Int32} {lowPart : UInt32} :
      state.reader = .hasLowPart high1Time lowPart →
      Step times state .readHigh2Time
        { state with
          reader :=
            if high1Time ≠ state.systemTime.high2Time then .loop
            else .returned (value high1Time lowPart) }

/-- The kernel publishes a sequence of times; the first is there from the start. -/
def system (times : Nat → UInt64) : System State Label where
  initial := fun state =>
    state = ⟨⟨lowPart (times 0), highTime (times 0), highTime (times 0)⟩, 0, .rests, .idle⟩
  step := Step times

/-! ## The parts of a time -/

theorem toNat_highTime (time : UInt64) :
    (highTime time).toUInt32.toNat = time.toNat / 2 ^ 32 := by
  have small := time.toNat_lt
  rw [highTime, UInt32.toUInt32_toInt32, UInt64.toNat_toUInt32, UInt64.toNat_shiftRight,
    Nat.shiftRight_eq_div_pow]
  exact Nat.mod_eq_of_lt (by simpa using by omega)

theorem value_highTime_lowPart (time : UInt64) : value (highTime time) (lowPart time) = time := by
  have small := time.toNat_lt
  apply UInt64.toNat_inj.mp
  rw [value, UInt64.toNat_or, UInt64.toNat_shiftLeft, UInt32.toNat_toUInt64,
    UInt32.toNat_toUInt64, toNat_highTime, lowPart, UInt64.toNat_toUInt32]
  have whole : time.toNat / 2 ^ 32 * 2 ^ 32 + time.toNat % 2 ^ 32 = time.toNat :=
    Nat.div_add_mod' _ _
  have fits : (time.toNat / 2 ^ 32) <<< 32 < 2 ^ 64 := by
    rw [Nat.shiftLeft_eq]
    omega
  calc (time.toNat / 2 ^ 32) <<< 32 % 2 ^ 64 ||| time.toNat % 2 ^ 32
      = (time.toNat / 2 ^ 32) <<< 32 ||| time.toNat % 2 ^ 32 := by rw [Nat.mod_eq_of_lt fits]
    _ = (time.toNat / 2 ^ 32) <<< 32 + time.toNat % 2 ^ 32 :=
        (Nat.shiftLeft_add_eq_or_of_lt (Nat.mod_lt _ (by decide)) _).symm
    _ = time.toNat := by rw [Nat.shiftLeft_eq, whole]

/-- The times do not decrease. -/
def Ordered (times : Nat → UInt64) : Prop :=
  ∀ first second, first ≤ second → times first ≤ times second

/-- A high part that is the same at both ends does not change between them. -/
theorem highTime_between {times : Nat → UInt64} (ordered : Ordered times) {a b c : Nat}
    (ab : a ≤ b) (bc : b ≤ c) (same : highTime (times a) = highTime (times c)) :
    highTime (times b) = highTime (times a) := by
  have lower := UInt64.le_iff_toNat_le.mp (ordered a b ab)
  have upper := UInt64.le_iff_toNat_le.mp (ordered b c bc)
  have ends := congrArg (fun high : Int32 => high.toUInt32.toNat) same
  simp only [toNat_highTime] at ends
  have middle : (highTime (times b)).toUInt32.toNat = (highTime (times a)).toUInt32.toNat := by
    rw [toNat_highTime, toNat_highTime]
    apply Nat.le_antisymm
    · exact ends ▸ Nat.div_le_div_right upper
    · exact Nat.div_le_div_right lower
  exact congrArg UInt32.toInt32 (UInt32.toNat_inj.mp middle)

/-! ## The history of a run -/

/-- The versions of `High2Time`, `LowPart` and `High1Time`. -/
def begun (labels : List Label) : Nat := labels.count .writeHigh2Time

/-- A time is current from when its low part is written. -/
def current (labels : List Label) : Nat := labels.count .writeLowPart

def complete (labels : List Label) : Nat := labels.count .writeHigh1Time

section Counts

variable (first second : List Label)

theorem begun_append : begun (first ++ second) = begun first + begun second := List.count_append

theorem current_append : current (first ++ second) = current first + current second :=
  List.count_append

theorem complete_append : complete (first ++ second) = complete first + complete second :=
  List.count_append

end Counts

/-- The reads among the labels. -/
def reads (labels : List Label) : List Label :=
  labels.filter fun label =>
    label = .readHigh1Time ∨ label = .readLowPart ∨ label = .readHigh2Time

theorem reads_append (first second : List Label) :
    reads (first ++ second) = reads first ++ reads second :=
  List.filter_append ..

/-- The versions of the three parts, by where the kernel is. -/
def Writer.Versions (writer : Writer) (labels : List Label) (written : Nat) : Prop :=
  complete labels = written ∧
  match writer with
  | .rests => current labels = written ∧ begun labels = written
  | .wroteHigh2Time => current labels = written ∧ begun labels = written + 1
  | .wroteLowPart => current labels = written + 1 ∧ begun labels = written + 1

theorem Writer.Versions.inOrder {writer : Writer} {labels : List Label} {written : Nat}
    (versions : writer.Versions labels written) :
    complete labels ≤ current labels ∧ current labels ≤ begun labels := by
  obtain ⟨isComplete, rest⟩ := versions
  cases writer <;> obtain ⟨isCurrent, isBegun⟩ := rest <;> omega

/-- What the reader has read in the iteration that it is in, and when. -/
inductive Sees (times : Nat → UInt64) (labels : List Label) : Reader → Prop where
  | idle : Sees times labels .idle
  | loop : .call ∈ labels → Sees times labels .loop
  | hasHigh1Time {before during : List Label} :
      labels = before ++ .readHigh1Time :: during → .call ∈ before → reads during = [] →
      Sees times labels (.hasHigh1Time (highTime (times (complete before))))
  | hasLowPart {before during after : List Label} :
      labels = before ++ .readHigh1Time :: during ++ .readLowPart :: after →
      .call ∈ before → reads during = [] → reads after = [] →
      Sees times labels (.hasLowPart (highTime (times (complete before)))
        (lowPart (times (current (before ++ .readHigh1Time :: during)))))
  | returned {before during after : List Label} :
      labels = before ++ .readHigh1Time :: during ++ .readLowPart :: after →
      .call ∈ before → reads during = [] → reads after = [.readHigh2Time] →
      highTime (times (complete before)) =
        highTime (times (current (before ++ .readHigh1Time :: during))) →
      Sees times labels (.returned (times (current (before ++ .readHigh1Time :: during))))

/-- What is not a read leaves the reader where it is. -/
theorem Sees.extend {times : Nat → UInt64} {labels : List Label} {reader : Reader}
    (sees : Sees times labels reader) {label : Label} (noRead : reads [label] = []) :
    Sees times (labels ++ [label]) reader := by
  cases sees with
  | idle => exact .idle
  | loop called => exact .loop (List.mem_append_left _ called)
  | @hasHigh1Time before during split called quiet =>
      refine @Sees.hasHigh1Time _ _ before (during ++ [label]) ?_ called ?_
      · simp [split]
      · rw [reads_append, quiet, noRead, List.append_nil]
  | @hasLowPart before during after split called quiet quietAfter =>
      refine @Sees.hasLowPart _ _ before during (after ++ [label]) ?_ called quiet ?_
      · simp [split]
      · rw [reads_append, quietAfter, noRead, List.append_nil]
  | @returned before during after split called quiet last same =>
      refine @Sees.returned _ _ before during (after ++ [label]) ?_ called quiet ?_ same
      · simp [split]
      · rw [reads_append, last, noRead, List.append_nil]

/-- What holds of every run. -/
structure Invariant (times : Nat → UInt64) (labels : List Label) (state : State) : Prop where
  high1Time : state.systemTime.high1Time = highTime (times (complete labels))
  lowPart : state.systemTime.lowPart = lowPart (times (current labels))
  high2Time : state.systemTime.high2Time = highTime (times (begun labels))
  versions : state.writer.Versions labels state.written
  inOrder : ∀ before, before <+: labels → complete before ≤ current before ∧
    current before ≤ begun before
  sees : Sees times labels state.reader

section Runs

variable {times : Nat → UInt64} {labels : List Label} {state next : State} {label : Label}

theorem invariant_initial (isInitial : (system times).initial state) :
    Invariant times [] state := by
  obtain rfl := isInitial
  refine ⟨rfl, rfl, rfl, ⟨rfl, rfl, rfl⟩, fun before isPrefix => ?_, .idle⟩
  rw [List.prefix_nil.mp isPrefix]
  exact ⟨Nat.le_refl _, Nat.le_refl _⟩

/-- The order of the versions so far and behind the next step. -/
theorem inOrder_concat
    (inOrder : ∀ before, before <+: labels → complete before ≤ current before ∧
      current before ≤ begun before)
    (last : complete (labels ++ [label]) ≤ current (labels ++ [label]) ∧
      current (labels ++ [label]) ≤ begun (labels ++ [label])) :
    ∀ before, before <+: labels ++ [label] → complete before ≤ current before ∧
      current before ≤ begun before := by
  intro before isPrefix
  rcases List.prefix_concat_iff.mp isPrefix with rfl | earlier
  · exact last
  · exact inOrder before earlier

/-- A step of the reader leaves the versions alone. -/
theorem versions_read {writer : Writer} {written : Nat} (isRead : label ≠ .writeHigh2Time ∧
    label ≠ .writeLowPart ∧ label ≠ .writeHigh1Time) :
    begun (labels ++ [label]) = begun labels ∧ current (labels ++ [label]) = current labels ∧
      complete (labels ++ [label]) = complete labels ∧
      (writer.Versions (labels ++ [label]) written ↔ writer.Versions labels written) := by
  have isBegun : begun (labels ++ [label]) = begun labels := by
    simp [begun, isRead.1]
  have isCurrent : current (labels ++ [label]) = current labels := by
    simp [current, isRead.2.1]
  have isComplete : complete (labels ++ [label]) = complete labels := by
    simp [complete, isRead.2.2]
  refine ⟨isBegun, isCurrent, isComplete, ?_⟩
  unfold Writer.Versions
  rw [isBegun, isCurrent, isComplete]

/-- The reader moves on. -/
theorem Invariant.read (invariant : Invariant times labels state) {reader : Reader}
    (isRead : label ≠ .writeHigh2Time ∧ label ≠ .writeLowPart ∧ label ≠ .writeHigh1Time)
    (sees : Sees times (labels ++ [label]) reader) :
    Invariant times (labels ++ [label]) { state with reader := reader } := by
  obtain ⟨isBegun, isCurrent, isComplete, sameVersions⟩ :=
    @versions_read labels label state.writer state.written isRead
  have versions := sameVersions.mpr invariant.versions
  refine ⟨?_, ?_, ?_, versions, inOrder_concat invariant.inOrder versions.inOrder, sees⟩
  · rw [isComplete]
    exact invariant.high1Time
  · rw [isCurrent]
    exact invariant.lowPart
  · rw [isBegun]
    exact invariant.high2Time

/-- The kernel moves on, and the reader stays where it is. -/
theorem Invariant.write (invariant : Invariant times labels state) {systemTime : SharedSystemTime}
    {written : Nat} {writer : Writer} (noRead : reads [label] = [])
    (versions : writer.Versions (labels ++ [label]) written)
    (high1Time : systemTime.high1Time = highTime (times (complete (labels ++ [label]))))
    (isLowPart : systemTime.lowPart = GetSystemTime100nsFast.lowPart
      (times (current (labels ++ [label]))))
    (high2Time : systemTime.high2Time = highTime (times (begun (labels ++ [label])))) :
    Invariant times (labels ++ [label]) ⟨systemTime, written, writer, state.reader⟩ :=
  ⟨high1Time, isLowPart, high2Time, versions,
    inOrder_concat invariant.inOrder versions.inOrder, invariant.sees.extend noRead⟩

/-- The versions that the reader has found do not decrease, so equal high parts are
those of the time whose low part it has read. -/
theorem sees_returned (ordered : Ordered times) {before during after : List Label}
    (inOrder : ∀ before, before <+: labels → complete before ≤ current before ∧
      current before ≤ begun before)
    (split : labels = before ++ .readHigh1Time :: during ++ .readLowPart :: after)
    (called : .call ∈ before) (quiet : reads during = []) (quietAfter : reads after = [])
    (same : highTime (times (complete before)) = highTime (times (begun labels))) :
    Sees times (labels ++ [.readHigh2Time])
      (.returned (value (highTime (times (complete before)))
        (lowPart (times (current (before ++ .readHigh1Time :: during)))))) := by
  have lower : complete before ≤ current (before ++ .readHigh1Time :: during) := by
    have early := (inOrder before ⟨_, by rw [split, List.append_assoc]⟩).1
    rw [current_append]
    exact Nat.le_trans early (Nat.le_add_right _ _)
  have upper : current (before ++ .readHigh1Time :: during) ≤ begun labels := by
    have early := (inOrder (before ++ .readHigh1Time :: during) ⟨_, split.symm⟩).2
    rw [split, begun_append]
    exact Nat.le_trans early (Nat.le_add_right _ _)
  have high := highTime_between ordered lower upper same
  rw [← high, value_highTime_lowPart]
  refine @Sees.returned _ _ before during (after ++ [.readHigh2Time]) ?_ called quiet ?_ high.symm
  · simp [split]
  · rw [reads_append, quietAfter]
    rfl

theorem Invariant.step (ordered : Ordered times) (invariant : Invariant times labels state)
    (taken : Step times state label next) : Invariant times (labels ++ [label]) next := by
  have sees := invariant.sees
  have versions := invariant.versions
  cases taken with
  | writeHigh2Time writer =>
      rw [writer] at versions
      obtain ⟨isComplete, isCurrent, isBegun⟩ := versions
      refine invariant.write rfl ⟨?_, ?_, ?_⟩ ?_ ?_ ?_
      · simpa [complete] using isComplete
      · simpa [current] using isCurrent
      · simpa [begun] using isBegun
      · rw [complete_append]
        exact invariant.high1Time
      · rw [current_append]
        exact invariant.lowPart
      · rw [begun_append, isBegun]
        rfl
  | writeLowPart writer =>
      rw [writer] at versions
      obtain ⟨isComplete, isCurrent, isBegun⟩ := versions
      refine invariant.write rfl ⟨?_, ?_, ?_⟩ ?_ ?_ ?_
      · simpa [complete] using isComplete
      · simpa [current] using isCurrent
      · simpa [begun] using isBegun
      · rw [complete_append]
        exact invariant.high1Time
      · rw [current_append, isCurrent]
        rfl
      · rw [begun_append]
        exact invariant.high2Time
  | writeHigh1Time writer =>
      rw [writer] at versions
      obtain ⟨isComplete, isCurrent, isBegun⟩ := versions
      refine invariant.write rfl ⟨?_, ?_, ?_⟩ ?_ ?_ ?_
      · simpa [complete] using isComplete
      · simpa [current] using isCurrent
      · simpa [begun] using isBegun
      · rw [complete_append, isComplete]
        rfl
      · rw [current_append]
        exact invariant.lowPart
      · rw [begun_append]
        exact invariant.high2Time
  | call reader =>
      exact invariant.read (by decide) (.loop (by simp))
  | readHigh1Time reader =>
      rw [reader] at sees
      cases sees with
      | loop called =>
          rw [invariant.high1Time]
          exact invariant.read (by decide) (@Sees.hasHigh1Time _ _ labels [] rfl called rfl)
  | readLowPart reader =>
      rw [reader] at sees
      cases sees with
      | @hasHigh1Time before during split called quiet =>
          rw [invariant.lowPart, split]
          refine (split ▸ invariant).read (by decide) ?_
          exact @Sees.hasLowPart _ _ before during [] rfl called quiet rfl
  | readHigh2Time reader =>
      rw [reader] at sees
      cases sees with
      | @hasLowPart before during after split called quiet quietAfter =>
          rw [invariant.high2Time]
          refine invariant.read (by decide) ?_
          split_ifs with differ
          · refine .loop ?_
            simp [split, called]
          · exact sees_returned ordered invariant.inOrder split called quiet quietAfter
              (not_not.mp differ)

theorem invariant_of_run (ordered : Ordered times) (run : (system times).Run labels state) :
    Invariant times labels state :=
  run.invariant (fun _ => invariant_initial) fun _ _ _ _ invariant taken =>
    invariant.step ordered taken

end Runs

/-- The returned time is the one that was current when its low part was read, in the
last iteration; the high part that was read is that of the same time. -/
theorem timestamp_published (times : Nat → UInt64) (ordered : Ordered times)
    (labels : List Label) (state : State) (run : (system times).Run labels state)
    (time : UInt64) (returned : state.reader = .returned time) :
    ∃ before during after,
      labels = before ++ .readHigh1Time :: during ++ .readLowPart :: after ∧
      .call ∈ before ∧ reads during = [] ∧ reads after = [.readHigh2Time] ∧
      ∃ version, time = times version ∧
        (version = current before ∨
          .writeLowPart ∈ during ∧ version = current (before ++ .readHigh1Time :: during)) ∧
        complete before ≤ version ∧ version ≤ begun (before ++ .readHigh1Time :: during) ∧
        highTime (times (complete before)) = highTime (times version) := by
  have invariant := invariant_of_run ordered run
  have sees := invariant.sees
  rw [returned] at sees
  cases sees with
  | @returned before during after split called quiet last same =>
      have early := (invariant.inOrder before ⟨_, by rw [split, List.append_assoc]⟩).1
      have late := (invariant.inOrder (before ++ .readHigh1Time :: during) ⟨_, split.symm⟩).2
      have since : current (before ++ .readHigh1Time :: during) =
          current before + during.count .writeLowPart := by
        simp [current]
      refine ⟨before, during, after, split, called, quiet, last, _, rfl, ?_, by omega, late, same⟩
      by_cases published : .writeLowPart ∈ during
      · exact Or.inr ⟨published, rfl⟩
      · rw [List.count_eq_zero_of_not_mem published] at since
        exact Or.inl since

namespace Sample

/-- The second time carries into the high part. -/
def times (version : Nat) : UInt64 := if version = 0 then 0x1FFFFFFFF else 0x200000000

theorem ordered : Ordered times := by
  intro first second before
  unfold times
  split_ifs
  · decide
  · decide
  · omega
  · decide

/-- The reader sees the first time's low part with the second one's high part, tries
again and sees the second one's low part with the first one's high part. -/
def labels : List Label :=
  [.call, .writeHigh2Time, .readHigh1Time, .readLowPart, .readHigh2Time,
    .readHigh1Time, .writeLowPart, .readLowPart, .readHigh2Time,
    .writeHigh1Time, .readHigh1Time, .readLowPart, .readHigh2Time]

theorem run : ∃ state, (system times).Run labels state ∧
    state.reader = .returned 0x200000000 := by
  have admits : (system times).Admits
      ⟨⟨lowPart (times 0), highTime (times 0), highTime (times 0)⟩, 0, .rests, .idle⟩ labels
      fun state => state.reader = .returned 0x200000000 :=
    .cons (.call rfl) <| .cons (.writeHigh2Time rfl) <| .cons (.readHigh1Time rfl) <|
      .cons (.readLowPart rfl) <| .cons (.readHigh2Time rfl) <| .cons (.readHigh1Time rfl) <|
      .cons (.writeLowPart rfl) <| .cons (.readLowPart rfl) <| .cons (.readHigh2Time rfl) <|
      .cons (.writeHigh1Time rfl) <| .cons (.readHigh1Time rfl) <| .cons (.readLowPart rfl) <|
      .cons (.readHigh2Time rfl) <| .nil (by decide)
  exact admits.run rfl

end Sample

theorem timestamp_published_sample :
    ∃ state, (system Sample.times).Run Sample.labels state ∧
      state.reader = .returned 0x200000000 ∧
      ∃ version, (0x200000000 : UInt64) = Sample.times version := by
  obtain ⟨state, run, returned⟩ := Sample.run
  obtain ⟨_, _, _, _, _, _, _, version, isTime, _⟩ :=
    timestamp_published Sample.times Sample.ordered Sample.labels state run _ returned
  exact ⟨state, run, returned, version, isTime⟩

end GetSystemTime100nsFast

end ApiScope
