import ApiScope.Library.Bytes
import Mathlib.Data.List.GetD

/-!
# Computations with a log

A computation beside the log of what it has done on the way, such as the spans
of bytes that it has read.  `All` says that every entry of a log is fine; it goes
through the constructs of a computation one by one.
-/

/-- A result with the log of the way to it. -/
structure Logged (Entry : Type) (Result : Type) where
  value : Result
  log : List Entry

namespace Logged

variable {Entry Result Other : Type}

instance : Monad (Logged Entry) where
  pure value := ⟨value, []⟩
  bind first next := ⟨(next first.value).value, first.log ++ (next first.value).log⟩

/-- One entry. -/
def emit (entry : Entry) (value : Result) : Logged Entry Result := ⟨value, [entry]⟩

@[simp]
theorem value_pure (value : Result) : (pure value : Logged Entry Result).value = value := rfl

@[simp]
theorem value_bind (first : Logged Entry Result) (next : Result → Logged Entry Other) :
    (first >>= next).value = (next first.value).value := rfl

@[simp]
theorem value_emit (entry : Entry) (value : Result) : (emit entry value).value = value := rfl

@[simp]
theorem log_bind (first : Logged Entry Result) (next : Result → Logged Entry Other) :
    (first >>= next).log = first.log ++ (next first.value).log := rfl

@[simp]
theorem log_pure (value : Result) : (pure value : Logged Entry Result).log = [] := rfl

@[simp]
theorem log_emit (entry : Entry) (value : Result) : (emit entry value).log = [entry] := rfl

/-- Every entry of the log is fine. -/
def All (fine : Entry → Prop) (computation : Logged Entry Result) : Prop :=
  ∀ entry ∈ computation.log, fine entry

variable {fine weaker : Entry → Prop}

@[simp]
theorem all_pure (value : Result) : All fine (pure value : Logged Entry Result) := by
  intro entry member
  cases member

@[simp]
theorem all_emit {entry : Entry} {value : Result} : All fine (emit entry value) ↔ fine entry := by
  simp [All, emit]

/-- A computation is fine if its first part is, and the rest with its result. -/
@[simp]
theorem all_bind {first : Logged Entry Result} {next : Result → Logged Entry Other} :
    All fine (first >>= next) ↔ All fine first ∧ All fine (next first.value) := by
  simp [All, Bind.bind, List.mem_append, or_imp, forall_and]

theorem all_ite {condition : Prop} [Decidable condition] {first second : Logged Entry Result} :
    All fine (if condition then first else second) ↔
      (condition → All fine first) ∧ (¬condition → All fine second) := by
  by_cases holds : condition <;> simp [holds]

theorem All.mono {computation : Logged Entry Result} (held : All fine computation)
    (implied : ∀ entry, fine entry → weaker entry) : All weaker computation :=
  fun entry member => implied entry (held entry member)

/-- Put every entry under a label. -/
def tag {Label : Type} (label : Label) (computation : Logged Entry Result) :
    Logged (Label × Entry) Result :=
  ⟨computation.value, computation.log.map fun entry => (label, entry)⟩

@[simp]
theorem value_tag {Label : Type} (label : Label) (computation : Logged Entry Result) :
    (tag label computation).value = computation.value := rfl

@[simp]
theorem all_tag {Label : Type} {label : Label} {computation : Logged Entry Result}
    {fine : Label × Entry → Prop} :
    All fine (tag label computation) ↔ All (fun entry => fine (label, entry)) computation := by
  simp [All, tag]

/-- The same computation inside one with entries of another kind. -/
def relabel {Wider : Type} (label : Entry → Wider) (computation : Logged Entry Result) :
    Logged Wider Result :=
  ⟨computation.value, computation.log.map label⟩

@[simp]
theorem value_relabel {Wider : Type} (label : Entry → Wider) (computation : Logged Entry Result) :
    (relabel label computation).value = computation.value := rfl

@[simp]
theorem log_relabel {Wider : Type} (label : Entry → Wider) (computation : Logged Entry Result) :
    (relabel label computation).log = computation.log.map label := rfl

section Perform

variable {State : Type} (apply : Entry → State → State)

/-- What the entries of the log do to a state, one after the other. -/
def perform (computation : Logged Entry Result) (state : State) : State :=
  computation.log.foldl (fun state entry => apply entry state) state

@[simp]
theorem perform_pure (value : Result) (state : State) :
    perform apply (pure value : Logged Entry Result) state = state := rfl

@[simp]
theorem perform_emit (entry : Entry) (value : Result) (state : State) :
    perform apply (emit entry value) state = apply entry state := rfl

@[simp]
theorem perform_bind (first : Logged Entry Result) (next : Result → Logged Entry Other)
    (state : State) :
    perform apply (first >>= next) state =
      perform apply (next first.value) (perform apply first state) :=
  List.foldl_append

/-- Entries that do nothing. -/
theorem perform_of_all {computation : Logged Entry Result}
    (still : All (fun entry => ∀ state, apply entry state = state) computation) (state : State) :
    perform apply computation state = state := by
  have each : ∀ entry ∈ computation.log, apply entry state = state :=
    fun entry member => still entry member state
  unfold perform
  generalize computation.log = log at each
  induction log with
  | nil => rfl
  | cons entry log inductionHypothesis =>
      rw [List.foldl_cons, each entry List.mem_cons_self]
      exact inductionHypothesis fun other member => each other (List.mem_cons_of_mem _ member)

theorem perform_relabel {Wider : Type} (label : Entry → Wider) (apply : Wider → State → State)
    (computation : Logged Entry Result) (state : State) :
    perform apply (relabel label computation) state =
      perform (fun entry => apply (label entry)) computation state :=
  List.foldl_map ..

end Perform

end Logged

/-! ## Reads -/

open Bytes

/-- The bytes from an offset on. -/
structure Span where
  offset : Nat
  count : Nat
  deriving DecidableEq, Repr

namespace Span

/-- No byte of the span lies at or behind the limit. -/
def Below (limit : Nat) (span : Span) : Prop := span.offset + span.count ≤ limit

instance (limit : Nat) (span : Span) : Decidable (Below limit span) :=
  inferInstanceAs (Decidable (_ ≤ _))

/-- Every byte of the span lies in a region. -/
def Inside (start size : Nat) (span : Span) : Prop :=
  start ≤ span.offset ∧ span.offset + span.count ≤ start + size

theorem Inside.below {start size limit : Nat} {span : Span} (inside : Inside start size span)
    (bound : start + size ≤ limit) : Below limit span :=
  inside.2.trans bound

/-- A region inside a larger one. -/
theorem Inside.within {start size : Nat} {span : Span} (inside : Inside start size span)
    (largerStart largerSize : Nat) (lower : largerStart ≤ start)
    (upper : start + size ≤ largerStart + largerSize) : Inside largerStart largerSize span :=
  ⟨lower.trans inside.1, inside.2.trans upper⟩

end Span

namespace Logged

variable (memory : List UInt8)

/-- Read a span of bytes. -/
def readSpan (offset count : Nat) : Logged Span (List UInt8) :=
  emit ⟨offset, count⟩ (slice memory offset count)

/-- Read one byte. -/
def readByte (offset : Nat) : Logged Span UInt8 :=
  emit ⟨offset, 1⟩ (memory.getD offset 0)

/-- Read bytes as long as they are accepted. -/
def allBytes (accepts : UInt8 → Bool) : Nat → Nat → Logged Span Bool
  | 0, _ => pure true
  | count + 1, offset => do
      let byte ← readByte memory offset
      if accepts byte then allBytes accepts count (offset + 1) else pure false

/-- Read bytes as long as they are the expected ones. -/
def equalBytes : List UInt8 → Nat → Logged Span Bool
  | [], _ => pure true
  | expected :: rest, offset => do
      let byte ← readByte memory offset
      if byte = expected then equalBytes rest (offset + 1) else pure false

variable {memory}

theorem slice_succ {offset count : Nat} (present : offset < memory.length) :
    slice memory offset (count + 1) =
      memory.getD offset 0 :: slice memory (offset + 1) count := by
  rw [slice, List.drop_eq_getElem_cons present, List.take_succ_cons,
    List.getD_eq_getElem _ _ present, slice]

theorem value_allBytes {accepts : UInt8 → Bool} {count offset : Nat}
    (inside : offset + count ≤ memory.length) :
    (allBytes memory accepts count offset).value = (slice memory offset count).all accepts := by
  induction count generalizing offset with
  | zero => simp [allBytes, slice]
  | succ count inductionHypothesis =>
      have next := @inductionHypothesis (offset + 1) (by omega)
      rw [slice_succ (by omega), List.all_cons, allBytes, value_bind, readByte, value_emit, ← next]
      cases accepts (memory.getD offset 0) <;> rfl

theorem all_allBytes {accepts : UInt8 → Bool} {count offset : Nat} :
    All (Span.Inside offset count) (allBytes memory accepts count offset) := by
  induction count generalizing offset with
  | zero => exact all_pure _
  | succ count inductionHypothesis =>
      rw [allBytes, all_bind]
      refine ⟨all_emit.mpr ⟨le_rfl, by dsimp only; omega⟩, ?_⟩
      split_ifs
      · exact inductionHypothesis.mono fun span inside => inside.within _ _ (by omega) (by omega)
      · exact all_pure _

theorem value_equalBytes {expected : List UInt8} {offset : Nat}
    (inside : offset + expected.length ≤ memory.length) :
    (equalBytes memory expected offset).value = true ↔
      slice memory offset expected.length = expected := by
  induction expected generalizing offset with
  | nil => simp [equalBytes, slice]
  | cons first rest inductionHypothesis =>
      rw [List.length_cons] at inside ⊢
      have next := @inductionHypothesis (offset + 1) (by omega)
      rw [slice_succ (by omega), List.cons.injEq, ← next, equalBytes, value_bind, readByte,
        value_emit]
      by_cases same : memory.getD offset 0 = first
      · rw [if_pos same]
        exact (and_iff_right same).symm
      · rw [if_neg same]
        exact iff_of_false Bool.false_ne_true fun whole => same whole.1

theorem all_equalBytes {expected : List UInt8} {offset : Nat} :
    All (Span.Inside offset expected.length) (equalBytes memory expected offset) := by
  induction expected generalizing offset with
  | nil => exact all_pure _
  | cons first rest inductionHypothesis =>
      rw [equalBytes, all_bind, List.length_cons]
      refine ⟨all_emit.mpr ⟨le_rfl, by dsimp only; omega⟩, ?_⟩
      split_ifs
      · exact inductionHypothesis.mono fun span inside => inside.within _ _ (by omega) (by omega)
      · exact all_pure _

end Logged
