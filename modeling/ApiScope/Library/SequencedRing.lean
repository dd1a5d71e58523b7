import ApiScope.Library.Transition
import ApiScope.Library.Bytes
import Mathlib.Data.Nat.ModEq
import Mathlib.Data.Fintype.Basic

/-!
# A bounded ring with one sequence number per slot

Many writers claim consecutive positions, copy their message into the slot of
the position and publish it by advancing the slot's number.  One reader takes
the positions in order and hands each slot to the next lap.  Copies are not
atomic: a message moves in chunks of any size.

`Invariant` says who may touch which slot.  It yields mutual exclusion on slot
contents, delivery in claim order and the exact meaning of a full ring.
-/

namespace SequencedRing

open Bytes Transition

/-- A slot's number tells which position may use it next, and how. -/
structure Slot (Item : Type*) where
  sequence : Nat
  cells : List Item

/-- A writer between its claim and its publication. -/
structure Writer (Item : Type*) where
  position : Nat
  message : List Item
  copied : Nat

/-- `claimed` and `taken` record the whole history. -/
@[ext]
structure State (capacity : Nat) (Thread Item : Type*) where
  tail : Nat
  head : Nat
  slots : Fin capacity → Slot Item
  writers : Thread → Option (Writer Item)
  reader : Option (List Item)
  claimed : List (List Item)
  taken : List (List Item)

inductive Action (Thread Item : Type*) where
  | claim (thread : Thread) (message : List Item)
  | fill (thread : Thread) (count : Nat)
  | publish (thread : Thread)
  | accept
  | drain (count : Nat)
  | release

variable {capacity : Nat} {Thread Item : Type*}

/-! ## Slots of positions -/

section Positions

variable [NeZero capacity]

/-- The slot a position uses. -/
def slotOf (capacity : Nat) [NeZero capacity] (position : Nat) : Fin capacity :=
  ⟨position % capacity, Nat.mod_lt _ (NeZero.pos capacity)⟩

/-- Two positions less than one lap apart that share a slot are equal. -/
theorem position_eq_of_slot_eq {p q : Nat}
    (same : slotOf capacity p = slotOf capacity q)
    (left : p < q + capacity) (right : q < p + capacity) : p = q := by
  have modular : p % capacity = q % capacity := congrArg Fin.val same
  apply Nat.ModEq.eq_of_abs_lt (m := capacity) modular
  rw [abs_lt]
  constructor <;> omega

theorem slot_add_capacity (p : Nat) :
    slotOf capacity (p + capacity) = slotOf capacity p := by
  apply Fin.ext
  exact Nat.add_mod_right p capacity

/-- Every slot is the slot of one of any `capacity` consecutive positions. -/
theorem exists_position (head : Nat) (index : Fin capacity) :
    ∃ p, head ≤ p ∧ p < head + capacity ∧ slotOf capacity p = index := by
  have small := index.isLt
  have offset : head % capacity < capacity := Nat.mod_lt _ (NeZero.pos capacity)
  have division := Nat.div_add_mod head capacity
  by_cases ahead : head % capacity ≤ index.val
  · refine ⟨head + (index.val - head % capacity), by omega, by omega, Fin.ext ?_⟩
    have aligned : head + (index.val - head % capacity) =
        index.val + capacity * (head / capacity) := by omega
    simp only [slotOf, aligned, Nat.add_mul_mod_self_left, Nat.mod_eq_of_lt small]
  · refine ⟨head + (capacity + index.val - head % capacity), by omega, by omega, Fin.ext ?_⟩
    have aligned : head + (capacity + index.val - head % capacity) =
        index.val + capacity * (head / capacity) + capacity := by omega
    simp only [slotOf, aligned, Nat.add_mod_right, Nat.add_mul_mod_self_left,
      Nat.mod_eq_of_lt small]

namespace State

variable (state : State capacity Thread Item)

def sequenceAt (position : Nat) : Nat := (state.slots (slotOf capacity position)).sequence

def cellsAt (position : Nat) : List Item := (state.slots (slotOf capacity position)).cells

/-- Replace the slot of one position. -/
def withSlot (position : Nat) (slot : Slot Item) : State capacity Thread Item :=
  { state with slots := Function.update state.slots (slotOf capacity position) slot }

@[simp] theorem withSlot_tail (p : Nat) (slot : Slot Item) :
    (state.withSlot p slot).tail = state.tail := rfl
@[simp] theorem withSlot_head (p : Nat) (slot : Slot Item) :
    (state.withSlot p slot).head = state.head := rfl
@[simp] theorem withSlot_writers (p : Nat) (slot : Slot Item) :
    (state.withSlot p slot).writers = state.writers := rfl
@[simp] theorem withSlot_reader (p : Nat) (slot : Slot Item) :
    (state.withSlot p slot).reader = state.reader := rfl
@[simp] theorem withSlot_claimed (p : Nat) (slot : Slot Item) :
    (state.withSlot p slot).claimed = state.claimed := rfl
@[simp] theorem withSlot_taken (p : Nat) (slot : Slot Item) :
    (state.withSlot p slot).taken = state.taken := rfl

variable {state}

theorem slots_withSlot_self (p : Nat) (slot : Slot Item) :
    (state.withSlot p slot).slots (slotOf capacity p) = slot := by
  simp [withSlot]

theorem slots_withSlot_of_ne {p q : Nat} (slot : Slot Item) (differ : q ≠ p)
    (left : q < p + capacity) (right : p < q + capacity) :
    (state.withSlot p slot).slots (slotOf capacity q) =
      state.slots (slotOf capacity q) := by
  apply Function.update_of_ne
  exact fun same => differ (position_eq_of_slot_eq same left right)

@[simp]
theorem sequenceAt_withSlot_self (p : Nat) (slot : Slot Item) :
    (state.withSlot p slot).sequenceAt p = slot.sequence := by
  rw [sequenceAt, slots_withSlot_self]

@[simp]
theorem cellsAt_withSlot_self (p : Nat) (slot : Slot Item) :
    (state.withSlot p slot).cellsAt p = slot.cells := by
  rw [cellsAt, slots_withSlot_self]

theorem sequenceAt_withSlot_of_ne {p q : Nat} (slot : Slot Item) (differ : q ≠ p)
    (left : q < p + capacity) (right : p < q + capacity) :
    (state.withSlot p slot).sequenceAt q = state.sequenceAt q := by
  rw [sequenceAt, slots_withSlot_of_ne slot differ left right, sequenceAt]

theorem cellsAt_withSlot_of_ne {p q : Nat} (slot : Slot Item) (differ : q ≠ p)
    (left : q < p + capacity) (right : p < q + capacity) :
    (state.withSlot p slot).cellsAt q = state.cellsAt q := by
  rw [cellsAt, slots_withSlot_of_ne slot differ left right, cellsAt]

/-- Changing only the contents of a slot changes no number. -/
theorem sequenceAt_withSlot_same (p q : Nat) (slot : Slot Item)
    (unchanged : slot.sequence = state.sequenceAt p) :
    (state.withSlot p slot).sequenceAt q = state.sequenceAt q := by
  by_cases same : slotOf capacity q = slotOf capacity p
  · rw [sequenceAt, same, slots_withSlot_self, unchanged, sequenceAt, sequenceAt, same]
  · simp [sequenceAt, withSlot, Function.update_of_ne same]

/-- Changing only the number of a slot changes no contents. -/
theorem cellsAt_withSlot_same (p q : Nat) (slot : Slot Item)
    (unchanged : slot.cells = state.cellsAt p) :
    (state.withSlot p slot).cellsAt q = state.cellsAt q := by
  by_cases same : slotOf capacity q = slotOf capacity p
  · rw [cellsAt, same, slots_withSlot_self, unchanged, cellsAt, cellsAt, same]
  · simp [cellsAt, withSlot, Function.update_of_ne same]

end State

end Positions

namespace State

variable (state : State capacity Thread Item)

/-- Replace one writer. -/
def withWriter [DecidableEq Thread] (thread : Thread) (writer : Option (Writer Item)) :
    State capacity Thread Item :=
  { state with writers := Function.update state.writers thread writer }

/-- Hand out the next position. -/
def extend (message : List Item) : State capacity Thread Item :=
  { state with tail := state.tail + 1, claimed := state.claimed ++ [message] }

def withReader (buffer : Option (List Item)) : State capacity Thread Item :=
  { state with reader := buffer }

/-- The reader is done with the oldest position. -/
def retire (buffer : List Item) : State capacity Thread Item :=
  { state with head := state.head + 1, reader := none, taken := state.taken ++ [buffer] }

end State

/-! ## Steps -/

section Steps

variable [NeZero capacity]

/-- The atomic steps.  `width` is the number of items a slot holds. -/
inductive Step [DecidableEq Thread] (width : Nat) :
    State capacity Thread Item → Action Thread Item → State capacity Thread Item → Prop where
  | claim {state : State capacity Thread Item} {thread : Thread} {message : List Item} :
      state.writers thread = none → message.length ≤ width →
      state.sequenceAt state.tail = state.tail →
      Step width state (.claim thread message)
        ((state.withWriter thread (some ⟨state.tail, message, 0⟩)).extend message)
  | fill {state : State capacity Thread Item} {thread : Thread} {writer : Writer Item}
      {count : Nat} :
      state.writers thread = some writer → writer.copied + count ≤ writer.message.length →
      Step width state (.fill thread count)
        ((state.withSlot writer.position
            ⟨state.sequenceAt writer.position,
              overwrite (state.cellsAt writer.position) writer.copied
                ((writer.message.drop writer.copied).take count)⟩).withWriter thread
          (some { writer with copied := writer.copied + count }))
  | publish {state : State capacity Thread Item} {thread : Thread} {writer : Writer Item} :
      state.writers thread = some writer → writer.copied = writer.message.length →
      Step width state (.publish thread)
        ((state.withSlot writer.position
            ⟨writer.position + 1, state.cellsAt writer.position⟩).withWriter thread none)
  | accept {state : State capacity Thread Item} :
      state.reader = none → state.sequenceAt state.head = state.head + 1 →
      Step width state .accept (state.withReader (some []))
  | drain {state : State capacity Thread Item} {buffer : List Item} {count : Nat} :
      state.reader = some buffer → buffer.length + count ≤ width →
      Step width state (.drain count)
        (state.withReader
          (some (buffer ++ ((state.cellsAt state.head).drop buffer.length).take count)))
  | release {state : State capacity Thread Item} {buffer : List Item} :
      state.reader = some buffer → buffer.length = width →
      Step width state .release
        ((state.withSlot state.head
            ⟨state.head + capacity, state.cellsAt state.head⟩).retire buffer)

/-- Positions are only ever handed out. -/
theorem Step.tail_le [DecidableEq Thread] {width : Nat}
    {state next : State capacity Thread Item} {action : Action Thread Item}
    (taken : Step width state action next) : state.tail ≤ next.tail := by
  cases taken with
  | claim => exact Nat.le_succ _
  | _ => exact le_rfl

/-- The ring as it is set up: slot `i` expects position `i`. -/
def Initial (width : Nat) (state : State capacity Thread Item) : Prop :=
  state.tail = 0 ∧ state.head = 0 ∧
  (∀ index, (state.slots index).sequence = index.val ∧
    (state.slots index).cells.length = width) ∧
  (∀ thread, state.writers thread = none) ∧ state.reader = none ∧
  state.claimed = [] ∧ state.taken = []

/-- The ring protocol as a transition system. -/
def system (capacity width : Nat) [NeZero capacity] (Thread Item : Type*) [DecidableEq Thread] :
    System (State capacity Thread Item) (Action Thread Item) where
  initial := Initial width
  step := Step width

/-- Who may touch which slot, and what the slots hold. -/
structure Invariant (width : Nat) (state : State capacity Thread Item) : Prop where
  head_le_tail : state.head ≤ state.tail
  tail_le : state.tail ≤ state.head + capacity
  sequence_cases : ∀ p, state.head ≤ p → p < state.head + capacity →
    state.sequenceAt p = p ∨ (state.sequenceAt p = p + 1 ∧ p < state.tail)
  writer_owns : ∀ thread writer, state.writers thread = some writer →
    state.head ≤ writer.position ∧ writer.position < state.tail ∧
    state.sequenceAt writer.position = writer.position
  writer_unique : ∀ thread other writer writer', state.writers thread = some writer →
    state.writers other = some writer' → writer.position = writer'.position → thread = other
  owner_exists : ∀ p, state.head ≤ p → p < state.tail → state.sequenceAt p = p →
    ∃ thread writer, state.writers thread = some writer ∧ writer.position = p
  reader_published : ∀ buffer, state.reader = some buffer →
    state.head < state.tail ∧ state.sequenceAt state.head = state.head + 1
  cells_length : ∀ index, (state.slots index).cells.length = width
  claimed_length : state.claimed.length = state.tail
  taken_length : state.taken.length = state.head
  message_fits : ∀ message ∈ state.claimed, message.length ≤ width
  writer_message : ∀ thread writer, state.writers thread = some writer →
    state.claimed[writer.position]? = some writer.message
  writer_copied : ∀ thread writer, state.writers thread = some writer →
    writer.copied ≤ writer.message.length ∧
    (state.cellsAt writer.position).take writer.copied = writer.message.take writer.copied
  published_cells : ∀ p message, state.head ≤ p → p < state.tail →
    state.sequenceAt p = p + 1 → state.claimed[p]? = some message →
    (state.cellsAt p).take message.length = message
  reader_copied : ∀ buffer, state.reader = some buffer →
    buffer.length ≤ width ∧ buffer = (state.cellsAt state.head).take buffer.length
  taken_exact : ∀ k message, k < state.head → state.claimed[k]? = some message →
    ∃ cells, state.taken[k]? = some cells ∧ cells.length = width ∧
      cells.take message.length = message

theorem invariant_of_initial {width : Nat} {state : State capacity Thread Item}
    (initial : Initial width state) : Invariant width state := by
  obtain ⟨tailZero, headZero, slots, noWriters, noReader, noneClaimed, noneTaken⟩ := initial
  have numbers : ∀ p, p < capacity → state.sequenceAt p = p := by
    intro p small
    rw [State.sequenceAt, (slots _).1]
    exact Nat.mod_eq_of_lt small
  constructor
  case sequence_cases =>
    intro p _ small
    exact .inl (numbers p (by omega))
  all_goals simp_all

/-! ## Preservation -/

theorem writers_update [DecidableEq Thread] {writers : Thread → Option (Writer Item)} {thread other : Thread}
    {new : Option (Writer Item)} {writer : Writer Item}
    (found : Function.update writers thread new other = some writer) :
    (other = thread ∧ new = some writer) ∨ (other ≠ thread ∧ writers other = some writer) := by
  by_cases same : other = thread
  · subst same
    exact .inl ⟨rfl, by simpa using found⟩
  · exact .inr ⟨same, by simpa [Function.update_of_ne same] using found⟩

namespace Invariant

variable {width : Nat} {state : State capacity Thread Item}

/-- A slot that has come round to the next position leaves room for it. -/
theorem tail_lt_of_le_sequenceAt (inv : Invariant width state) (two_le : 2 ≤ capacity)
    (observed : state.tail ≤ state.sequenceAt state.tail) :
    state.tail < state.head + capacity := by
  refine lt_of_le_of_ne inv.tail_le fun full => ?_
  have shared : state.sequenceAt state.tail = state.sequenceAt state.head := by
    rw [full, State.sequenceAt, slot_add_capacity, ← State.sequenceAt]
  have bound := inv.sequence_cases state.head le_rfl (by omega)
  omega

/-- A number seen at least as high as the next position is that position. -/
theorem sequenceAt_tail (inv : Invariant width state) (two_le : 2 ≤ capacity)
    (observed : state.tail ≤ state.sequenceAt state.tail) :
    state.sequenceAt state.tail = state.tail := by
  have room := inv.tail_lt_of_le_sequenceAt two_le observed
  have bound := inv.sequence_cases state.tail inv.head_le_tail room
  omega

/-- A number behind the next position means that every slot is in use. -/
theorem full_of_sequenceAt_lt (inv : Invariant width state)
    (behind : state.sequenceAt state.tail < state.tail) :
    state.tail = state.head + capacity := by
  refine le_antisymm inv.tail_le (not_lt.mp fun room => ?_)
  have bound := inv.sequence_cases state.tail inv.head_le_tail room
  omega

/-- No slot number runs more than one lap ahead of the claims. -/
theorem sequence_le_tail_add (inv : Invariant width state) (index : Fin capacity) :
    (state.slots index).sequence ≤ state.tail + capacity := by
  obtain ⟨p, lower, upper, same⟩ := exists_position state.head index
  have bound := inv.sequence_cases p lower upper
  have ordered := inv.head_le_tail
  rw [State.sequenceAt, same] at bound
  omega

/-- Two positions of the current window are less than one lap apart. -/
theorem slots_withSlot_window (inv : Invariant width state) {p q : Nat} (slot : Slot Item)
    (differ : p ≠ q) (lower : state.head ≤ p) (upper : p < state.head + capacity)
    (lower' : state.head ≤ q) (upper' : q < state.tail) :
    (state.withSlot q slot).sequenceAt p = state.sequenceAt p ∧
      (state.withSlot q slot).cellsAt p = state.cellsAt p := by
  have room := inv.tail_le
  exact ⟨State.sequenceAt_withSlot_of_ne slot differ (by omega) (by omega),
    State.cellsAt_withSlot_of_ne slot differ (by omega) (by omega)⟩

theorem cellsAt_length (inv : Invariant width state) (p : Nat) :
    (state.cellsAt p).length = width := inv.cells_length _

theorem cells_length_withSlot (inv : Invariant width state) (p : Nat) (slot : Slot Item)
    (sized : slot.cells.length = width) (index : Fin capacity) :
    ((state.withSlot p slot).slots index).cells.length = width := by
  by_cases same : index = slotOf capacity p
  · rw [same, State.slots_withSlot_self, sized]
  · simp only [State.withSlot, Function.update_of_ne same, inv.cells_length index]

theorem writer_message_fits (inv : Invariant width state) {thread : Thread}
    {writer : Writer Item} (found : state.writers thread = some writer) :
    writer.message.length ≤ width :=
  inv.message_fits _ (List.mem_of_getElem? (inv.writer_message thread writer found))

theorem accept (inv : Invariant width state)
    (published : state.sequenceAt state.head = state.head + 1) (positive : 0 < capacity) :
    Invariant width (state.withReader (some [])) :=
  { inv with
    reader_published := fun _ _ => by
      have bound := inv.sequence_cases state.head le_rfl (by omega)
      exact ⟨(bound.resolve_left (by omega)).2, published⟩
    reader_copied := fun buffer reading => by
      cases reading
      simp }

theorem drain (inv : Invariant width state) {buffer : List Item} {count : Nat}
    (reading : state.reader = some buffer) (chunk : buffer.length + count ≤ width) :
    Invariant width (state.withReader
      (some (buffer ++ ((state.cellsAt state.head).drop buffer.length).take count))) :=
  { inv with
    reader_published := fun _ _ => inv.reader_published buffer reading
    reader_copied := fun buffer' reading' => by
      cases reading'
      have sofar := (inv.reader_copied buffer reading).2
      have sized := inv.cellsAt_length state.head
      have grown : (buffer ++ ((state.cellsAt state.head).drop buffer.length).take count).length =
          buffer.length + count := by
        simp [sized]
        omega
      refine ⟨by rw [grown]; exact chunk, ?_⟩
      change _ = (state.cellsAt state.head).take _
      rw [grown, List.take_add, ← sofar] }

theorem release (inv : Invariant width state) {buffer : List Item}
    (reading : state.reader = some buffer) (complete : buffer.length = width) :
    Invariant width
      ((state.withSlot state.head
          ⟨state.head + capacity, state.cellsAt state.head⟩).retire buffer) := by
  obtain ⟨nonempty, published⟩ := inv.reader_published buffer reading
  have room := inv.tail_le
  set slot : Slot Item := ⟨state.head + capacity, state.cellsAt state.head⟩
  have cells : ∀ p, (state.withSlot state.head slot).cellsAt p = state.cellsAt p :=
    fun p => State.cellsAt_withSlot_same state.head p slot rfl
  have numberNextLap : (state.withSlot state.head slot).sequenceAt (state.head + capacity) =
      state.head + capacity := by
    rw [State.sequenceAt, slot_add_capacity, ← State.sequenceAt, State.sequenceAt_withSlot_self]
  have numbersElsewhere : ∀ p, state.head < p → p < state.head + capacity →
      (state.withSlot state.head slot).sequenceAt p = state.sequenceAt p :=
    fun p lower upper =>
      (inv.slots_withSlot_window slot (by omega) lower.le upper le_rfl nonempty).1
  have ownersLater : ∀ thread writer, state.writers thread = some writer →
      state.head < writer.position := by
    intro thread writer found
    obtain ⟨lower, _, number⟩ := inv.writer_owns thread writer found
    refine lt_of_le_of_ne lower fun same => ?_
    rw [← same] at number
    omega
  exact {
    head_le_tail := nonempty
    tail_le := by
      change state.tail ≤ state.head + 1 + capacity
      omega
    sequence_cases := fun p lower upper => by
      change (state.withSlot state.head slot).sequenceAt p = p ∨
        ((state.withSlot state.head slot).sequenceAt p = p + 1 ∧ p < state.tail)
      change state.head + 1 ≤ p at lower
      change p < state.head + 1 + capacity at upper
      by_cases last : p = state.head + capacity
      · rw [last]
        exact .inl numberNextLap
      · rw [numbersElsewhere p lower (by omega)]
        exact inv.sequence_cases p (by omega) (by omega)
    writer_owns := fun thread writer found => by
      obtain ⟨_, upper, number⟩ := inv.writer_owns thread writer found
      have later := ownersLater thread writer found
      refine ⟨later, upper, ?_⟩
      exact (numbersElsewhere _ later (by omega)).trans number
    writer_unique := inv.writer_unique
    owner_exists := fun p lower upper number => by
      change state.head + 1 ≤ p at lower
      change p < state.tail at upper
      exact inv.owner_exists p (by omega) upper
        ((numbersElsewhere p lower (by omega)).symm.trans number)
    reader_published := fun _ reading' => by cases reading'
    cells_length := inv.cells_length_withSlot _ _ (inv.cellsAt_length _)
    claimed_length := inv.claimed_length
    taken_length := by simp [State.retire, inv.taken_length]
    message_fits := inv.message_fits
    writer_message := inv.writer_message
    writer_copied := fun thread writer found => by
      change _ ∧ ((state.withSlot state.head slot).cellsAt writer.position).take _ = _
      rw [cells]
      exact inv.writer_copied thread writer found
    published_cells := fun p message lower upper number known => by
      change state.head + 1 ≤ p at lower
      change p < state.tail at upper
      change ((state.withSlot state.head slot).cellsAt p).take _ = _
      rw [cells]
      exact inv.published_cells p message (by omega) upper
        ((numbersElsewhere p lower (by omega)).symm.trans number) known
    reader_copied := fun _ reading' => by cases reading'
    taken_exact := fun k message taken known => by
      change k < state.head + 1 at taken
      change ∃ found, (state.taken ++ [buffer])[k]? = some found ∧ _
      obtain rfl | older := Nat.eq_or_lt_of_le (Nat.le_of_lt_succ taken)
      · refine ⟨buffer, by simp [← inv.taken_length], complete, ?_⟩
        have whole : buffer = state.cellsAt state.head := by
          have copied := (inv.reader_copied buffer reading).2
          rwa [complete, ← inv.cellsAt_length state.head, List.take_length] at copied
        rw [whole]
        exact inv.published_cells state.head message le_rfl nonempty published known
      · obtain ⟨found, entry, exact⟩ := inv.taken_exact k message older known
        refine ⟨found, ?_, exact⟩
        rw [List.getElem?_append_left (by rw [inv.taken_length]; exact older)]
        exact entry }

variable [DecidableEq Thread]

theorem claim (inv : Invariant width state) (two_le : 2 ≤ capacity) {thread : Thread}
    {message : List Item} (idle : state.writers thread = none) (fits : message.length ≤ width)
    (free : state.sequenceAt state.tail = state.tail) :
    Invariant width
      ((state.withWriter thread (some ⟨state.tail, message, 0⟩)).extend message) where
  head_le_tail := Nat.le_succ_of_le inv.head_le_tail
  tail_le := inv.tail_lt_of_le_sequenceAt two_le free.ge
  sequence_cases p lower upper :=
    (inv.sequence_cases p lower upper).imp_right fun published =>
      ⟨published.1, Nat.lt_succ_of_lt published.2⟩
  writer_owns other writer found := by
    obtain ⟨_, same⟩ | ⟨_, found⟩ := writers_update found
    · cases same
      exact ⟨inv.head_le_tail, Nat.lt_succ_self _, free⟩
    · obtain ⟨lower, upper, number⟩ := inv.writer_owns other writer found
      exact ⟨lower, Nat.lt_succ_of_lt upper, number⟩
  writer_unique first second writer writer' found found' same := by
    obtain ⟨isNew, new⟩ | ⟨_, old⟩ := writers_update found <;>
      obtain ⟨isNew', new'⟩ | ⟨_, old'⟩ := writers_update found'
    · exact isNew.trans isNew'.symm
    · cases new
      exact absurd same (inv.writer_owns second writer' old').2.1.ne'
    · cases new'
      exact absurd same (inv.writer_owns first writer old).2.1.ne
    · exact inv.writer_unique first second writer writer' old old' same
  owner_exists p lower upper number := by
    obtain rfl | older := Nat.eq_or_lt_of_le (Nat.le_of_lt_succ upper)
    · exact ⟨thread, _, Function.update_self .., rfl⟩
    · obtain ⟨other, writer, found, position⟩ := inv.owner_exists p lower older number
      have differ : other ≠ thread := fun same => by simp [same, idle] at found
      exact ⟨other, writer, by simpa [State.withWriter, State.extend, differ] using found, position⟩
  reader_published buffer reading :=
    (inv.reader_published buffer reading).imp_left Nat.lt_succ_of_lt
  cells_length := inv.cells_length
  claimed_length := by simp [State.withWriter, State.extend, inv.claimed_length]
  taken_length := inv.taken_length
  message_fits := by
    intro other member
    rcases List.mem_append.mp member with old | new
    · exact inv.message_fits other old
    · rw [List.mem_singleton.mp new]
      exact fits
  writer_message other writer found := by
    obtain ⟨_, same⟩ | ⟨_, found⟩ := writers_update found
    · cases same
      simp [State.withWriter, State.extend, ← inv.claimed_length]
    · have known := inv.writer_message other writer found
      have upper := (inv.writer_owns other writer found).2.1
      rw [← inv.claimed_length] at upper
      simpa [State.withWriter, State.extend, List.getElem?_append_left upper] using known
  writer_copied other writer found := by
    obtain ⟨_, same⟩ | ⟨_, found⟩ := writers_update found
    · cases same
      simp
    · exact inv.writer_copied other writer found
  published_cells p message' lower upper number known := by
    obtain rfl | older := Nat.eq_or_lt_of_le (Nat.le_of_lt_succ upper)
    · exact absurd (free.symm.trans number) (Nat.lt_succ_self _).ne
    · refine inv.published_cells p message' lower older number ?_
      simpa [State.withWriter, State.extend, List.getElem?_append_left,
        inv.claimed_length.symm ▸ older] using known
  reader_copied := inv.reader_copied
  taken_exact k message' taken known := by
    have older : k < state.claimed.length := by
      rw [inv.claimed_length]
      exact lt_of_lt_of_le taken inv.head_le_tail
    refine inv.taken_exact k message' taken ?_
    simpa [State.withWriter, State.extend, List.getElem?_append_left older] using known

theorem fill (inv : Invariant width state) {thread : Thread} {writer : Writer Item}
    {count : Nat} (found : state.writers thread = some writer)
    (chunk : writer.copied + count ≤ writer.message.length) :
    Invariant width
      ((state.withSlot writer.position
          ⟨state.sequenceAt writer.position,
            overwrite (state.cellsAt writer.position) writer.copied
              ((writer.message.drop writer.copied).take count)⟩).withWriter thread
        (some { writer with copied := writer.copied + count })) := by
  obtain ⟨lower, upper, number⟩ := inv.writer_owns thread writer found
  have room := inv.tail_le
  set slot : Slot Item := ⟨state.sequenceAt writer.position,
    overwrite (state.cellsAt writer.position) writer.copied
      ((writer.message.drop writer.copied).take count)⟩ with slotDef
  have numbers : ∀ p, (state.withSlot writer.position slot).sequenceAt p = state.sequenceAt p :=
    fun p => State.sequenceAt_withSlot_same writer.position p slot rfl
  have cellsElsewhere : ∀ p, state.head ≤ p → p < state.tail → p ≠ writer.position →
      (state.withSlot writer.position slot).cellsAt p = state.cellsAt p :=
    fun p lower' upper' differ =>
      (inv.slots_withSlot_window slot differ lower' (by omega) lower upper).2
  exact {
    head_le_tail := inv.head_le_tail
    tail_le := inv.tail_le
    sequence_cases := fun p lower' upper' => by
      change (state.withSlot writer.position slot).sequenceAt p = p ∨
        ((state.withSlot writer.position slot).sequenceAt p = p + 1 ∧ p < state.tail)
      rw [numbers p]
      exact inv.sequence_cases p lower' upper'
    writer_owns := fun other writer' found' => by
      change _ ∧ _ ∧ (state.withSlot writer.position slot).sequenceAt writer'.position = _
      rw [numbers]
      obtain ⟨_, new⟩ | ⟨_, old⟩ := writers_update found'
      · cases new
        exact ⟨lower, upper, number⟩
      · exact inv.writer_owns other writer' old
    writer_unique := fun first second writer' writer'' found' found'' same => by
      obtain ⟨isNew, new⟩ | ⟨_, old⟩ := writers_update found' <;>
        obtain ⟨isNew', new'⟩ | ⟨_, old'⟩ := writers_update found''
      · exact isNew.trans isNew'.symm
      · cases new
        exact isNew.trans (inv.writer_unique thread second writer writer'' found old' same)
      · cases new'
        exact (inv.writer_unique first thread writer' writer old found same).trans isNew'.symm
      · exact inv.writer_unique first second writer' writer'' old old' same
    owner_exists := fun p lower' upper' number' => by
      obtain ⟨other, writer', old, position⟩ :=
        inv.owner_exists p lower' upper' ((numbers p).symm.trans number')
      by_cases same : other = thread
      · rw [same, found] at old
        cases old
        exact ⟨thread, _, Function.update_self .., position⟩
      · exact ⟨other, writer', by simpa [State.withWriter, same] using old, position⟩
    reader_published := fun buffer reading => by
      change _ ∧ (state.withSlot writer.position slot).sequenceAt state.head = _
      rw [numbers]
      exact inv.reader_published buffer reading
    cells_length := inv.cells_length_withSlot _ _ (by simp [slotDef, inv.cellsAt_length])
    claimed_length := inv.claimed_length
    taken_length := inv.taken_length
    message_fits := inv.message_fits
    writer_message := fun other writer' found' => by
      obtain ⟨_, new⟩ | ⟨_, old⟩ := writers_update found'
      · cases new
        exact inv.writer_message thread writer found
      · exact inv.writer_message other writer' old
    writer_copied := fun other writer' found' => by
      change _ ∧ ((state.withSlot writer.position slot).cellsAt writer'.position).take _ = _
      obtain ⟨_, new⟩ | ⟨differ, old⟩ := writers_update found'
      · cases new
        refine ⟨chunk, ?_⟩
        rw [State.cellsAt_withSlot_self]
        exact take_overwrite_chunk _ _ _ _ (inv.writer_copied thread writer found).2 chunk
          (by rw [inv.cellsAt_length]; exact inv.writer_message_fits found)
      · have elsewhere : writer'.position ≠ writer.position := fun same =>
          differ (inv.writer_unique other thread writer' writer old found same)
        obtain ⟨lower', upper', _⟩ := inv.writer_owns other writer' old
        rw [cellsElsewhere _ lower' upper' elsewhere]
        exact inv.writer_copied other writer' old
    published_cells := fun p message lower' upper' number' known => by
      have published := (numbers p).symm.trans number'
      have elsewhere : p ≠ writer.position := by
        rintro rfl
        omega
      change ((state.withSlot writer.position slot).cellsAt p).take _ = _
      rw [cellsElsewhere p lower' upper' elsewhere]
      exact inv.published_cells p message lower' upper' published known
    reader_copied := fun buffer reading => by
      obtain ⟨nonempty, published⟩ := inv.reader_published buffer reading
      have elsewhere : state.head ≠ writer.position := by
        intro same
        rw [← same] at number
        omega
      change _ ∧ _ = ((state.withSlot writer.position slot).cellsAt state.head).take _
      rw [cellsElsewhere _ le_rfl nonempty elsewhere]
      exact inv.reader_copied buffer reading
    taken_exact := inv.taken_exact }

theorem publish (inv : Invariant width state) {thread : Thread} {writer : Writer Item}
    (found : state.writers thread = some writer)
    (complete : writer.copied = writer.message.length) :
    Invariant width
      ((state.withSlot writer.position
          ⟨writer.position + 1, state.cellsAt writer.position⟩).withWriter thread none) := by
  obtain ⟨lower, upper, number⟩ := inv.writer_owns thread writer found
  have room := inv.tail_le
  set slot : Slot Item := ⟨writer.position + 1, state.cellsAt writer.position⟩
  have cells : ∀ p, (state.withSlot writer.position slot).cellsAt p = state.cellsAt p :=
    fun p => State.cellsAt_withSlot_same writer.position p slot rfl
  have numberThere : (state.withSlot writer.position slot).sequenceAt writer.position =
      writer.position + 1 := State.sequenceAt_withSlot_self _ _
  have numbersElsewhere : ∀ p, state.head ≤ p → p < state.head + capacity →
      p ≠ writer.position →
      (state.withSlot writer.position slot).sequenceAt p = state.sequenceAt p :=
    fun p lower' upper' differ =>
      (inv.slots_withSlot_window slot differ lower' upper' lower upper).1
  have onlyOwner : ∀ other writer', other ≠ thread → state.writers other = some writer' →
      writer'.position ≠ writer.position := fun other writer' differ old same =>
    differ (inv.writer_unique other thread writer' writer old found same)
  have remaining : ∀ {other : Thread} {writer' : Writer Item},
      Function.update state.writers thread none other = some writer' →
      other ≠ thread ∧ state.writers other = some writer' := fun found' =>
    (writers_update found').elim (fun impossible => by simp at impossible) id
  exact {
    head_le_tail := inv.head_le_tail
    tail_le := inv.tail_le
    sequence_cases := fun p lower' upper' => by
      change (state.withSlot writer.position slot).sequenceAt p = p ∨
        ((state.withSlot writer.position slot).sequenceAt p = p + 1 ∧ p < state.tail)
      by_cases same : p = writer.position
      · rw [same]
        exact .inr ⟨numberThere, upper⟩
      · rw [numbersElsewhere p lower' upper' same]
        exact inv.sequence_cases p lower' upper'
    writer_owns := fun other writer' found' => by
      obtain ⟨differ, old⟩ := remaining found'
      obtain ⟨lower', upper', number'⟩ := inv.writer_owns other writer' old
      refine ⟨lower', upper', ?_⟩
      exact (numbersElsewhere _ lower' (by omega) (onlyOwner other writer' differ old)).trans number'
    writer_unique := fun first second writer' writer'' found' found'' same =>
      inv.writer_unique first second writer' writer'' (remaining found').2 (remaining found'').2 same
    owner_exists := fun p lower' upper' number' => by
      have elsewhere : p ≠ writer.position := by
        rintro rfl
        exact absurd (numberThere.symm.trans number') (Nat.succ_ne_self _)
      obtain ⟨other, writer', old, position⟩ := inv.owner_exists p lower' upper'
        ((numbersElsewhere p lower' (lt_of_lt_of_le upper' room) elsewhere).symm.trans number')
      have differ : other ≠ thread := by
        rintro rfl
        rw [found] at old
        cases old
        exact elsewhere position.symm
      exact ⟨other, writer', by simpa [State.withWriter, differ] using old, position⟩
    reader_published := fun buffer reading => by
      obtain ⟨nonempty, published⟩ := inv.reader_published buffer reading
      have elsewhere : state.head ≠ writer.position := by
        intro same
        rw [← same] at number
        omega
      refine ⟨nonempty, ?_⟩
      exact (numbersElsewhere _ le_rfl (by omega) elsewhere).trans published
    cells_length := inv.cells_length_withSlot _ _ (inv.cellsAt_length _)
    claimed_length := inv.claimed_length
    taken_length := inv.taken_length
    message_fits := inv.message_fits
    writer_message := fun other writer' found' =>
      inv.writer_message other writer' (remaining found').2
    writer_copied := fun other writer' found' => by
      change _ ∧ ((state.withSlot writer.position slot).cellsAt writer'.position).take _ = _
      rw [cells]
      exact inv.writer_copied other writer' (remaining found').2
    published_cells := fun p message lower' upper' number' known => by
      change ((state.withSlot writer.position slot).cellsAt p).take _ = _
      rw [cells]
      by_cases same : p = writer.position
      · have mine := inv.writer_message thread writer found
        rw [← same, show state.claimed[p]? = some message from known] at mine
        cases mine
        have filled := (inv.writer_copied thread writer found).2
        rw [complete, List.take_length] at filled
        rw [same]
        exact filled
      · exact inv.published_cells p message lower' upper'
          ((numbersElsewhere p lower' (lt_of_lt_of_le upper' room) same).symm.trans number') known
    reader_copied := fun buffer reading => by
      change _ ∧ _ = ((state.withSlot writer.position slot).cellsAt state.head).take _
      rw [cells]
      exact inv.reader_copied buffer reading
    taken_exact := inv.taken_exact }

/-- Every step keeps the invariant. -/
theorem step (inv : Invariant width state) (two_le : 2 ≤ capacity)
    {action : Action Thread Item} {next : State capacity Thread Item}
    (taken : Step width state action next) : Invariant width next := by
  cases taken with
  | claim idle fits free => exact inv.claim two_le idle fits free
  | fill found chunk => exact inv.fill found chunk
  | publish found complete => exact inv.publish found complete
  | accept _ published => exact inv.accept published (by omega)
  | drain reading chunk => exact inv.drain reading chunk
  | release reading complete => exact inv.release reading complete

/-- Slot numbers only grow. -/
theorem sequence_le (inv : Invariant width state) {action : Action Thread Item}
    {next : State capacity Thread Item} (taken : Step width state action next)
    (index : Fin capacity) :
    (state.slots index).sequence ≤ (next.slots index).sequence := by
  have update : ∀ (p : Nat) (slot : Slot Item), state.sequenceAt p ≤ slot.sequence →
      (state.slots index).sequence ≤ ((state.withSlot p slot).slots index).sequence := by
    intro p slot grows
    by_cases same : index = slotOf capacity p
    · rw [same, State.slots_withSlot_self]
      exact grows
    · simp only [State.withSlot, Function.update_of_ne same, le_refl]
  cases taken with
  | claim => exact le_rfl
  | fill => exact update _ _ le_rfl
  | publish found _ =>
      refine update _ _ ?_
      rw [(inv.writer_owns _ _ found).2.2]
      exact Nat.le_succ _
  | accept => exact le_rfl
  | drain => exact le_rfl
  | release reading _ =>
      refine update _ _ ?_
      rw [(inv.reader_published _ reading).2]
      exact Nat.add_le_add_left (NeZero.pos capacity) _

end Invariant

/-- Every reachable state of the protocol satisfies the invariant. -/
theorem Reachable.invariant [DecidableEq Thread] {width : Nat} (two_le : 2 ≤ capacity)
    {state : State capacity Thread Item}
    (reached : (system capacity width Thread Item).Reachable state) : Invariant width state := by
  obtain ⟨labels, run⟩ := reached
  exact @System.Run.invariant _ _ _ (fun _ state => Invariant width state)
    (fun _ initial => invariant_of_initial initial)
    (fun _ _ _ _ inv taken => inv.step two_le taken) _ _ run

end Steps

end SequencedRing
