import Mathlib.Algebra.Group.Int.Defs

/-!
# Formatting streams

An output stream with the formatting state of the C++ standard library.  The
width holds for the next insertion only; base, case, adjustment and fill stay
until they are set again.  `Writes` says what an operation writes to a stream
whatever these other settings are, and that it leaves none behind that matters.
-/

inductive Base where
  | dec
  | hex
  deriving DecidableEq, Repr

inductive Adjustment where
  | left
  | right
  deriving DecidableEq, Repr

/-- The characters written so far and the formatting state. -/
structure Ostream where
  written : List Char := []
  base : Base := .dec
  upper : Bool := false
  adjustment : Adjustment := .right
  fill : Char := ' '
  width : Nat := 0
  deriving DecidableEq, Repr

namespace Ostream

abbrev Output := StateM Ostream Unit

/-! ## Manipulators -/

def dec : Output := modify fun stream => { stream with base := .dec }
def hex : Output := modify fun stream => { stream with base := .hex }
def uppercase : Output := modify fun stream => { stream with upper := true }
def left : Output := modify fun stream => { stream with adjustment := .left }
def right : Output := modify fun stream => { stream with adjustment := .right }
def setfill (fill : Char) : Output := modify fun stream => { stream with fill }
def setw (width : Nat) : Output := modify fun stream => { stream with width }

/-! ## Insertions -/

/-- The field filled up to the width on the side away from its adjustment. -/
def pad (stream : Ostream) (field : List Char) : List Char :=
  match stream.adjustment with
  | .left => field.rightpad stream.width stream.fill
  | .right => field.leftpad stream.width stream.fill

def insert (field : List Char) : Output :=
  modify fun stream => { stream with written := stream.written ++ stream.pad field, width := 0 }

def digits (stream : Ostream) (value : Nat) : List Char :=
  match stream.base with
  | .dec => Nat.toDigits 10 value
  | .hex =>
      if stream.upper then (Nat.toDigits 16 value).map Char.toUpper else Nat.toDigits 16 value

def insertUnsigned (value : Nat) : Output := do
  let stream ← get
  insert (stream.digits value)

def signedDigits : Int → List Char
  | .ofNat value => Nat.toDigits 10 value
  | .negSucc value => '-' :: Nat.toDigits 10 (value + 1)

/-- Only decimal numbers have a sign; other bases show the bits. -/
def insertSigned (bits : Nat) (value : Int) : Output := do
  let stream ← get
  match stream.base with
  | .dec => insert (signedDigits value)
  | .hex => insert (stream.digits (value % 2 ^ bits).toNat)

/-- What a stream of its own receives. -/
def str (output : Output) : List Char := (output.run {}).2.written

/-! ## What an operation writes -/

/-- Numbers are decimal and the next insertion is not filled up. -/
structure Settled (stream : Ostream) : Prop where
  base : stream.base = .dec
  width : stream.width = 0

theorem settled_new : Settled {} := ⟨rfl, rfl⟩

/-- On every settled stream the operation writes this text and leaves the stream settled. -/
def Writes (output : Output) (field : List Char) : Prop :=
  ∀ stream : Ostream, stream.Settled →
    (output.run stream).2.written = stream.written ++ field ∧ (output.run stream).2.Settled

variable {first second : Output} {field other : List Char}

theorem writes_pure : Writes (pure ()) [] :=
  fun stream settled => ⟨(List.append_nil stream.written).symm, settled⟩

theorem writes_bind (front : Writes first field) (rest : Writes second other) :
    Writes (do first; second) (field ++ other) := by
  intro stream settled
  obtain ⟨written, between⟩ := front stream settled
  obtain ⟨appended, after⟩ := rest _ between
  rw [written, List.append_assoc] at appended
  exact ⟨appended, after⟩

theorem writes_ite {condition : Prop} [Decidable condition]
    (positive : condition → Writes first field) (negative : ¬condition → Writes second other) :
    Writes (if condition then first else second) (if condition then field else other) := by
  by_cases holds : condition
  · rw [if_pos holds, if_pos holds]
    exact positive holds
  · rw [if_neg holds, if_neg holds]
    exact negative holds

theorem Writes.of_eq (written : Writes first field) (same : field = other) :
    Writes first other := same ▸ written

theorem pad_zero {stream : Ostream} (unset : stream.width = 0) (field : List Char) :
    stream.pad field = field := by
  unfold pad
  cases stream.adjustment <;> simp [unset, List.leftpad, List.rightpad]

theorem writes_insert (field : List Char) : Writes (insert field) field := by
  intro stream settled
  refine ⟨?_, settled.base, rfl⟩
  exact congrArg (stream.written ++ ·) (pad_zero settled.width field)

theorem writes_insertUnsigned (value : Nat) :
    Writes (insertUnsigned value) (Nat.toDigits 10 value) := by
  intro stream settled
  have decimal :
      (insertUnsigned value).run stream = (insert (Nat.toDigits 10 value)).run stream := by
    change (insert (stream.digits value)).run stream = _
    rw [digits, settled.base]
  rw [decimal]
  exact writes_insert _ stream settled

theorem writes_insertSigned (bits : Nat) (value : Int) :
    Writes (insertSigned bits value) (signedDigits value) := by
  intro stream settled
  have decimal :
      (insertSigned bits value).run stream = (insert (signedDigits value)).run stream := by
    change (match stream.base with
      | .dec => insert (signedDigits value)
      | .hex => insert (stream.digits (value % 2 ^ bits).toNat)).run stream = _
    rw [settled.base]
  rw [decimal]
  exact writes_insert _ stream settled

/-- Operations applied one after the other, each to what the one before has left. -/
theorem foldl_writes {Item : Type*} {outputs : Item → Output} {fields : Item → List Char}
    (each : ∀ item, Writes (outputs item) (fields item)) (items : List Item) {stream : Ostream}
    (settled : stream.Settled) :
    let final := items.foldl (fun stream item => ((outputs item).run stream).2) stream
    final.written = stream.written ++ items.flatMap fields ∧ final.Settled := by
  induction items generalizing stream with
  | nil => exact ⟨(List.append_nil _).symm, settled⟩
  | cons item items inductionHypothesis =>
      obtain ⟨written, between⟩ := each item stream settled
      obtain ⟨appended, after⟩ := inductionHypothesis between
      rw [written, List.append_assoc, ← List.flatMap_cons] at appended
      exact ⟨appended, after⟩

end Ostream

/-! ## Lines -/

/-- Lines, each with its end. -/
def unlines (lines : List (List Char)) : List Char := lines.flatMap (· ++ ['\n'])

theorem unlines_cons (line : List Char) (lines : List (List Char)) :
    unlines (line :: lines) = line ++ ['\n'] ++ unlines lines := List.flatMap_cons

theorem unlines_append (first second : List (List Char)) :
    unlines (first ++ second) = unlines first ++ unlines second := List.flatMap_append

theorem splitOn_unlines {lines : List (List Char)} (single : ∀ line ∈ lines, '\n' ∉ line) :
    (unlines lines).splitOn '\n' = lines ++ [[]] := by
  induction lines with
  | nil => rfl
  | cons line lines inductionHypothesis =>
      rw [List.forall_mem_cons] at single
      rw [unlines_cons, List.append_assoc, List.singleton_append,
        List.splitOn_append_cons_self_of_not_mem single.1, inductionHypothesis single.2,
        List.cons_append]

/-! ## Sections -/

section Sections

variable {Item : Type*} {opens : Item → Bool}

/-- Items in groups, each from an item that opens one up to the next. -/
def sections (opens : Item → Bool) : List Item → List (List Item)
  | [] => []
  | item :: items =>
      if opens item then (item :: items.takeWhile fun next => !opens next) :: sections opens items
      else sections opens items

theorem sections_append {front : List Item} (closed : ∀ item ∈ front, opens item = false)
    (back : List Item) : sections opens (front ++ back) = sections opens back := by
  induction front with
  | nil => rfl
  | cons item front inductionHypothesis =>
      rw [List.forall_mem_cons] at closed
      rw [List.cons_append, sections, closed.1, if_neg Bool.false_ne_true]
      exact inductionHypothesis closed.2

/-- An item that opens a group, and others that do not. -/
def IsSection (opens : Item → Bool) (group : List Item) : Prop :=
  ∃ first rest, group = first :: rest ∧ opens first = true ∧ ∀ item ∈ rest, opens item = false

theorem takeWhile_sections {groups : List (List Item)}
    (shaped : ∀ group ∈ groups, IsSection opens group) :
    (groups.flatten.takeWhile fun next => !opens next) = [] := by
  cases groups with
  | nil => rfl
  | cons group groups =>
      obtain ⟨first, rest, rfl, opening, _⟩ := shaped group List.mem_cons_self
      simp [opening]

/-- Groups that each start with their only opening item are found again. -/
theorem sections_flatten {groups : List (List Item)}
    (shaped : ∀ group ∈ groups, IsSection opens group) :
    sections opens groups.flatten = groups := by
  induction groups with
  | nil => rfl
  | cons group groups inductionHypothesis =>
      rw [List.forall_mem_cons] at shaped
      obtain ⟨⟨first, rest, rfl, opening, closed⟩, others⟩ := shaped
      have own : ((rest ++ groups.flatten).takeWhile fun next => !opens next) = rest := by
        rw [List.takeWhile_append_of_pos (by simpa using closed), takeWhile_sections others,
          List.append_nil]
      rw [List.flatten_cons, List.cons_append, sections, opening, if_pos rfl, own,
        sections_append closed, inductionHypothesis others]

end Sections
