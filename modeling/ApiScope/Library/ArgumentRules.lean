import Mathlib.Data.List.Basic

/-!
# Splitting a command line into arguments

The Windows argument rules, over any alphabet with a quote, a backslash and
blanks.  The first token is read with quotes toggling and without escapes.  In
the others a run of backslashes matters only in front of a quote, where each
pair is one backslash and an odd one makes the quote literal, and a doubled
quote inside quotes is a literal quote.
-/

namespace ArgumentRules

/-- The characters the rules treat specially. -/
structure Alphabet (Character : Type*) where
  quote : Character
  backslash : Character
  blank : Character → Bool
  quote_ne_backslash : quote ≠ backslash
  blank_quote : blank quote = false
  blank_backslash : blank backslash = false

/-- Between two arguments, inside one with the backslashes read last, or behind a
quote that ends the quotes unless another one follows. -/
inductive Mode where
  | between
  | token (quoted : Bool) (backslashes : Nat)
  | closed

variable {Character : Type*}

/-- Put characters in front of the argument that is being read. -/
def extend (text : List Character) : List (List Character) → List (List Character)
  | [] => [text]
  | token :: rest => (text ++ token) :: rest

@[simp]
theorem extend_extend (text more : List Character) (tokens : List (List Character)) :
    extend text (extend more tokens) = extend (text ++ more) tokens := by
  cases tokens <;> simp [extend]

variable [DecidableEq Character] (alphabet : Alphabet Character)

/-- The arguments behind the first one. -/
def splitLater : Mode → List Character → List (List Character)
  | .between, [] => []
  | .between, character :: rest =>
      if alphabet.blank character then splitLater .between rest
      else if character = alphabet.backslash then splitLater (.token false 1) rest
      else if character = alphabet.quote then splitLater (.token true 0) rest
      else extend [character] (splitLater (.token false 0) rest)
  | .token _ backslashes, [] => [List.replicate backslashes alphabet.backslash]
  | .token quoted backslashes, character :: rest =>
      let half := List.replicate (backslashes / 2) alphabet.backslash
      if character = alphabet.backslash then splitLater (.token quoted (backslashes + 1)) rest
      else if character = alphabet.quote then
        if backslashes % 2 = 1 then
          extend (half ++ [alphabet.quote]) (splitLater (.token quoted 0) rest)
        else extend half (splitLater (if quoted then .closed else .token true 0) rest)
      else if alphabet.blank character && !quoted then
        List.replicate backslashes alphabet.backslash :: splitLater .between rest
      else
        extend (List.replicate backslashes alphabet.backslash ++ [character])
          (splitLater (.token quoted 0) rest)
  | .closed, [] => [[]]
  | .closed, character :: rest =>
      if character = alphabet.quote then
        extend [alphabet.quote] (splitLater (.token true 0) rest)
      else if character = alphabet.backslash then splitLater (.token false 1) rest
      else if alphabet.blank character then [] :: splitLater .between rest
      else extend [character] (splitLater (.token false 0) rest)

/-- The first argument and what is behind it. -/
def splitFirst : Bool → List Character → List Character × List Character
  | _, [] => ([], [])
  | quoted, character :: rest =>
      if character = alphabet.quote then splitFirst (!quoted) rest
      else if alphabet.blank character && !quoted then ([], rest)
      else
        let (token, behind) := splitFirst quoted rest
        (character :: token, behind)

def split (commandLine : List Character) : List (List Character) :=
  let (first, rest) := splitFirst alphabet false commandLine
  first :: splitLater alphabet .between rest

/-! ## Runs of backslashes -/

variable {alphabet}

theorem splitLater_backslashes (quoted : Bool) (backslashes count : Nat)
    (rest : List Character) :
    splitLater alphabet (.token quoted backslashes)
        (List.replicate count alphabet.backslash ++ rest) =
      splitLater alphabet (.token quoted (backslashes + count)) rest := by
  induction count generalizing backslashes with
  | zero => rfl
  | succ count inductionHypothesis =>
      rw [List.replicate_succ, List.cons_append, splitLater, if_pos rfl, inductionHypothesis]
      congr 2
      omega

/-- An odd run in front of a quote makes it literal. -/
theorem splitLater_literalQuote (quoted : Bool) (count : Nat) (rest : List Character) :
    splitLater alphabet (.token quoted 0)
        (List.replicate (count * 2 + 1) alphabet.backslash ++ alphabet.quote :: rest) =
      extend (List.replicate count alphabet.backslash ++ [alphabet.quote])
        (splitLater alphabet (.token quoted 0) rest) := by
  have odd : (0 + (count * 2 + 1)) % 2 = 1 := by omega
  have half : (0 + (count * 2 + 1)) / 2 = count := by omega
  rw [splitLater_backslashes, splitLater, if_neg alphabet.quote_ne_backslash, if_pos rfl,
    if_pos odd, half]

/-- A quote that is not doubled ends the quotes. -/
theorem splitLater_closed {rest : List Character}
    (single : rest.head? ≠ some alphabet.quote) :
    splitLater alphabet .closed rest = splitLater alphabet (.token false 0) rest := by
  cases rest with
  | nil => rfl
  | cons next rest =>
      have other : next ≠ alphabet.quote := by simpa using single
      rw [splitLater, splitLater, if_neg other, if_neg other]
      simp

/-- An even run in front of a quote that is not doubled ends the quotes. -/
theorem splitLater_closingQuote (count : Nat) {rest : List Character}
    (single : rest.head? ≠ some alphabet.quote) :
    splitLater alphabet (.token true 0)
        (List.replicate (count * 2) alphabet.backslash ++ alphabet.quote :: rest) =
      extend (List.replicate count alphabet.backslash)
        (splitLater alphabet (.token false 0) rest) := by
  have even : ¬(0 + count * 2) % 2 = 1 := by omega
  have half : (0 + count * 2) / 2 = count := by omega
  rw [splitLater_backslashes, splitLater, if_neg alphabet.quote_ne_backslash, if_pos rfl,
    if_neg even, half, if_pos rfl, splitLater_closed single]

/-- A run in front of any other character is literal. -/
theorem splitLater_literal {quoted : Bool} (count : Nat) {character : Character}
    (rest : List Character) (noBackslash : character ≠ alphabet.backslash)
    (noQuote : character ≠ alphabet.quote)
    (inside : quoted = true ∨ alphabet.blank character = false) :
    splitLater alphabet (.token quoted 0)
        (List.replicate count alphabet.backslash ++ character :: rest) =
      extend (List.replicate count alphabet.backslash ++ [character])
        (splitLater alphabet (.token quoted 0) rest) := by
  have noEnd : ¬(alphabet.blank character && !quoted) = true := by
    rcases inside with quotes | visible
    · simp [quotes]
    · simp [visible]
  rw [splitLater_backslashes, Nat.zero_add, splitLater, if_neg noBackslash, if_neg noQuote,
    if_neg noEnd]

/-! ## Whole arguments -/

/-- What may stand behind an argument: nothing, or a blank and more arguments. -/
inductive Behind (alphabet : Alphabet Character) : List Character → List (List Character) → Prop where
  | nothing : Behind alphabet [] []
  | more {separator : Character} (rest : List Character) :
      alphabet.blank separator = true →
      Behind alphabet (separator :: rest) (splitLater alphabet .between rest)

theorem Behind.single {rest : List Character} {tokens : List (List Character)}
    (behind : Behind alphabet rest tokens) : rest.head? ≠ some alphabet.quote := by
  cases behind with
  | nothing => simp
  | more rest blank =>
      simp only [List.head?_cons, ne_eq, Option.some.injEq]
      rintro rfl
      simp [alphabet.blank_quote] at blank

/-- An argument ends where the text behind it begins. -/
theorem Behind.ends {rest : List Character} {tokens : List (List Character)}
    (behind : Behind alphabet rest tokens) (count : Nat) :
    splitLater alphabet (.token false count) rest =
      List.replicate count alphabet.backslash :: tokens := by
  cases behind with
  | nothing => rfl
  | @more separator rest blank =>
      have noBackslash : separator ≠ alphabet.backslash := by
        rintro rfl
        simp [alphabet.blank_backslash] at blank
      have noQuote : separator ≠ alphabet.quote := by
        rintro rfl
        simp [alphabet.blank_quote] at blank
      rw [splitLater, if_neg noBackslash, if_neg noQuote, if_pos (by simp [blank])]

/-- An argument without blanks and quotes stands for itself. -/
theorem splitLater_plain {text rest : List Character} {tokens : List (List Character)}
    (plain : ∀ character ∈ text, alphabet.blank character = false ∧ character ≠ alphabet.quote)
    (behind : Behind alphabet rest tokens) (count : Nat) :
    splitLater alphabet (.token false count) (text ++ rest) =
      (List.replicate count alphabet.backslash ++ text) :: tokens := by
  induction text generalizing count with
  | nil => simpa using behind.ends count
  | cons character text inductionHypothesis =>
      obtain ⟨visible, noQuote⟩ := plain character (by simp)
      have others := inductionHypothesis fun other member => plain other (by simp [member])
      rw [List.cons_append, splitLater]
      by_cases isBackslash : character = alphabet.backslash
      · rw [if_pos isBackslash, others, isBackslash, List.replicate_succ', List.append_assoc,
          List.singleton_append]
      · rw [if_neg isBackslash, if_neg noQuote, if_neg (by simp [visible]), others]
        simp [extend]

theorem splitLater_between_plain {text rest : List Character} {tokens : List (List Character)}
    (nonempty : text ≠ [])
    (plain : ∀ character ∈ text, alphabet.blank character = false ∧ character ≠ alphabet.quote)
    (behind : Behind alphabet rest tokens) :
    splitLater alphabet .between (text ++ rest) = text :: tokens := by
  cases text with
  | nil => exact absurd rfl nonempty
  | cons character text =>
      obtain ⟨visible, noQuote⟩ := plain character (by simp)
      have others : ∀ other ∈ text, alphabet.blank other = false ∧ other ≠ alphabet.quote :=
        fun other member => plain other (by simp [member])
      rw [List.cons_append, splitLater, if_neg (by simp [visible])]
      by_cases isBackslash : character = alphabet.backslash
      · rw [if_pos isBackslash, splitLater_plain others behind, isBackslash]
        rfl
      · rw [if_neg isBackslash, if_neg noQuote, splitLater_plain others behind]
        rfl

/-- Quotes open an argument. -/
theorem splitLater_between_quote (rest : List Character) :
    splitLater alphabet .between (alphabet.quote :: rest) =
      splitLater alphabet (.token true 0) rest := by
  rw [splitLater, if_neg (by simp [alphabet.blank_quote]), if_neg alphabet.quote_ne_backslash,
    if_pos rfl]

/-! ## The first argument -/

/-- The first argument ends at the end or at a blank. -/
theorem splitFirst_plain {quoted : Bool} {text rest : List Character}
    (noQuote : ∀ character ∈ text, character ≠ alphabet.quote)
    (inside : quoted = true ∨ ∀ character ∈ text, alphabet.blank character = false) :
    splitFirst alphabet quoted (text ++ rest) =
      (text ++ (splitFirst alphabet quoted rest).1, (splitFirst alphabet quoted rest).2) := by
  induction text with
  | nil => rfl
  | cons character text inductionHypothesis =>
      have noEnd : ¬(alphabet.blank character && !quoted) = true := by
        rcases inside with quotes | visible
        · simp [quotes]
        · simp [visible character (by simp)]
      have others := inductionHypothesis (fun other member => noQuote other (by simp [member]))
        (inside.imp_right fun visible other member => visible other (by simp [member]))
      rw [List.cons_append, splitFirst, if_neg (noQuote character (by simp)), if_neg noEnd, others]
      rfl

theorem splitFirst_quote (quoted : Bool) (rest : List Character) :
    splitFirst alphabet quoted (alphabet.quote :: rest) =
      splitFirst alphabet (!quoted) rest := by
  rw [splitFirst, if_pos rfl]

/-- What is behind the first argument splits like what is behind any other. -/
theorem Behind.splitFirst {rest : List Character} {tokens : List (List Character)}
    (behind : Behind alphabet rest tokens) :
    ∃ more, ArgumentRules.splitFirst alphabet false rest = ([], more) ∧
      splitLater alphabet .between more = tokens := by
  cases behind with
  | nothing => exact ⟨[], rfl, rfl⟩
  | @more separator rest blank =>
      have noQuote : separator ≠ alphabet.quote := by
        rintro rfl
        simp [alphabet.blank_quote] at blank
      refine ⟨rest, ?_, rfl⟩
      rw [ArgumentRules.splitFirst, if_neg noQuote, if_pos (by simp [blank])]

end ArgumentRules
