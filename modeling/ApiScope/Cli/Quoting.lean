import ApiScope.Library.ArgumentRules

/-!
# The command line of the target

`run` passes the target's arguments to `CreateProcessW` as one string.  The
string splits back into the arguments by the Windows argument rules.
-/

namespace ApiScope

open ArgumentRules

/-- A `wchar_t` literal. -/
def wide (character : Char) : UInt16 := .ofNat character.toNat

/-- The characters that are special to the splitting of a command line. -/
def windowsAlphabet : Alphabet UInt16 where
  quote := wide '"'
  backslash := wide '\\'
  blank character := character == wide ' ' || character == wide '\t'
  quote_ne_backslash := by decide
  blank_quote := by decide
  blank_backslash := by decide

/-- `argument.find_first_of(L" \t\n\v\"") != npos` for one character -/
def needsQuotes (character : UInt16) : Bool :=
  character == wide ' ' || character == wide '\t' || character == wide '\n' ||
    character == 0x0B || character == wide '"'

namespace QuoteWindowsArgument

/-- The loop over the argument and the closing quote. -/
def loop : List UInt16 → Nat → List UInt16
  | [], backslashes => List.replicate (backslashes * 2) (wide '\\') ++ [wide '"']
  | character :: rest, backslashes =>
      if character = wide '\\' then loop rest (backslashes + 1)
      else if character = wide '"' then
        List.replicate (backslashes * 2 + 1) (wide '\\') ++ wide '"' :: loop rest 0
      else List.replicate backslashes (wide '\\') ++ character :: loop rest 0

end QuoteWindowsArgument

def QuoteWindowsArgument (argument : List UInt16) : List UInt16 :=
  if argument ≠ [] ∧ argument.any needsQuotes = false then argument
  else wide '"' :: QuoteWindowsArgument.loop argument 0

def BuildWindowsCommandLine (arguments : List (List UInt16)) : List UInt16 :=
  arguments.foldl (fun commandLine argument =>
    (if commandLine ≠ [] then commandLine ++ [wide ' '] else commandLine) ++
      QuoteWindowsArgument argument) []

/-! ## One argument -/

theorem QuoteWindowsArgument_ne_nil (argument : List UInt16) :
    QuoteWindowsArgument argument ≠ [] := by
  unfold QuoteWindowsArgument
  split_ifs with plain
  · exact plain.1
  · simp

/-- An argument written without quotes has no character that would need them. -/
theorem plain_of_not_any {argument : List UInt16} (plain : argument.any needsQuotes = false) :
    ∀ character ∈ argument,
      windowsAlphabet.blank character = false ∧ character ≠ windowsAlphabet.quote := by
  intro character member
  have safe : needsQuotes character = false := by
    simpa using List.any_eq_false.mp plain character member
  simp only [needsQuotes, Bool.or_eq_false_iff, beq_eq_false_iff_ne] at safe
  obtain ⟨⟨⟨⟨noSpace, noTab⟩, _⟩, _⟩, noQuote⟩ := safe
  exact ⟨by simp [windowsAlphabet, noSpace, noTab], noQuote⟩

/-- The quoted form of an argument is read back as the argument. -/
theorem splitLater_loop (argument : List UInt16) (backslashes : Nat) {rest : List UInt16}
    {tokens : List (List UInt16)} (behind : Behind windowsAlphabet rest tokens) :
    splitLater windowsAlphabet (.token true 0)
        (QuoteWindowsArgument.loop argument backslashes ++ rest) =
      (List.replicate backslashes (wide '\\') ++ argument) :: tokens := by
  induction argument generalizing backslashes with
  | nil =>
      have closed := splitLater_closingQuote backslashes behind.single
      rw [behind.ends 0] at closed
      simpa [QuoteWindowsArgument.loop, extend, windowsAlphabet] using closed
  | cons character argument inductionHypothesis =>
      rw [QuoteWindowsArgument.loop]
      split_ifs with isBackslash isQuote
      · rw [inductionHypothesis, isBackslash, List.replicate_succ', List.append_assoc,
          List.singleton_append]
      · have literal := @splitLater_literalQuote _ _ windowsAlphabet true backslashes
          (QuoteWindowsArgument.loop argument 0 ++ rest)
        rw [inductionHypothesis 0] at literal
        simpa [extend, isQuote, windowsAlphabet] using literal
      · have literal := @splitLater_literal _ _ windowsAlphabet true backslashes character
          (QuoteWindowsArgument.loop argument 0 ++ rest) isBackslash isQuote (Or.inl rfl)
        rw [inductionHypothesis 0] at literal
        simpa [extend, windowsAlphabet] using literal

theorem splitLater_quoted (argument : List UInt16) {rest : List UInt16}
    {tokens : List (List UInt16)} (behind : Behind windowsAlphabet rest tokens) :
    splitLater windowsAlphabet .between (QuoteWindowsArgument argument ++ rest) =
      argument :: tokens := by
  unfold QuoteWindowsArgument
  split_ifs with plain
  · exact splitLater_between_plain plain.1 (plain_of_not_any plain.2) behind
  · exact (splitLater_between_quote _).trans (splitLater_loop argument 0 behind)

/-! ## The first argument -/

/-- Without quotes and without a backslash at its end, an argument is quoted as it is. -/
theorem loop_of_program {argument : List UInt16} {backslashes : Nat}
    (noQuote : wide '"' ∉ argument)
    (noBackslash : argument.getLast? ≠ some (wide '\\'))
    (pending : argument = [] → backslashes = 0) :
    QuoteWindowsArgument.loop argument backslashes =
      List.replicate backslashes (wide '\\') ++ argument ++ [wide '"'] := by
  induction argument generalizing backslashes with
  | nil =>
      rw [pending rfl]
      rfl
  | cons character argument inductionHypothesis =>
      simp only [List.mem_cons, not_or] at noQuote
      have isQuote : character ≠ wide '"' := fun equality => noQuote.1 equality.symm
      have noLast : argument.getLast? ≠ some (wide '\\') := by
        intro last
        cases argument with
        | nil => simp at last
        | cons other argument => exact noBackslash (by simpa using last)
      rw [QuoteWindowsArgument.loop, if_neg isQuote]
      split_ifs with isBackslash
      · have more : argument = [] → backslashes + 1 = 0 := by
          rintro rfl
          exact absurd (by simp [isBackslash]) noBackslash
        rw [inductionHypothesis noQuote.2 noLast more, isBackslash, List.replicate_succ']
        simp
      · rw [inductionHypothesis noQuote.2 noLast (fun _ => rfl)]
        simp

theorem splitFirst_quoted {argument : List UInt16} (noQuote : wide '"' ∉ argument)
    (noBackslash : argument.getLast? ≠ some (wide '\\')) {rest : List UInt16}
    {tokens : List (List UInt16)} (behind : Behind windowsAlphabet rest tokens) :
    ∃ more,
      splitFirst windowsAlphabet false (QuoteWindowsArgument argument ++ rest) =
        (argument, more) ∧
      splitLater windowsAlphabet .between more = tokens := by
  obtain ⟨more, ends, same⟩ := behind.splitFirst
  refine ⟨more, ?_, same⟩
  have noQuotes : ∀ character ∈ argument, character ≠ windowsAlphabet.quote := by
    rintro character member rfl
    exact noQuote member
  unfold QuoteWindowsArgument
  split_ifs with plain
  · have visible : ∀ character ∈ argument, windowsAlphabet.blank character = false :=
      fun character member => (plain_of_not_any plain.2 character member).1
    rw [splitFirst_plain noQuotes (Or.inr visible), ends]
    simp
  · have program := @loop_of_program argument 0 noQuote noBackslash (fun _ => rfl)
    have opening : wide '"' = windowsAlphabet.quote := rfl
    rw [program, opening, List.cons_append, splitFirst_quote, List.append_assoc,
      List.replicate_zero, List.nil_append, Bool.not_false,
      splitFirst_plain noQuotes (Or.inl rfl), List.singleton_append, splitFirst_quote,
      Bool.not_true, ends]
    simp

/-! ## The whole command line -/

/-- The arguments behind the first one, each with its separator. -/
def laterArguments (arguments : List (List UInt16)) : List UInt16 :=
  arguments.flatMap fun argument => wide ' ' :: QuoteWindowsArgument argument

theorem foldl_arguments (arguments : List (List UInt16)) {commandLine : List UInt16}
    (nonempty : commandLine ≠ []) :
    arguments.foldl (fun commandLine argument =>
      (if commandLine ≠ [] then commandLine ++ [wide ' '] else commandLine) ++
        QuoteWindowsArgument argument) commandLine =
      commandLine ++ laterArguments arguments := by
  induction arguments generalizing commandLine with
  | nil => simp [laterArguments]
  | cons argument arguments inductionHypothesis =>
      rw [List.foldl_cons, if_pos nonempty, inductionHypothesis (by simp)]
      simp [laterArguments]

theorem BuildWindowsCommandLine_cons (argument : List UInt16) (arguments : List (List UInt16)) :
    BuildWindowsCommandLine (argument :: arguments) =
      QuoteWindowsArgument argument ++ laterArguments arguments := by
  rw [BuildWindowsCommandLine, List.foldl_cons, if_neg (by simp), List.nil_append,
    foldl_arguments arguments (QuoteWindowsArgument_ne_nil argument)]

theorem behind_laterArguments (arguments : List (List UInt16)) :
    Behind windowsAlphabet (laterArguments arguments) arguments := by
  induction arguments with
  | nil => exact .nothing
  | cons argument arguments inductionHypothesis =>
      have behind := Behind.more (QuoteWindowsArgument argument ++ laterArguments arguments)
        (show windowsAlphabet.blank (wide ' ') = true by decide)
      rw [splitLater_quoted argument inductionHypothesis] at behind
      exact behind

/-- The target sees the arguments it was given. -/
theorem split_commandLine {program : List UInt16} {arguments : List (List UInt16)}
    (noQuote : wide '"' ∉ program) (noBackslash : program.getLast? ≠ some (wide '\\')) :
    split windowsAlphabet (BuildWindowsCommandLine (program :: arguments)) =
      program :: arguments := by
  have behind := behind_laterArguments arguments
  obtain ⟨more, first, later⟩ := splitFirst_quoted noQuote noBackslash behind
  rw [BuildWindowsCommandLine_cons, split, first]
  dsimp only
  rw [later]

/-- A program path with a blank, an empty argument, and backslashes before a quote. -/
theorem split_commandLine_sample :
    split windowsAlphabet (BuildWindowsCommandLine
      [[ 'C', ' ', 'D'].map wide, [], [ 'a', '\\', '"', '\\'].map wide]) =
      [[ 'C', ' ', 'D'].map wide, [], [ 'a', '\\', '"', '\\'].map wide] :=
  split_commandLine (by decide) (by decide)

end ApiScope
