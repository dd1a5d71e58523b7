import ApiScope.Cli.Options
import Mathlib.Algebra.Group.Nat.Defs

/-!
# The grammar of the command line

A command is a word, option groups and, for `run`, `--` and the target's own
arguments.  `ParseCommandLine` accepts exactly the commands of this grammar and
returns what they ask for.
-/

namespace ApiScope

/-! ## Options -/

/-- One option with its value. -/
inductive CommandOption where
  | hook (value : List UInt16)
  | format (value : TraceOutputFormat)
  | output (path : List UInt16)
  | quiet
  | pid (value : List UInt16)

/-- The value of decimal digits behind a number that has been read. -/
def numeralFrom (parsed : Nat) : List UInt16 → Nat
  | [] => parsed
  | character :: rest => numeralFrom (parsed * 10 + (character - wide '0').toNat) rest

def numeralValue (value : List UInt16) : Nat := numeralFrom 0 value

def IsDigit (character : UInt16) : Prop := wide '0' ≤ character ∧ character ≤ wide '9'

/-- A decimal numeral between 1 and 2^32 - 1. -/
structure IsProcessId (value : List UInt16) : Prop where
  nonempty : value ≠ []
  digits : ∀ character ∈ value, IsDigit character
  positive : 1 ≤ numeralValue value
  bounded : numeralValue value ≤ 2 ^ 32 - 1

namespace CommandOption

def flags : CommandOption → List (List UInt16)
  | hook _ => [wideText "--hook", wideText "-k"]
  | format _ => [wideText "--format", wideText "-f"]
  | output _ => [wideText "--output", wideText "-o"]
  | quiet => [wideText "--quiet", wideText "-q"]
  | pid _ => [wideText "--pid", wideText "-p"]

def operands : CommandOption → List (List UInt16)
  | hook value => [value]
  | format .text => [wideText "text"]
  | format .jsonl => [wideText "jsonl"]
  | output path => [path]
  | quiet => []
  | pid value => [value]

/-- Allowed with this command, with an admissible value. -/
def Legal (attach : Bool) : CommandOption → Prop
  | hook value => value ≠ [] ∧ ∀ character ∈ value, character ≤ 0x7F
  | format _ | output _ | quiet => True
  | pid value => attach = true ∧ IsProcessId value

def hook? : CommandOption → Option (List UInt8)
  | hook value => some (value.map UInt16.toUInt8)
  | _ => none

def format? : CommandOption → Option TraceOutputFormat
  | format value => some value
  | _ => none

def output? : CommandOption → Option (List UInt16)
  | output path => some path
  | _ => none

def quiet? : CommandOption → Bool
  | quiet => true
  | _ => false

def pid? : CommandOption → Option Nat
  | pid value => some (numeralValue value)
  | _ => none

end CommandOption

/-- A list of options and its words. -/
inductive Spelled (attach : Bool) : List CommandOption → List (List UInt16) → Prop where
  | nil : Spelled attach [] []
  | cons {option : CommandOption} {flag : List UInt16} {options : List CommandOption}
      {words : List (List UInt16)} :
      flag ∈ option.flags → option.Legal attach → Spelled attach options words →
      Spelled attach (option :: options) (flag :: (option.operands ++ words))

/-! ## Requests -/

/-- `all`, or the name of an available hook with one exclamation mark strictly inside. -/
def Requestable (availableHooks : List HookDefinition) (value : List UInt8) : Prop :=
  value = narrow "all" ∨
    ∃ moduleName exportName, value = moduleName ++ 0x21 :: exportName ∧
      moduleName ≠ [] ∧ exportName ≠ [] ∧ 0x21 ∉ moduleName ∧ 0x21 ∉ exportName ∧
      ∃ hook ∈ availableHooks,
        hook.canonicalName = NormalizeModuleName moduleName ++ 0x21 :: exportName

/-- The hooks one request asks for. -/
def requestedBy (availableHooks : List HookDefinition) (value : List UInt8) :
    List HookDefinition :=
  if value = narrow "all" then availableHooks
  else
    (FindSupportedHook availableHooks
      (NormalizeModuleName (value.takeWhile (· != 0x21)) ++ value.dropWhile (· != 0x21))).toList

/-- The first hook of every name. -/
def firstOccurrences : List HookDefinition → List HookDefinition
  | [] => []
  | hook :: rest =>
      hook :: (firstOccurrences rest).filter fun other => other.canonicalName != hook.canonicalName

/-! ## Commands -/

section Commands

variable (availableHooks : List HookDefinition) (options : List CommandOption)

def requests : List (List UInt8) := options.filterMap CommandOption.hook?

def requestedHooks : List HookDefinition :=
  (requests options).flatMap (requestedBy availableHooks)

def outputPath : List UInt16 := (options.filterMap CommandOption.output?).getLast?.getD []

/-- What every command needs. -/
structure Acceptable : Prop where
  known : ∀ value ∈ requests options, Requestable availableHooks value
  some_hook : requestedHooks availableHooks options ≠ []
  output : options.any CommandOption.quiet? = true ∨
    options.filterMap CommandOption.format? ≠ [] → outputPath options ≠ []

/-- `run <options> -- <target arguments>` -/
structure IsRun (argv target : List (List UInt16)) : Prop where
  spelled : ∃ program words, Spelled false options words ∧
    argv = program :: wideText "run" :: (words ++ wideText "--" :: target)
  target_ne_nil : target ≠ []
  acceptable : Acceptable availableHooks options

/-- `attach <options>` -/
structure IsAttach (argv : List (List UInt16)) : Prop where
  spelled : ∃ program words, Spelled true options words ∧
    argv = program :: wideText "attach" :: words
  some_pid : options.filterMap CommandOption.pid? ≠ []
  acceptable : Acceptable availableHooks options

/-- What a command asks for: every hook once, in the order of the requests, and the last value
of every other option. -/
def meaning (mode : CommandMode) (target : List (List UInt16)) : CommandLineOptions where
  mode := mode
  hooks := firstOccurrences (requestedHooks availableHooks options)
  targetArguments := target
  targetProcessId := (options.filterMap CommandOption.pid?).getLast?.getD 0
  output :=
    { format := (options.filterMap CommandOption.format?).getLast?.getD .text
      outputPath := outputPath options
      quiet := options.any CommandOption.quiet? }
  error := []

end Commands

/-! ## Values -/

theorem le_numeralFrom (parsed : Nat) (value : List UInt16) :
    parsed ≤ numeralFrom parsed value := by
  induction value generalizing parsed with
  | nil => exact Nat.le_refl parsed
  | cons character rest inductionHypothesis =>
      refine Nat.le_trans ?_ (inductionHypothesis _)
      omega

theorem not_isDigit_iff {character : UInt16} :
    ¬IsDigit character ↔ character < wide '0' ∨ character > wide '9' := by
  rw [IsDigit, not_and_or, UInt16.not_le, UInt16.not_le]

/-- What the bound lets through does not wrap around with one digit more. -/
theorem ParseProcessId.toNat_digit {parsed : UInt64} {character : UInt16}
    (small : parsed.toNat ≤ 0xFFFFFFFF) (digit : IsDigit character) :
    (parsed * 10 + (character - wide '0').toUInt64).toNat =
      parsed.toNat * 10 + (character - wide '0').toNat := by
  have ten : (10 : UInt64).toNat = 10 := rfl
  have offset : (character - wide '0').toNat ≤ 9 := by
    rw [UInt16.toNat_sub_of_le _ _ digit.1]
    have upper := UInt16.le_iff_toNat_le.mp digit.2
    have zero : (wide '0').toNat = 48 := rfl
    have nine : (wide '9').toNat = 57 := rfl
    omega
  rw [UInt64.toNat_add, UInt64.toNat_mul, UInt16.toNat_toUInt64, ten]
  omega

/-- The bound is checked after every digit, and the number only grows. -/
theorem ParseProcessId.loop_eq_some_iff {value : List UInt16} {parsed processId : UInt64}
    (small : parsed.toNat ≤ 0xFFFFFFFF) :
    ParseProcessId.loop value parsed = some processId ↔
      (∀ character ∈ value, IsDigit character) ∧
        numeralFrom parsed.toNat value = processId.toNat ∧ processId.toNat ≤ 0xFFFFFFFF := by
  induction value generalizing parsed with
  | nil =>
      simp only [loop, Option.some.injEq, List.not_mem_nil, false_implies, implies_true,
        numeralFrom, true_and]
      constructor
      · rintro rfl
        exact ⟨rfl, small⟩
      · exact fun same => UInt64.toNat_inj.mp same.1
  | cons character rest inductionHypothesis =>
      rw [loop, List.forall_mem_cons, numeralFrom]
      dsimp only
      by_cases digit : IsDigit character
      · have exact_ := toNat_digit small digit
        rw [if_neg (mt not_isDigit_iff.mpr (not_not.mpr digit))]
        split_ifs with large
        · have above := UInt64.lt_iff_toNat_lt.mp large
          rw [exact_] at above
          have grows := le_numeralFrom (parsed.toNat * 10 + (character - wide '0').toNat) rest
          have bound : (0xFFFFFFFF : UInt64).toNat = 0xFFFFFFFF := rfl
          simp only [false_iff, not_and]
          intro _ same
          omega
        · have below := UInt64.le_iff_toNat_le.mp (UInt64.not_lt.mp large)
          rw [inductionHypothesis below, exact_]
          simp [digit]
      · rw [if_pos (not_isDigit_iff.mp digit)]
        simp [digit]

theorem ParseProcessId_eq_some_iff {value : List UInt16} {processId : Nat} :
    ParseProcessId value = some processId ↔
      IsProcessId value ∧ numeralValue value = processId := by
  unfold ParseProcessId
  split_ifs with empty
  · simp only [false_iff, not_and]
    exact fun valid => absurd empty valid.nonempty
  · have spec := fun processId =>
      @ParseProcessId.loop_eq_some_iff value 0 processId (Nat.zero_le _)
    have narrowed : ∀ parsed : UInt64, parsed.toNat ≤ 0xFFFFFFFF →
        parsed.toUInt32.toNat = parsed.toNat := fun parsed bounded => by
      rw [UInt64.toNat_toUInt32]
      omega
    constructor
    · intro accepted
      cases read : ParseProcessId.loop value 0 with
      | none => simp [read] at accepted
      | some parsed =>
          obtain ⟨digits, total, bounded⟩ := (spec parsed).mp read
          simp only [read] at accepted
          split_ifs at accepted with zero
          rw [narrowed parsed bounded] at accepted
          cases accepted
          have positive : parsed.toNat ≠ 0 := fun isZero => zero (UInt64.toNat_inj.mp isZero)
          exact ⟨⟨empty, digits, by rw [numeralValue]; exact total ▸ Nat.pos_of_ne_zero positive,
            by rw [numeralValue]; exact total ▸ bounded⟩, total⟩
    · rintro ⟨⟨_, digits, positive, bounded⟩, rfl⟩
      have value_ : (UInt64.ofNat (numeralValue value)).toNat = numeralValue value :=
        UInt64.toNat_ofNat_of_lt' (bounded.trans_lt (by decide))
      have read := (spec (.ofNat (numeralValue value))).mpr
        ⟨digits, value_.symm, by rw [value_]; omega⟩
      rw [read]
      dsimp only
      rw [if_neg, narrowed _ (by omega), value_]
      intro isZero
      rw [isZero] at value_
      have zero : (0 : UInt64).toNat = 0 := rfl
      omega

theorem NarrowHookName_of_ascii {value : List UInt16}
    (ascii : ∀ character ∈ value, character ≤ 0x7F) :
    NarrowHookName value = value.map UInt16.toUInt8 := by
  unfold NarrowHookName
  rw [if_neg]
  simpa using ascii

theorem ascii_of_NarrowHookName {value : List UInt16} (accepted : NarrowHookName value ≠ []) :
    value ≠ [] ∧ ∀ character ∈ value, character ≤ 0x7F := by
  unfold NarrowHookName at accepted
  split_ifs at accepted with wideCharacter
  · exact absurd rfl accepted
  · exact ⟨by simpa using accepted, by simpa using wideCharacter⟩

/-! ## The loop over the options -/

open ParseCommandLine

/-- What one option does to the local variables. -/
def CommandOption.apply (locals : Locals) : CommandOption → Locals
  | hook value =>
      { locals with requestedHooks := locals.requestedHooks ++ [value.map UInt16.toUInt8] }
  | format value =>
      { locals with
        options.output.format := value
        formatSpecified := true }
  | output path => { locals with options.output.outputPath := path }
  | quiet => { locals with options.output.quiet := true }
  | pid value =>
      { locals with options := { locals.options with targetProcessId := numeralValue value } }

/-- The arguments are options with this effect, up to their end or to `--`. -/
def Explains (attach : Bool) (arguments : List (List UInt16)) (locals locals' : Locals)
    (rest : List (List UInt16)) : Prop :=
  ∃ options words, Spelled attach options words ∧
    locals' = options.foldl CommandOption.apply locals ∧
    (arguments = words ∧ rest = [] ∨
      attach = false ∧ arguments = words ++ wideText "--" :: rest)

theorem Explains.cons {attach : Bool} {option : CommandOption} {flag : List UInt16}
    {arguments rest : List (List UInt16)} {locals locals' : Locals}
    (known : flag ∈ option.flags) (legal : option.Legal attach)
    (explains : Explains attach arguments (option.apply locals) locals' rest) :
    Explains attach (flag :: (option.operands ++ arguments)) locals locals' rest := by
  obtain ⟨options, words, spelled, effect, shape⟩ := explains
  refine ⟨option :: options, flag :: (option.operands ++ words), .cons known legal spelled,
    effect, ?_⟩
  rcases shape with ⟨rfl, ended⟩ | ⟨run, rfl⟩
  · exact Or.inl ⟨rfl, ended⟩
  · exact Or.inr ⟨run, by simp⟩

theorem loop_sound {attach : Bool} {arguments rest : List (List UInt16)}
    {locals locals' : Locals}
    (parsed : ParseCommandLine.loop attach arguments locals = .ok (locals', rest)) :
    Explains attach arguments locals locals' rest := by
  fun_induction ParseCommandLine.loop attach arguments locals
  case case1 =>
      cases parsed
      exact ⟨[], [], .nil, rfl, Or.inl ⟨rfl, rfl⟩⟩
  case case3 isRun =>
      cases parsed
      exact ⟨[], [], .nil, rfl, Or.inr ⟨by simpa using isRun, rfl⟩⟩
  case case6 argument locals _ isPid attaches value rest processId read inductionHypothesis =>
      obtain ⟨valid, rfl⟩ := ParseProcessId_eq_some_iff.mp read
      have known : argument ∈ (CommandOption.pid value).flags := by
        simpa [CommandOption.flags] using isPid
      exact Explains.cons known ⟨attaches, valid⟩ (inductionHypothesis parsed)
  case case10 argument locals _ _ isHook value rest hook accepted inductionHypothesis =>
      obtain ⟨nonempty, ascii⟩ := ascii_of_NarrowHookName accepted
      have known : argument ∈ (CommandOption.hook value).flags := by
        simpa [CommandOption.flags] using isHook
      have name : hook = value.map UInt16.toUInt8 := NarrowHookName_of_ascii ascii
      rw [name] at inductionHypothesis parsed
      exact Explains.cons known ⟨nonempty, ascii⟩ (inductionHypothesis parsed)
  case case12 argument locals _ _ _ isFormat rest inductionHypothesis =>
      have known : argument ∈ (CommandOption.format .text).flags := by
        simpa [CommandOption.flags] using isFormat
      exact Explains.cons known trivial (inductionHypothesis parsed)
  case case13 argument locals _ _ _ isFormat rest _ inductionHypothesis =>
      have known : argument ∈ (CommandOption.format .jsonl).flags := by
        simpa [CommandOption.flags] using isFormat
      exact Explains.cons known trivial (inductionHypothesis parsed)
  case case16 argument locals _ _ _ _ isOutput path rest inductionHypothesis =>
      have known : argument ∈ (CommandOption.output path).flags := by
        simpa [CommandOption.flags] using isOutput
      exact Explains.cons known trivial (inductionHypothesis parsed)
  case case17 argument rest locals _ _ _ _ _ isQuiet inductionHypothesis =>
      have known : argument ∈ CommandOption.quiet.flags := by
        simpa [CommandOption.flags] using isQuiet
      exact Explains.cons known trivial (inductionHypothesis parsed)
  all_goals cases parsed

/-- The loop reads one option and goes on behind it. -/
theorem loop_option {attach : Bool} {option : CommandOption} {flag : List UInt16}
    (known : flag ∈ option.flags) (legal : option.Legal attach) (rest : List (List UInt16))
    (locals : Locals) :
    ParseCommandLine.loop attach (flag :: (option.operands ++ rest)) locals =
      ParseCommandLine.loop attach rest (option.apply locals) := by
  cases option with
  | hook value =>
      obtain ⟨nonempty, ascii⟩ := legal
      have name := NarrowHookName_of_ascii ascii
      have accepted : value.map UInt16.toUInt8 ≠ [] := by simpa using nonempty
      simp only [CommandOption.flags, List.mem_cons, List.not_mem_nil, or_false] at known
      rcases known with rfl | rfl <;>
        simp +decide [ParseCommandLine.loop, CommandOption.operands, CommandOption.apply, name,
          nonempty]
  | format value =>
      simp only [CommandOption.flags, List.mem_cons, List.not_mem_nil, or_false] at known
      rcases known with rfl | rfl <;> cases value <;>
        simp +decide [ParseCommandLine.loop, CommandOption.operands, CommandOption.apply]
  | output path =>
      simp only [CommandOption.flags, List.mem_cons, List.not_mem_nil, or_false] at known
      rcases known with rfl | rfl <;>
        simp +decide [ParseCommandLine.loop, CommandOption.operands, CommandOption.apply]
  | quiet =>
      simp only [CommandOption.flags, List.mem_cons, List.not_mem_nil, or_false] at known
      rcases known with rfl | rfl <;> rw [ParseCommandLine.loop.eq_def] <;>
        simp +decide [CommandOption.operands, CommandOption.apply]
  | pid value =>
      obtain ⟨attaches, valid⟩ := legal
      have read := ParseProcessId_eq_some_iff.mpr ⟨valid, rfl⟩
      simp only [CommandOption.flags, List.mem_cons, List.not_mem_nil, or_false] at known
      rcases known with rfl | rfl <;>
        simp +decide [ParseCommandLine.loop, CommandOption.operands, CommandOption.apply, read,
          attaches]

theorem loop_complete {attach : Bool} {options : List CommandOption}
    {words : List (List UInt16)} (spelled : Spelled attach options words)
    (rest : List (List UInt16)) (locals : Locals) :
    ParseCommandLine.loop attach (words ++ rest) locals =
      ParseCommandLine.loop attach rest (options.foldl CommandOption.apply locals) := by
  induction spelled generalizing locals with
  | nil => rfl
  | @cons option flag options words known legal _ inductionHypothesis =>
      rw [List.cons_append, List.append_assoc, loop_option known legal, inductionHypothesis]
      rfl

/-- Every option adds to the requests or replaces the value before it. -/
theorem foldl_apply (options : List CommandOption) (locals : Locals) :
    options.foldl CommandOption.apply locals =
      { options :=
          { locals.options with
            targetProcessId := (options.filterMap CommandOption.pid?).getLast?.getD
              locals.options.targetProcessId
            output :=
              { format := (options.filterMap CommandOption.format?).getLast?.getD
                  locals.options.output.format
                outputPath := (options.filterMap CommandOption.output?).getLast?.getD
                  locals.options.output.outputPath
                quiet := locals.options.output.quiet || options.any CommandOption.quiet? } }
        requestedHooks := locals.requestedHooks ++ requests options
        formatSpecified := locals.formatSpecified ||
          !(options.filterMap CommandOption.format?).isEmpty } := by
  induction options generalizing locals with
  | nil => simp [requests]
  | cons option options inductionHypothesis =>
      rw [List.foldl_cons, inductionHypothesis]
      cases option <;>
        simp [CommandOption.apply, requests, CommandOption.hook?, CommandOption.format?,
          CommandOption.output?, CommandOption.quiet?, CommandOption.pid?, List.filterMap_cons,
          List.getLast?_cons]

end ApiScope
