import ApiScope.Cli.Selection
import ApiScope.Hook.Descriptors
import ApiScope.Library.Logged

/-!
# The program

`wmain` parses its arguments twice, first without any hooks and then with those
that it has discovered.  It starts a session for a command of the grammar, with
what the session cannot do without, and exits with success only for questions
about itself.
-/

namespace ApiScope

open ParseCommandLine

def MAX_PATH : Nat := 260

/-- What `wmain` asks of the system: the path of the executable as far as it fits, what a DLL is
loaded as, and the number of its own process. -/
structure Environment where
  executablePath : List UInt16
  loadModule : List UInt16 → Option LoadedModule
  currentProcessId : Nat

/-- What is printed. -/
inductive MainAction where
  | usage
  | version
  | supportedHooks (text : List UInt8)
  | noHooksDiscovered
  | error (text : List UInt8)
  | refusesItself
  | attaching (processId : Nat)
  | target (argument : List UInt16)
  | selectedHooks (text : List UInt8)

/-- How `wmain` ends, or the session that it ends with. -/
inductive Invoked where
  | exits (status : Nat)
  | session (hookDllPath : List UInt16) (options : CommandLineOptions)

def isSeparator (character : UInt16) : Bool := character == wide '\\' || character == wide '/'

def GetSiblingPath (executablePath fileName : List UInt16) : List UInt16 :=
  if executablePath.length = 0 ∨ executablePath.length = MAX_PATH then fileName
  else executablePath.rdropWhile (fun character => !isSeparator character) ++ fileName

def PrintSupportedHooks (hooks : List HookDefinition) : List UInt8 :=
  hooks.flatMap fun hook => hook.canonicalName ++ narrow "\n"

def PrintSelectedHooks (hooks : List HookDefinition) : List UInt8 :=
  narrow "[+] Hooks: " ++ (hooks.flatMap fun hook => hook.canonicalName ++ narrow " ") ++
    narrow "\n\n"

namespace Environment

def hookDllPath (environment : Environment) : List UInt16 :=
  GetSiblingPath environment.executablePath (wideText "apiscope-hooks.dll")

def availableHooks (environment : Environment) : List HookDefinition :=
  DiscoverHooks (environment.loadModule environment.hookDllPath)

end Environment

def wmain (environment : Environment) (argv : List (List UInt16)) : Logged MainAction Invoked :=
  let options := ParseCommandLine argv []
  if options.mode = .help then Logged.emit .usage (.exits 0)
  else if options.mode = .version then Logged.emit .version (.exits 0)
  else
    let availableHooks := environment.availableHooks
    let options := ParseCommandLine argv availableHooks
    if options.mode = .listHooks then
      if availableHooks = [] then Logged.emit .noHooksDiscovered (.exits 1)
      else Logged.emit (.supportedHooks (PrintSupportedHooks availableHooks)) (.exits 0)
    else if options.mode = .error then do
      Logged.emit (.error options.error) ()
      Logged.emit .usage (.exits 1)
    else if options.mode = .attach ∧ options.targetProcessId = environment.currentProcessId then
      Logged.emit .refusesItself (.exits 1)
    else do
      if options.mode = .attach then Logged.emit (.attaching options.targetProcessId) ()
      else Logged.emit (.target (options.targetArguments.headD [])) ()
      Logged.emit (.selectedHooks (PrintSelectedHooks options.hooks)) ()
      pure (.session environment.hookDllPath options)

/-! ## The two passes -/

/-- The modes that do not depend on the hooks. -/
def CommandMode.informs : CommandMode → Bool
  | .help | .version | .listHooks => true
  | .run | .attach | .error => false

theorem informs_command {attach : Bool} {availableHooks : List HookDefinition}
    (words : List (List UInt16)) :
    (match ParseCommandLine.loop attach words ⟨start, [], false⟩ with
      | .error options => options
      | .ok (locals, rest) => finish attach availableHooks locals rest).mode.informs = false := by
  cases read : ParseCommandLine.loop attach words ⟨start, [], false⟩ with
  | error options =>
      dsimp only
      rw [mode_of_loop_error read]
      rfl
  | ok result =>
      obtain ⟨locals, rest⟩ := result
      obtain ⟨options, _, _, effect, _⟩ := loop_sound read
      subst effect
      by_cases failed : (finish attach availableHooks (readOptions options) rest).mode = .error
      · exact congrArg CommandMode.informs failed
      · have ready := ready_of_finish (by rw [readOptions_eq]; rfl) (by rw [readOptions_eq]; rfl)
          failed
        refine (congrArg (fun options => options.mode.informs) (finish_readOptions ready)).trans ?_
        cases attach <;> rfl

/-- A question about the program itself. -/
structure IsQuestion (flags : List (List UInt16)) (argv : List (List UInt16)) : Prop where
  asked : ∃ program, ∃ flag ∈ flags, argv = [program, flag]

def IsVersion : List (List UInt16) → Prop := IsQuestion [wideText "--version", wideText "-V"]

def IsListHooks : List (List UInt16) → Prop := IsQuestion [wideText "--list-hooks", wideText "-l"]

/-- Without any arguments too. -/
def IsHelp (argv : List (List UInt16)) : Prop :=
  (∃ program, argv = [program]) ∨ IsQuestion [wideText "--help", wideText "-h"] argv

theorem isQuestion_cons {program command long short : List UInt16} {rest : List (List UInt16)} :
    IsQuestion [long, short] (program :: command :: rest) ↔
      rest = [] ∧ (command = long ∨ command = short) := by
  constructor
  · rintro ⟨_, flag, member, same⟩
    simp only [List.cons.injEq] at same
    obtain ⟨-, rfl, rfl⟩ := same
    simpa using member
  · rintro ⟨rfl, known⟩
    exact ⟨program, command, by simpa using known, rfl⟩

theorem mode_of_not_informs {options : CommandLineOptions} (silent : options.mode.informs = false) :
    options.mode ≠ .help ∧ options.mode ≠ .version ∧ options.mode ≠ .listHooks := by
  refine ⟨?_, ?_, ?_⟩ <;> exact fun asked => by simp [asked, CommandMode.informs] at silent

/-- What is asked, if anything is. -/
theorem mode_question (argv : List (List UInt16)) (hooks : List HookDefinition) :
    ((ParseCommandLine argv hooks).mode = .help ↔ IsHelp argv) ∧
    ((ParseCommandLine argv hooks).mode = .version ↔ IsVersion argv) ∧
    ((ParseCommandLine argv hooks).mode = .listHooks ↔ IsListHooks argv) := by
  match argv with
  | [] =>
      refine ⟨iff_of_false nofun ?_, iff_of_false nofun ?_, iff_of_false nofun ?_⟩
      · rintro (⟨_, same⟩ | ⟨_, _, _, same⟩) <;> cases same
      · rintro ⟨_, _, _, same⟩
        cases same
      · rintro ⟨_, _, _, same⟩
        cases same
  | [program] =>
      refine ⟨iff_of_true rfl (.inl ⟨program, rfl⟩), iff_of_false nofun ?_, iff_of_false nofun ?_⟩
      · rintro ⟨_, _, _, same⟩
        cases same
      · rintro ⟨_, _, _, same⟩
        cases same
  | program :: command :: rest =>
      have several : ¬∃ name, program :: command :: rest = [name] := by simp
      rw [IsHelp, or_iff_right several, IsVersion, IsListHooks, isQuestion_cons, isQuestion_cons,
        isQuestion_cons]
      unfold ParseCommandLine
      dsimp only
      split_ifs with lists helps asks isCommand
      · obtain ⟨rfl, rfl | rfl⟩ := lists <;> decide
      · obtain ⟨rfl, rfl | rfl⟩ := helps <;> decide
      · obtain ⟨rfl, rfl | rfl⟩ := asks <;> decide
      · have silent := mode_of_not_informs (@informs_command (command == wideText "attach") hooks rest)
        exact ⟨iff_of_false silent.1 helps, iff_of_false silent.2.1 asks,
          iff_of_false silent.2.2 lists⟩
      · exact ⟨iff_of_false nofun helps, iff_of_false nofun asks, iff_of_false nofun lists⟩

/-! ## What the program does -/

section Program

variable (environment : Environment) (argv : List (List UInt16))

/-- A command of the grammar, and what it means with the hooks that there are. -/
inductive IsCommand : CommandLineOptions → Prop where
  | run {words : List CommandOption} {target : List (List UInt16)} :
      IsRun environment.availableHooks words argv target →
      IsCommand (meaning environment.availableHooks words .run target)
  | attach {words : List CommandOption} :
      IsAttach environment.availableHooks words argv →
      (meaning environment.availableHooks words .attach []).targetProcessId ≠
        environment.currentProcessId →
      IsCommand (meaning environment.availableHooks words .attach [])

/-- What a session cannot do without. -/
structure Startable (options : CommandLineOptions) : Prop where
  hooks : options.hooks ≠ []
  discovered : ∀ hook ∈ options.hooks, hook ∈ environment.availableHooks
  distinct : (options.hooks.map HookDefinition.canonicalName).Nodup
  mode : options.mode = .run ∨ options.mode = .attach
  run : options.mode = .run → options.targetArguments ≠ [] ∧
    ∃ before, argv = before ++ wideText "--" :: options.targetArguments
  attach : options.mode = .attach → options.targetProcessId ≠ 0 ∧
    options.targetProcessId ≠ environment.currentProcessId
  output : options.output.quiet = true ∨ options.output.format = .jsonl →
    options.output.outputPath ≠ []

variable {environment argv} {options : CommandLineOptions}

theorem mem_requestedHooks {hooks : List HookDefinition} {words : List CommandOption}
    {hook : HookDefinition} (member : hook ∈ requestedHooks hooks words) : hook ∈ hooks := by
  obtain ⟨value, _, asked⟩ := List.mem_flatMap.mp member
  unfold requestedBy at asked
  split_ifs at asked
  · exact asked
  · exact List.mem_of_find?_eq_some (Option.mem_toList.mp asked)

theorem firstOccurrences_ne_nil {requested : List HookDefinition} (nonempty : requested ≠ []) :
    firstOccurrences requested ≠ [] := by
  cases requested with
  | nil => exact absurd rfl nonempty
  | cons hook requested => exact List.cons_ne_nil _ _

theorem IsCommand.startable (isCommand : IsCommand environment argv options) :
    Startable environment argv options := by
  have hooks : ∀ words, Acceptable environment.availableHooks words →
      firstOccurrences (requestedHooks environment.availableHooks words) ≠ [] ∧
      (∀ hook ∈ firstOccurrences (requestedHooks environment.availableHooks words),
        hook ∈ environment.availableHooks) := fun words acceptable =>
    ⟨firstOccurrences_ne_nil acceptable.some_hook, fun hook member =>
      mem_requestedHooks ((firstOccurrences_sublist _).subset member)⟩
  have output : ∀ words, Acceptable environment.availableHooks words →
      words.any CommandOption.quiet? = true ∨
        (words.filterMap CommandOption.format?).getLast?.getD .text = .jsonl →
      outputPath words ≠ [] := by
    intro words acceptable given
    refine acceptable.output (given.imp_right fun jsonl none => ?_)
    rw [none] at jsonl
    cases jsonl
  cases isCommand with
  | @run words target isRun =>
      obtain ⟨⟨program, before, -, whole⟩, nonempty, acceptable⟩ := isRun
      exact {
        hooks := (hooks words acceptable).1
        discovered := (hooks words acceptable).2
        distinct := nodup_firstOccurrences _
        mode := .inl rfl
        run := fun _ => ⟨nonempty, program :: wideText "run" :: before, whole⟩
        attach := nofun
        output := output words acceptable
      }
  | @attach words isAttach foreign =>
      obtain ⟨⟨program, before, spelled, whole⟩, somePid, acceptable⟩ := isAttach
      exact {
        hooks := (hooks words acceptable).1
        discovered := (hooks words acceptable).2
        distinct := nodup_firstOccurrences _
        mode := .inr rfl
        run := nofun
        attach := fun _ => ⟨(last_pid_ne_zero spelled).mpr somePid, foreign⟩
        output := output words acceptable
      }

/-- What follows the discovery, for a command. -/
theorem value_wmain_of_command
    (command : (ParseCommandLine argv environment.availableHooks).mode = .run ∨
      (ParseCommandLine argv environment.availableHooks).mode = .attach) :
    (wmain environment argv).value =
      if (ParseCommandLine argv environment.availableHooks).mode = .attach ∧
          (ParseCommandLine argv environment.availableHooks).targetProcessId =
            environment.currentProcessId then .exits 1
      else .session environment.hookDllPath
        (ParseCommandLine argv environment.availableHooks) := by
  obtain ⟨help, version, lists⟩ := mode_question argv environment.availableHooks
  obtain ⟨noHelp, noVersion, -⟩ := mode_question argv []
  have known : (ParseCommandLine argv environment.availableHooks).mode.informs = false ∧
      (ParseCommandLine argv environment.availableHooks).mode ≠ .error := by
    rcases command with mode | mode <;> rw [mode] <;> decide
  obtain ⟨isHelp, isVersion, isList⟩ := mode_of_not_informs known.1
  unfold wmain
  dsimp only
  rw [if_neg (mt noHelp.mp (mt help.mpr isHelp)), if_neg (mt noVersion.mp (mt version.mpr isVersion)),
    if_neg isList, if_neg known.2]
  split_ifs <;> rfl

/-- A question that can be answered. -/
def Answered (environment : Environment) (argv : List (List UInt16)) : Prop :=
  IsHelp argv ∨ IsVersion argv ∨ IsListHooks argv ∧ environment.availableHooks ≠ []

/-- Anything else ends at once. -/
theorem value_wmain_of_no_command
    (noRun : (ParseCommandLine argv environment.availableHooks).mode ≠ .run)
    (noAttach : (ParseCommandLine argv environment.availableHooks).mode ≠ .attach) :
    ∃ status, (wmain environment argv).value = .exits status ∧ status ≤ 1 ∧
      (status = 0 ↔ Answered environment argv) := by
  obtain ⟨help', version', lists⟩ := mode_question argv environment.availableHooks
  obtain ⟨help, version, -⟩ := mode_question argv []
  unfold wmain
  dsimp only
  split_ifs with isHelp isVersion isList none isError refused
  · exact ⟨0, rfl, by omega, iff_of_true rfl (.inl (help.mp isHelp))⟩
  · exact ⟨0, rfl, by omega, iff_of_true rfl (.inr (.inl (version.mp isVersion)))⟩
  · refine ⟨1, rfl, le_rfl, iff_of_false one_ne_zero ?_⟩
    rintro (helped | asked | ⟨_, some⟩)
    · exact isHelp (help.mpr helped)
    · exact isVersion (version.mpr asked)
    · exact some none
  · exact ⟨0, rfl, by omega, iff_of_true rfl (.inr (.inr ⟨lists.mp isList, none⟩))⟩
  · refine ⟨1, rfl, le_rfl, iff_of_false one_ne_zero ?_⟩
    rintro (helped | asked | ⟨listed, _⟩)
    · exact isHelp (help.mpr helped)
    · exact isVersion (version.mpr asked)
    · exact isList (lists.mpr listed)
  · exact absurd refused.1 noAttach
  · cases mode : (ParseCommandLine argv environment.availableHooks).mode with
    | run => exact absurd mode noRun
    | attach => exact absurd mode noAttach
    | listHooks => exact absurd mode isList
    | help => exact absurd (help.mpr (help'.mp mode)) isHelp
    | version => exact absurd (version.mpr (version'.mp mode)) isVersion
    | error => exact absurd mode isError

theorem informs_of_answered (answered : Answered environment argv) :
    (ParseCommandLine argv environment.availableHooks).mode.informs = true := by
  obtain ⟨help, version, lists⟩ := mode_question argv environment.availableHooks
  rcases answered with helped | asked | ⟨listed, _⟩
  · rw [help.mpr helped]
    rfl
  · rw [version.mpr asked]
    rfl
  · rw [lists.mpr listed]
    rfl

/-- The command that has been accepted. -/
theorem isCommand_iff : IsCommand environment argv options ↔
    options = ParseCommandLine argv environment.availableHooks ∧
      (options.mode = .run ∨
        options.mode = .attach ∧ options.targetProcessId ≠ environment.currentProcessId) := by
  constructor
  · rintro (isRun | ⟨isAttach, foreign⟩)
    · exact ⟨(parse_run isRun).symm, .inl rfl⟩
    · exact ⟨(parse_attach isAttach).symm, .inr ⟨rfl, foreign⟩⟩
  · rintro ⟨rfl, accepted⟩
    rcases parse_sound (accepted.imp_right And.left) with ⟨words, target, isRun⟩ | ⟨words, isAttach⟩
    · rw [parse_run isRun]
      exact .run isRun
    · rw [parse_attach isAttach] at accepted ⊢
      exact .attach isAttach (accepted.resolve_left nofun).2

theorem wmain_session_iff {path : List UInt16} :
    (wmain environment argv).value = .session path options ↔
      path = environment.hookDllPath ∧ IsCommand environment argv options := by
  rw [isCommand_iff]
  by_cases command : (ParseCommandLine argv environment.availableHooks).mode = .run ∨
      (ParseCommandLine argv environment.availableHooks).mode = .attach
  · rw [value_wmain_of_command command]
    split_ifs with itself
    · refine iff_of_false nofun ?_
      rintro ⟨-, rfl, run | ⟨-, foreign⟩⟩
      · simp [run] at itself
      · exact foreign itself.2
    · constructor
      · rintro ⟨⟩
        refine ⟨rfl, rfl, command.imp_right fun attach => ⟨attach, fun same => ?_⟩⟩
        exact itself ⟨attach, same⟩
      · rintro ⟨rfl, rfl, -⟩
        rfl
  · obtain ⟨noRun, noAttach⟩ := not_or.mp command
    obtain ⟨status, ends, -⟩ := value_wmain_of_no_command noRun noAttach
    rw [ends]
    refine iff_of_false nofun ?_
    rintro ⟨-, rfl, run | ⟨attach, -⟩⟩
    · exact noRun run
    · exact noAttach attach

/-- The program starts a session for exactly the commands of its grammar, except for one that
attaches to the program itself, and the session has what it needs.  It exits with success for
exactly the questions that it can answer. -/
theorem wmain_exact (environment : Environment) (argv : List (List UInt16)) :
    (∀ path options, (wmain environment argv).value = .session path options ↔
      path = environment.hookDllPath ∧ IsCommand environment argv options) ∧
    (∀ options, IsCommand environment argv options → Startable environment argv options) ∧
    ((wmain environment argv).value = .exits 0 ↔ Answered environment argv) ∧
    ∀ status, (wmain environment argv).value = .exits status → status ≤ 1 := by
  refine ⟨fun _ _ => wmain_session_iff, fun _ => IsCommand.startable, ?_⟩
  by_cases command : (ParseCommandLine argv environment.availableHooks).mode = .run ∨
      (ParseCommandLine argv environment.availableHooks).mode = .attach
  · have unanswered : ¬Answered environment argv := fun answered => by
      have informs := informs_of_answered answered
      rcases command with mode | mode <;> simp [mode, CommandMode.informs] at informs
    rw [value_wmain_of_command command]
    split_ifs
    · exact ⟨iff_of_false nofun unanswered, fun _ same => by cases same; exact le_rfl⟩
    · exact ⟨iff_of_false nofun unanswered, nofun⟩
  · obtain ⟨noRun, noAttach⟩ := not_or.mp command
    obtain ⟨status, ends, bound, success⟩ := value_wmain_of_no_command noRun noAttach
    rw [ends]
    refine ⟨⟨fun same => ?_, fun answered => ?_⟩, fun _ same => ?_⟩
    · cases same
      exact success.mp rfl
    · rw [success.mpr answered]
    · cases same
      exact bound

end Program

/-! ## From the definition of a hook to its session -/

section Defined

variable {environment : Environment} {module_ : LoadedModule} {hooks : List ApiHook}
  {hook : ApiHook} {attach : Bool}

/-- The DLL lies beside the executable. -/
structure Installed (environment : Environment) (module_ : LoadedModule) : Prop where
  fits : environment.executablePath.length < MAX_PATH
  beside : ∃ directory separator name,
    environment.executablePath = directory ++ separator :: name ∧
      isSeparator separator = true ∧ (∀ character ∈ name, isSeparator character = false) ∧
      environment.loadModule (directory ++ separator :: wideText "apiscope-hooks.dll") =
        some module_

theorem rdropWhile_name {directory name : List UInt16} {separator : UInt16}
    (isSeparates : isSeparator separator = true)
    (plain : ∀ character ∈ name, isSeparator character = false) :
    (directory ++ separator :: name).rdropWhile (fun character => !isSeparator character) =
      directory ++ [separator] := by
  induction name using List.reverseRecOn with
  | nil => exact List.rdropWhile_concat_neg _ _ _ (by simp [isSeparates])
  | append_singleton name character inductionHypothesis =>
      rw [← List.cons_append, ← List.append_assoc, List.rdropWhile_concat_pos _ _ _
        (by simp [plain character (by simp)])]
      exact inductionHypothesis fun other member => plain other (by simp [member])

theorem Installed.loads (installed : Installed environment module_) :
    environment.loadModule environment.hookDllPath = some module_ := by
  obtain ⟨directory, separator, name, path, isSeparates, plain, loaded⟩ := installed.beside
  have fits := installed.fits
  have present : ¬(environment.executablePath.length = 0 ∨
      environment.executablePath.length = MAX_PATH) := by
    rw [path] at fits ⊢
    simp only [List.length_append, List.length_cons] at fits ⊢
    omega
  rw [Environment.hookDllPath, GetSiblingPath, if_neg present, path,
    rdropWhile_name isSeparates plain, List.append_assoc]
  exact loaded

theorem mem_availableHooks (installed : Installed environment module_)
    (exports : Exports module_ hooks) (definable : Definable hooks) (member : hook ∈ hooks) :
    hook.definition ∈ environment.availableHooks := by
  rw [Environment.availableHooks, installed.loads]
  exact (exports.discoverHooks_perm definable).mem_iff.mpr (List.mem_map_of_mem member)

/-- The command with the name of a hook, as it is understood. -/
theorem OneHook.parse_meaning (command : OneHook attach) {available : List HookDefinition}
    {definition : HookDefinition} (wellDescribed : WellDescribed available)
    (member : definition ∈ available) (selectable : Selectable definition) :
    ParseCommandLine (command.argv (widen definition.canonicalName)) available =
      meaning available (command.options (widen definition.canonicalName))
        (if attach then .attach else .run) command.target := by
  have accepted := ((command.parse_spec wellDescribed member).1 selectable).1
  have nonempty : widen definition.canonicalName ≠ [] := by
    rw [(wellDescribed.1 definition member).canonicalName, widen]
    simp
  have read := command.loop_eq ⟨nonempty, ascii_widen.mpr selectable.ascii⟩
  have parsed := command.parse_eq (widen definition.canonicalName) available
  rw [read] at parsed
  rw [parsed] at accepted ⊢
  refine finish_readOptions (ready_of_finish (by rw [readOptions_eq]; rfl)
    (by rw [readOptions_eq]; rfl) ?_)
  rw [accepted]
  cases attach <;> decide

theorem OneHook.pid_foreign (command : OneHook true) {processId : Nat}
    (foreign : ((command.first ++ command.second).filterMap CommandOption.pid?).getLast? ≠
      some processId) (value : List UInt16) :
    ((command.options value).filterMap CommandOption.pid?).getLast?.getD 0 ≠ processId := by
  have same : (command.options value).filterMap CommandOption.pid? =
      (command.first ++ command.second).filterMap CommandOption.pid? := by
    rw [OneHook.options, List.filterMap_append, List.filterMap_append]
    rfl
  have given := command.complete.2
  rw [same]
  cases last : ((command.first ++ command.second).filterMap CommandOption.pid?).getLast? with
  | none => exact absurd (List.getLast?_eq_none_iff.mp last) given
  | some given =>
      rw [last] at foreign
      exact fun isSame => foreign (congrArg some isSame)

/-- A hook that has been defined in the DLL beside the executable can be asked for, alone, by its
name: the session gets what was defined.  A name that cannot be typed is an error. -/
theorem defined_hook_selected (command : OneHook attach)
    (installed : Installed environment module_) (exports : Exports module_ hooks)
    (definable : Definable hooks) (member : hook ∈ hooks)
    (foreign : ((command.first ++ command.second).filterMap CommandOption.pid?).getLast? ≠
      some environment.currentProcessId) :
    (Selectable hook.definition →
      ∃ options, (wmain environment (command.argv (widen hook.definition.canonicalName))).value =
          .session environment.hookDllPath options ∧
        options.hooks = [hook.definition] ∧ options.targetArguments = command.target) ∧
    (¬Selectable hook.definition →
      (wmain environment (command.argv (widen hook.definition.canonicalName))).value =
        .exits 1) := by
  have available := mem_availableHooks installed exports definable member
  have wellDescribed : WellDescribed environment.availableHooks := discoverHooks_spec _
  have spec := command.parse_spec wellDescribed available
  constructor
  · intro selectable
    have parsed := command.parse_meaning wellDescribed available selectable
    refine ⟨_, wmain_session_iff.mpr ⟨rfl, isCommand_iff.mpr ⟨parsed.symm, ?_⟩⟩, ?_, rfl⟩
    · cases attach with
      | false => exact .inl rfl
      | true => exact .inr ⟨rfl, command.pid_foreign foreign _⟩
    · rw [← parsed]
      exact (spec.1 selectable).2
  · intro unselectable
    have failed : (ParseCommandLine (command.argv (widen hook.definition.canonicalName))
        environment.availableHooks).mode = .error := by
      by_contra accepted
      exact unselectable (spec.2 accepted)
    obtain ⟨status, ends, bound, success⟩ := @value_wmain_of_no_command environment
      (command.argv (widen hook.definition.canonicalName)) (by simp [failed]) (by simp [failed])
    have unanswered : status ≠ 0 := fun isZero => by
      have informs := informs_of_answered (success.mp isZero)
      rw [failed] at informs
      cases informs
    have one : status = 1 := by omega
    rw [ends, one]

end Defined

namespace Main.Sample

open ApiHook

def environment : Environment where
  executablePath := wideText "C:\\tools\\apiscope.exe"
  loadModule path :=
    if path = wideText "C:\\tools\\apiscope-hooks.dll" then some (dll apiscopeHooks) else none
  currentProcessId := 4

theorem installed : Installed environment (dll apiscopeHooks) where
  fits := by decide
  beside := by
    have plain : (wideText "apiscope.exe").all (fun character => !isSeparator character) = true := by
      decide
    refine ⟨wideText "C:\\tools", wide '\\', wideText "apiscope.exe", rfl, rfl,
      fun character member => ?_, ?_⟩
    · simpa using List.all_eq_true.mp plain character member
    · have path : wideText "C:\\tools" ++ wide '\\' :: wideText "apiscope-hooks.dll" =
          wideText "C:\\tools\\apiscope-hooks.dll" := rfl
      simp [environment, path]

/-- `apiscope run -k ... -q -o trace -- app` -/
def command : OneHook false where
  program := wideText "apiscope"
  flag := wideText "-k"
  first := []
  second := [.quiet, .output (wideText "trace")]
  before := []
  after := [wideText "-q", wideText "-o", wideText "trace"]
  target := [wideText "app"]
  known := .inr rfl
  spelled_first := .nil
  spelled_second := .cons (by simp [CommandOption.flags]) trivial
    (.cons (by simp [CommandOption.flags]) trivial .nil)
  no_hook := rfl
  output := by decide
  complete := by decide

theorem selectable : Selectable NtReadFile.definition where
  ascii := by decide +kernel
  moduleName := by decide +kernel
  no_separator := by decide +kernel
  no_other := by decide +kernel

end Main.Sample

open ApiHook Main.Sample in
theorem defined_hook_selected_readFile :
    ∃ options, (wmain environment (command.argv (widen NtReadFile.definition.canonicalName))).value =
        .session environment.hookDllPath options ∧
      options.hooks = [NtReadFile.definition] ∧ options.targetArguments = [wideText "app"] :=
  (defined_hook_selected command installed exports_apiscopeHooks definable_apiscopeHooks
    (by simp [apiscopeHooks]) (by decide)).1 selectable

end ApiScope
