import ApiScope.Cli.Grammar

/-!
# What a command line means

The requested hooks, each once, and the checks behind the loop over the
options.  Together with the loop they give the whole of `ParseCommandLine`.
-/

namespace ApiScope

open ParseCommandLine

/-! ## The requested hooks -/

theorem findIdx_separator {moduleName : List UInt8} (exportName : List UInt8)
    (noSeparator : 0x21 ∉ moduleName) :
    (moduleName ++ 0x21 :: exportName).findIdx (· == 0x21) = moduleName.length := by
  induction moduleName with
  | nil => simp [List.findIdx_cons]
  | cons character moduleName inductionHypothesis =>
      simp only [List.mem_cons, not_or] at noSeparator
      have other : (character == 0x21) = false := by
        simpa using fun equality : character = 0x21 => noSeparator.1 equality.symm
      rw [List.cons_append, List.findIdx_cons, other, inductionHypothesis noSeparator.2]
      rfl

theorem requestedBy_name (availableHooks : List HookDefinition) {moduleName : List UInt8}
    (exportName : List UInt8) (noSeparator : 0x21 ∉ moduleName)
    (notAll : moduleName ++ 0x21 :: exportName ≠ narrow "all") :
    requestedBy availableHooks (moduleName ++ 0x21 :: exportName) =
      (FindSupportedHook availableHooks
        (NormalizeModuleName moduleName ++ 0x21 :: exportName)).toList := by
  have plain : ∀ character ∈ moduleName, (character != 0x21) = true := by
    intro character member
    simp only [bne_iff_ne, ne_eq]
    rintro rfl
    exact noSeparator member
  rw [requestedBy, if_neg notAll, List.takeWhile_append_of_pos plain,
    List.dropWhile_append_of_pos plain]
  simp

/-- A request that names an available hook adds the hooks it asks for. -/
theorem expand_requestable {availableHooks : List HookDefinition} {value : List UInt8}
    (requestable : Requestable availableHooks value) (rest : List (List UInt8))
    (options : CommandLineOptions) :
    ExpandAndValidateHooks.loop availableHooks (value :: rest) options =
      ExpandAndValidateHooks.loop availableHooks rest
        { options with
          hooks := (requestedBy availableHooks value).foldl AddHook options.hooks } := by
  by_cases isAll : value = narrow "all"
  · rw [ExpandAndValidateHooks.loop, if_pos isAll, requestedBy, if_pos isAll]
  · obtain isAll' | ⟨moduleName, exportName, rfl, moduleNonempty, exportNonempty, noSeparator,
      noOther, hook, available, named⟩ := requestable
    · exact absurd isAll' isAll
    · have index := findIdx_separator exportName noSeparator
      obtain ⟨found, lookup⟩ : ∃ found, FindSupportedHook availableHooks
          (NormalizeModuleName moduleName ++ 0x21 :: exportName) = some found := by
        rw [← Option.isSome_iff_exists, FindSupportedHook, List.find?_isSome]
        exact ⟨hook, available, by simp [named]⟩
      have accepted : ¬(moduleName.length = (moduleName ++ 0x21 :: exportName).length ∨
          moduleName.length = 0 ∨
          moduleName.length + 1 = (moduleName ++ 0x21 :: exportName).length ∨
          ((moduleName ++ 0x21 :: exportName).drop (moduleName.length + 1)).any
            (· == 0x21) = true) := by
        have positive := List.length_pos_iff.mpr moduleNonempty
        have positive' := List.length_pos_iff.mpr exportNonempty
        have behind : ((moduleName ++ 0x21 :: exportName).drop (moduleName.length + 1)).any
            (· == 0x21) = false := by
          rw [List.any_eq_false]
          intro character inside
          have member : character ∈ exportName := by simpa [← List.drop_drop] using inside
          simpa using fun equality : character = 0x21 => noOther (equality ▸ member)
        simp only [List.length_append, List.length_cons, behind, Bool.false_eq_true, or_false]
        omega
      rw [requestedBy_name availableHooks exportName noSeparator isAll, lookup,
        ExpandAndValidateHooks.loop, if_neg isAll, index]
      dsimp only
      rw [if_neg accepted, List.take_left, List.drop_left, lookup]
      rfl

/-- Any other request ends the loop. -/
theorem expand_not_requestable {availableHooks : List HookDefinition} {value : List UInt8}
    (notRequestable : ¬Requestable availableHooks value) (rest : List (List UInt8))
    (options : CommandLineOptions) :
    (ExpandAndValidateHooks.loop availableHooks (value :: rest) options).1 = false := by
  have notAll : value ≠ narrow "all" := fun isAll => notRequestable (Or.inl isAll)
  rw [ExpandAndValidateHooks.loop, if_neg notAll]
  dsimp only
  split_ifs with malformed
  · rfl
  · simp only [not_or] at malformed
    obtain ⟨found, moduleNonempty, exportNonempty, noOther⟩ := malformed
    have member : 0x21 ∈ value := by
      by_contra absent
      refine found (List.findIdx_eq_length.mpr fun character inside => ?_)
      simpa using fun equality : character = 0x21 => absent (equality ▸ inside)
    obtain ⟨moduleName, exportName, rfl, noSeparator⟩ := List.eq_append_cons_of_mem member
    have index := findIdx_separator exportName noSeparator
    rw [index] at moduleNonempty exportNonempty noOther ⊢
    rw [List.take_left, List.drop_left]
    split
    · rfl
    · rename_i definition lookup
      refine absurd (Or.inr ⟨moduleName, exportName, rfl, ?_, ?_, noSeparator, ?_, definition,
        List.mem_of_find?_eq_some lookup, ?_⟩) notRequestable
      · rintro rfl
        exact moduleNonempty rfl
      · rintro rfl
        exact exportNonempty (by simp)
      · simpa [← List.drop_drop] using noOther
      · simpa using List.find?_some lookup

theorem expand_of_requestable {availableHooks : List HookDefinition}
    {requested : List (List UInt8)}
    (known : ∀ value ∈ requested, Requestable availableHooks value)
    (options : CommandLineOptions) :
    ExpandAndValidateHooks.loop availableHooks requested options =
      (true, { options with
        hooks := (requested.flatMap (requestedBy availableHooks)).foldl AddHook options.hooks }) := by
  induction requested generalizing options with
  | nil => rfl
  | cons value requested inductionHypothesis =>
      rw [List.forall_mem_cons] at known
      rw [expand_requestable known.1, inductionHypothesis known.2, List.flatMap_cons,
        List.foldl_append]

theorem requestable_of_expand {availableHooks : List HookDefinition}
    {requested : List (List UInt8)} {options : CommandLineOptions}
    (expanded : (ExpandAndValidateHooks.loop availableHooks requested options).1 = true) :
    ∀ value ∈ requested, Requestable availableHooks value := by
  induction requested generalizing options with
  | nil => simp
  | cons value requested inductionHypothesis =>
      by_cases requestable : Requestable availableHooks value
      · rw [expand_requestable requestable] at expanded
        exact List.forall_mem_cons.mpr ⟨requestable, inductionHypothesis expanded⟩
      · simp [expand_not_requestable requestable] at expanded

/-! ## The hooks, once each -/

theorem any_AddHook (hooks : List HookDefinition) (hook other : HookDefinition) :
    (AddHook hooks hook).any (·.canonicalName == other.canonicalName) =
      (hooks.any (·.canonicalName == other.canonicalName) ||
        hook.canonicalName == other.canonicalName) := by
  unfold AddHook
  split_ifs with present
  · by_cases same : hook.canonicalName = other.canonicalName
    · rw [same] at present
      simp [present]
    · simp [same]
  · simp

theorem foldl_AddHook (requested hooks : List HookDefinition) :
    requested.foldl AddHook hooks =
      hooks ++ (firstOccurrences requested).filter
        (fun hook => !hooks.any (·.canonicalName == hook.canonicalName)) := by
  induction requested generalizing hooks with
  | nil => simp [firstOccurrences]
  | cons hook requested inductionHypothesis =>
      rw [List.foldl_cons, inductionHypothesis, firstOccurrences, List.filter_cons,
        List.filter_filter]
      by_cases present : hooks.any (·.canonicalName == hook.canonicalName) = true
      · have added : AddHook hooks hook = hooks := if_pos present
        rw [added, if_neg (by simp [present])]
        congr 1
        apply List.filter_congr
        intro other _
        by_cases same : other.canonicalName = hook.canonicalName
        · rw [same, present]
          rfl
        · simp [same]
      · have added : AddHook hooks hook = hooks ++ [hook] := if_neg present
        rw [if_pos (by simpa using present)]
        simp only [any_AddHook]
        rw [added, List.append_assoc, List.singleton_append]
        congr 2
        apply List.filter_congr
        intro other _
        rw [Bool.not_or, bne, Bool.beq_comm]

theorem firstOccurrences_sublist (requested : List HookDefinition) :
    (firstOccurrences requested).Sublist requested := by
  induction requested with
  | nil => exact .slnil
  | cons hook requested inductionHypothesis =>
      exact (List.filter_sublist.trans inductionHypothesis).cons_cons hook

theorem exists_mem_firstOccurrences {requested : List HookDefinition} {hook : HookDefinition}
    (member : hook ∈ requested) :
    ∃ first ∈ firstOccurrences requested, first.canonicalName = hook.canonicalName := by
  induction requested with
  | nil => cases member
  | cons first requested inductionHypothesis =>
      by_cases same : hook.canonicalName = first.canonicalName
      · exact ⟨first, by simp [firstOccurrences], same.symm⟩
      · rcases List.mem_cons.mp member with rfl | member
        · exact absurd rfl same
        · obtain ⟨other, found, named⟩ := inductionHypothesis member
          refine ⟨other, ?_, named⟩
          rw [firstOccurrences, List.mem_cons, List.mem_filter]
          exact Or.inr ⟨found, by simpa [named] using same⟩

theorem nodup_firstOccurrences (requested : List HookDefinition) :
    ((firstOccurrences requested).map HookDefinition.canonicalName).Nodup := by
  induction requested with
  | nil => simp [firstOccurrences]
  | cons hook requested inductionHypothesis =>
      rw [firstOccurrences, List.map_cons, List.nodup_cons]
      constructor
      · intro repeated
        obtain ⟨other, member, same⟩ := List.mem_map.mp repeated
        simpa [same] using (List.mem_filter.mp member).2
      · exact inductionHypothesis.sublist (List.filter_sublist.map _)

/-- No name twice, in the order of the requests, and no requested name left out. -/
structure OnceEach (requested hooks : List HookDefinition) : Prop where
  nodup : (hooks.map HookDefinition.canonicalName).Nodup
  sublist : hooks.Sublist requested
  complete : ∀ hook ∈ requested, ∃ first ∈ hooks, first.canonicalName = hook.canonicalName

theorem onceEach_firstOccurrences (requested : List HookDefinition) :
    OnceEach requested (firstOccurrences requested) :=
  ⟨nodup_firstOccurrences requested, firstOccurrences_sublist requested,
    fun _ => exists_mem_firstOccurrences⟩

/-! ## Behind the loop -/

/-- What `finish` checks. -/
structure Ready (attach : Bool) (availableHooks : List HookDefinition) (locals : Locals)
    (rest : List (List UInt16)) : Prop where
  attached : attach = true → rest = [] ∧ locals.options.targetProcessId ≠ 0
  started : attach = false → rest ≠ []
  output : locals.formatSpecified = true ∨ locals.options.output.quiet = true →
    locals.options.output.outputPath ≠ []
  known : ∀ value ∈ locals.requestedHooks, Requestable availableHooks value
  some_hook : locals.requestedHooks.flatMap (requestedBy availableHooks) ≠ []

theorem ExpandAndValidateHooks_of_requestable {options : CommandLineOptions}
    {availableHooks : List HookDefinition} {requested : List (List UInt8)}
    (none_yet : options.hooks = [])
    (known : ∀ value ∈ requested, Requestable availableHooks value)
    (some_hook : requested.flatMap (requestedBy availableHooks) ≠ []) :
    ExpandAndValidateHooks options availableHooks requested =
      (true, { options with
        hooks := firstOccurrences (requested.flatMap (requestedBy availableHooks)) }) := by
  have added : (requested.flatMap (requestedBy availableHooks)).foldl AddHook options.hooks =
      firstOccurrences (requested.flatMap (requestedBy availableHooks)) := by
    rw [foldl_AddHook, none_yet]
    simp
  unfold ExpandAndValidateHooks
  rw [expand_of_requestable known options, added]
  dsimp only
  rw [if_neg]
  intro nothing
  cases requests : requested.flatMap (requestedBy availableHooks) with
  | nil => exact some_hook requests
  | cons first others => simp [requests, firstOccurrences] at nothing

theorem requestable_of_ExpandAndValidateHooks {options : CommandLineOptions}
    {availableHooks : List HookDefinition} {requested : List (List UInt8)}
    (none_yet : options.hooks = [])
    (accepted : (ExpandAndValidateHooks options availableHooks requested).1 = true) :
    (∀ value ∈ requested, Requestable availableHooks value) ∧
      requested.flatMap (requestedBy availableHooks) ≠ [] := by
  have expanded : (ExpandAndValidateHooks.loop availableHooks requested options).1 = true := by
    unfold ExpandAndValidateHooks at accepted
    revert accepted
    cases ExpandAndValidateHooks.loop availableHooks requested options with
    | mk fst snd => cases fst <;> simp
  have known := requestable_of_expand expanded
  refine ⟨known, fun nothing => ?_⟩
  unfold ExpandAndValidateHooks at accepted
  rw [expand_of_requestable known options, nothing] at accepted
  simp [none_yet] at accepted

theorem mode_ExpandAndValidateHooks (options : CommandLineOptions)
    (availableHooks : List HookDefinition) (requested : List (List UInt8)) :
    (ExpandAndValidateHooks options availableHooks requested).2.mode = options.mode := by
  have loop : (ExpandAndValidateHooks.loop availableHooks requested options).2.mode =
      options.mode := by
    fun_induction ExpandAndValidateHooks.loop availableHooks requested options <;> simp_all
  unfold ExpandAndValidateHooks
  revert loop
  cases ExpandAndValidateHooks.loop availableHooks requested options with
  | mk accepted expanded =>
      cases accepted with
      | false => exact id
      | true =>
          dsimp only
          split_ifs <;> exact id

theorem finish_of_ready {attach : Bool} {availableHooks : List HookDefinition} {locals : Locals}
    {rest : List (List UInt16)} (ready : Ready attach availableHooks locals rest)
    (none_yet : locals.options.hooks = []) (no_target : locals.options.targetArguments = []) :
    finish attach availableHooks locals rest =
      { locals.options with
        mode := if attach then .attach else .run
        hooks := firstOccurrences
          (locals.requestedHooks.flatMap (requestedBy availableHooks))
        targetArguments := rest } := by
  obtain ⟨attached, started, output, known, some_hook⟩ := ready
  have format : ¬(locals.formatSpecified = true ∧ locals.options.output.outputPath = []) :=
    fun missing => output (Or.inl missing.1) missing.2
  have quiet : ¬(locals.options.output.quiet = true ∧ locals.options.output.outputPath = []) :=
    fun missing => output (Or.inr missing.1) missing.2
  unfold finish
  cases attach with
  | true =>
      obtain ⟨noRest, somePid⟩ := attached rfl
      subst noRest
      simp [somePid, format, quiet, no_target,
        ExpandAndValidateHooks_of_requestable none_yet known some_hook]
  | false =>
      have target := started rfl
      have expanded := @ExpandAndValidateHooks_of_requestable
        { locals.options with targetArguments := rest } _ _ none_yet known some_hook
      simp [target, format, quiet, no_target, expanded]

theorem ready_of_finish {attach : Bool} {availableHooks : List HookDefinition} {locals : Locals}
    {rest : List (List UInt16)} (undecided : locals.options.mode = .error)
    (none_yet : locals.options.hooks = [])
    (accepted : (finish attach availableHooks locals rest).mode ≠ .error) :
    Ready attach availableHooks locals rest := by
  have fails : ∀ error, (locals.fail error).mode = .error := fun _ => undecided
  have refused : ∀ options : CommandLineOptions, options.mode = .error →
      ¬(ExpandAndValidateHooks options availableHooks locals.requestedHooks).1 = true →
      ∃ options', ExpandAndValidateHooks options availableHooks locals.requestedHooks =
        (false, options') ∧ options'.mode = .error := by
    intro options undecided failed
    have mode := mode_ExpandAndValidateHooks options availableHooks locals.requestedHooks
    exact ⟨_, Prod.ext (Bool.eq_false_iff.mpr failed) rfl, mode.trans undecided⟩
  unfold finish at accepted
  cases attach with
  | true =>
      simp only [true_and, not_true_eq_false, false_and, ↓reduceIte] at accepted
      split_ifs at accepted with trailing noPid noFormat noQuiet
      · exact absurd (fails _) accepted
      · exact absurd (fails _) accepted
      · exact absurd (fails _) accepted
      · exact absurd (fails _) accepted
      · have expanded : (ExpandAndValidateHooks locals.options availableHooks
            locals.requestedHooks).1 = true := by
          by_contra failed
          obtain ⟨options', isRefused, mode⟩ := refused _ undecided failed
          rw [isRefused] at accepted
          exact accepted mode
        obtain ⟨known, some_hook⟩ := requestable_of_ExpandAndValidateHooks none_yet expanded
        refine ⟨fun _ => ⟨not_not.mp trailing, noPid⟩, by simp, ?_, known, some_hook⟩
        rintro (format | quiet) missing
        · exact noFormat ⟨format, missing⟩
        · exact noQuiet ⟨quiet, missing⟩
  | false =>
      simp only [Bool.false_eq_true, false_and, not_false_eq_true, true_and, ↓reduceIte] at accepted
      split_ifs at accepted with noTarget noFormat noQuiet
      · exact absurd (fails _) accepted
      · exact absurd undecided accepted
      · exact absurd undecided accepted
      · have expanded : (ExpandAndValidateHooks
            { locals.options with targetArguments := locals.options.targetArguments ++ rest }
            availableHooks locals.requestedHooks).1 = true := by
          by_contra failed
          obtain ⟨options', isRefused, mode⟩ := refused
            { locals.options with targetArguments := locals.options.targetArguments ++ rest }
            undecided failed
          dsimp only at isRefused
          rw [isRefused] at accepted
          exact accepted mode
        obtain ⟨known, some_hook⟩ := requestable_of_ExpandAndValidateHooks (by exact none_yet) expanded
        refine ⟨by simp, fun _ => noTarget, ?_, known, some_hook⟩
        rintro (format | quiet) missing
        · exact noFormat ⟨format, missing⟩
        · exact noQuiet ⟨quiet, missing⟩

/-! ## Commands and their meaning -/

/-- The local variables behind the options of a command. -/
def readOptions (options : List CommandOption) : Locals :=
  options.foldl CommandOption.apply ⟨ParseCommandLine.start, [], false⟩

theorem readOptions_eq (options : List CommandOption) :
    readOptions options =
      { options :=
          { ParseCommandLine.start with
            targetProcessId := (options.filterMap CommandOption.pid?).getLast?.getD 0
            output :=
              { format := (options.filterMap CommandOption.format?).getLast?.getD .text
                outputPath := outputPath options
                quiet := options.any CommandOption.quiet? } }
        requestedHooks := requests options
        formatSpecified := !(options.filterMap CommandOption.format?).isEmpty } := by
  rw [readOptions, foldl_apply]
  simp [ParseCommandLine.start, outputPath]

/-- Every process id on the command line is positive. -/
theorem pid_pos {attach : Bool} {options : List CommandOption} {words : List (List UInt16)}
    (spelled : Spelled attach options words) :
    ∀ processId ∈ options.filterMap CommandOption.pid?, processId ≠ 0 := by
  induction spelled with
  | nil => simp
  | @cons option flag options words known legal _ inductionHypothesis =>
      intro processId member
      cases option with
      | pid value =>
          rw [List.filterMap_cons] at member
          rcases List.mem_cons.mp member with rfl | member
          · have := legal.2.positive
            omega
          · exact inductionHypothesis processId member
      | hook | format | output | quiet => exact inductionHypothesis processId member

theorem last_pid_ne_zero {options : List CommandOption} {words : List (List UInt16)}
    (spelled : Spelled true options words) :
    (options.filterMap CommandOption.pid?).getLast?.getD 0 ≠ 0 ↔
      options.filterMap CommandOption.pid? ≠ [] := by
  have positive := pid_pos spelled
  cases last : (options.filterMap CommandOption.pid?).getLast? with
  | none => simp [List.getLast?_eq_none_iff.mp last]
  | some processId =>
      have member := List.mem_of_getLast? last
      have present := List.ne_nil_of_mem member
      simpa [present] using positive processId member

theorem acceptable_iff {availableHooks : List HookDefinition} {options : List CommandOption} :
    Acceptable availableHooks options ↔
      ((readOptions options).formatSpecified = true ∨
          (readOptions options).options.output.quiet = true →
        (readOptions options).options.output.outputPath ≠ []) ∧
      (∀ value ∈ (readOptions options).requestedHooks, Requestable availableHooks value) ∧
      (readOptions options).requestedHooks.flatMap (requestedBy availableHooks) ≠ [] := by
  rw [readOptions_eq]
  constructor
  · rintro ⟨known, some_hook, output⟩
    refine ⟨fun given => output ?_, known, some_hook⟩
    rcases given with format | quiet
    · exact Or.inr (by simpa using format)
    · exact Or.inl quiet
  · rintro ⟨output, known, some_hook⟩
    refine ⟨known, some_hook, fun given => output ?_⟩
    rcases given with quiet | format
    · exact Or.inr quiet
    · exact Or.inl (by simpa using format)

theorem ParseCommandLine_run (availableHooks : List HookDefinition) (program : List UInt16)
    (rest : List (List UInt16)) :
    ParseCommandLine (program :: wideText "run" :: rest) availableHooks =
      match ParseCommandLine.loop false rest ⟨start, [], false⟩ with
      | .error options => options
      | .ok (locals, rest) => finish false availableHooks locals rest := by
  have isRun : (wideText "run" == wideText "attach") = false := by decide
  unfold ParseCommandLine
  dsimp only
  rw [if_neg (fun listed => absurd listed.2 (by decide)),
    if_neg (fun helped => absurd helped.2 (by decide)),
    if_neg (fun asked => absurd asked.2 (by decide)), isRun]
  exact if_pos (Or.inl rfl)

theorem ParseCommandLine_attach (availableHooks : List HookDefinition) (program : List UInt16)
    (rest : List (List UInt16)) :
    ParseCommandLine (program :: wideText "attach" :: rest) availableHooks =
      match ParseCommandLine.loop true rest ⟨start, [], false⟩ with
      | .error options => options
      | .ok (locals, rest) => finish true availableHooks locals rest := by
  have isAttach : (wideText "attach" == wideText "attach") = true := by decide
  unfold ParseCommandLine
  dsimp only
  rw [if_neg (fun listed => absurd listed.2 (by decide)),
    if_neg (fun helped => absurd helped.2 (by decide)),
    if_neg (fun asked => absurd asked.2 (by decide)), isAttach]
  exact if_pos (Or.inr rfl)

theorem mode_of_loop_error {attach : Bool} {arguments : List (List UInt16)} {locals : Locals}
    {options : CommandLineOptions}
    (failed : ParseCommandLine.loop attach arguments locals = .error options) :
    options.mode = locals.options.mode := by
  fun_induction ParseCommandLine.loop attach arguments locals with
  | case6 _ _ _ _ _ _ _ _ _ inductionHypothesis => exact inductionHypothesis failed
  | case10 _ _ _ _ _ _ _ _ _ inductionHypothesis => exact inductionHypothesis failed
  | case12 _ _ _ _ _ _ _ inductionHypothesis => exact inductionHypothesis failed
  | case13 _ _ _ _ _ _ _ _ inductionHypothesis => exact inductionHypothesis failed
  | case16 _ _ _ _ _ _ _ _ _ inductionHypothesis => exact inductionHypothesis failed
  | case17 _ _ _ _ _ _ _ _ _ inductionHypothesis => exact inductionHypothesis failed
  | _ => cases failed <;> rfl

/-- A command that is accepted was read by the loop and passed every check behind it. -/
theorem ready_of_accepted {attach : Bool} {availableHooks : List HookDefinition}
    {words : List (List UInt16)} {result : CommandLineOptions}
    (parsed : result =
      match ParseCommandLine.loop attach words ⟨start, [], false⟩ with
      | .error options => options
      | .ok (locals, rest) => finish attach availableHooks locals rest)
    (accepted : result.mode ≠ .error) :
    ∃ options spelling rest, Spelled attach options spelling ∧
      (words = spelling ∧ rest = [] ∨
        attach = false ∧ words = spelling ++ wideText "--" :: rest) ∧
      Ready attach availableHooks (readOptions options) rest := by
  subst parsed
  cases read : ParseCommandLine.loop attach words ⟨start, [], false⟩ with
  | error options =>
      rw [read] at accepted
      exact absurd (mode_of_loop_error read) accepted
  | ok result =>
      obtain ⟨locals, rest⟩ := result
      rw [read] at accepted
      obtain ⟨options, spelling, spelled, effect, shape⟩ := loop_sound read
      subst effect
      exact ⟨options, spelling, rest, spelled, shape,
        ready_of_finish (by rw [readOptions_eq]; rfl) (by rw [readOptions_eq]; rfl) accepted⟩

theorem ready_readOptions_iff {availableHooks : List HookDefinition} {options : List CommandOption}
    {attach : Bool} {words rest : List (List UInt16)} (spelled : Spelled attach options words) :
    Ready attach availableHooks (readOptions options) rest ↔
      (if attach then rest = [] ∧ options.filterMap CommandOption.pid? ≠ [] else rest ≠ []) ∧
        Acceptable availableHooks options := by
  rw [acceptable_iff]
  have processId : (readOptions options).options.targetProcessId =
      (options.filterMap CommandOption.pid?).getLast?.getD 0 := by
    rw [readOptions_eq]
  constructor
  · rintro ⟨attached, started, output, known, some_hook⟩
    refine ⟨?_, output, known, some_hook⟩
    cases attach with
    | true =>
        obtain ⟨noRest, somePid⟩ := attached rfl
        rw [processId, last_pid_ne_zero spelled] at somePid
        exact ⟨noRest, somePid⟩
    | false => exact started rfl
  · rintro ⟨shape, output, known, some_hook⟩
    refine ⟨?_, ?_, output, known, some_hook⟩
    · rintro rfl
      rw [processId, last_pid_ne_zero spelled]
      exact shape
    · rintro rfl
      exact shape

theorem finish_readOptions {attach : Bool} {availableHooks : List HookDefinition}
    {options : List CommandOption} {rest : List (List UInt16)}
    (ready : Ready attach availableHooks (readOptions options) rest) :
    finish attach availableHooks (readOptions options) rest =
      meaning availableHooks options (if attach then .attach else .run) rest := by
  rw [finish_of_ready ready (by rw [readOptions_eq]; rfl) (by rw [readOptions_eq]; rfl),
    readOptions_eq]
  rfl

theorem parse_run {availableHooks : List HookDefinition} {options : List CommandOption}
    {argv target : List (List UInt16)} (isRun : IsRun availableHooks options argv target) :
    ParseCommandLine argv availableHooks = meaning availableHooks options .run target := by
  obtain ⟨⟨program, words, spelled, rfl⟩, target_ne_nil, acceptable⟩ := isRun
  have ready : Ready false availableHooks (readOptions options) target :=
    (ready_readOptions_iff spelled).mpr ⟨target_ne_nil, acceptable⟩
  rw [ParseCommandLine_run, loop_complete spelled, ParseCommandLine.loop.eq_def]
  exact finish_readOptions ready

theorem parse_attach {availableHooks : List HookDefinition} {options : List CommandOption}
    {argv : List (List UInt16)} (isAttach : IsAttach availableHooks options argv) :
    ParseCommandLine argv availableHooks = meaning availableHooks options .attach [] := by
  obtain ⟨⟨program, words, spelled, rfl⟩, some_pid, acceptable⟩ := isAttach
  have ready : Ready true availableHooks (readOptions options) [] :=
    (ready_readOptions_iff spelled).mpr ⟨⟨rfl, some_pid⟩, acceptable⟩
  have read := loop_complete spelled [] ⟨start, [], false⟩
  rw [List.append_nil] at read
  rw [ParseCommandLine_attach, read]
  exact finish_readOptions ready

/-- A command that is accepted is `run` or `attach`, read in the mode it is accepted in. -/
theorem command_of_mode {availableHooks : List HookDefinition} {argv : List (List UInt16)}
    (accepted : (ParseCommandLine argv availableHooks).mode = .run ∨
      (ParseCommandLine argv availableHooks).mode = .attach) :
    ∃ program rest, argv = program :: wideText "run" :: rest ∨
      argv = program :: wideText "attach" :: rest := by
  match argv with
  | [] => simp [ParseCommandLine, start] at accepted
  | [_] => simp [ParseCommandLine] at accepted
  | program :: command :: rest =>
      refine ⟨program, rest, ?_⟩
      by_contra other
      simp only [List.cons.injEq, true_and, and_true, not_or] at other
      have noCommand : ¬(command = wideText "run" ∨ command = wideText "attach") :=
        not_or.mpr other
      unfold ParseCommandLine at accepted
      dsimp only at accepted
      split_ifs at accepted <;> simp [start] at accepted

theorem parse_sound {availableHooks : List HookDefinition} {argv : List (List UInt16)}
    (accepted : (ParseCommandLine argv availableHooks).mode = .run ∨
      (ParseCommandLine argv availableHooks).mode = .attach) :
    (∃ options target, IsRun availableHooks options argv target) ∨
      ∃ options, IsAttach availableHooks options argv := by
  have notError : (ParseCommandLine argv availableHooks).mode ≠ .error := by
    rintro error
    rw [error] at accepted
    simp at accepted
  obtain ⟨program, rest, rfl | rfl⟩ := command_of_mode accepted
  · obtain ⟨options, words, target, spelled, shape, ready⟩ :=
      ready_of_accepted (ParseCommandLine_run availableHooks program rest) notError
    have complete := (ready_readOptions_iff spelled).mp ready
    obtain ⟨_, ended⟩ | ⟨_, rfl⟩ := shape
    · exact absurd ended complete.1
    · exact Or.inl ⟨options, target, ⟨program, words, spelled, rfl⟩, complete.1, complete.2⟩
  · obtain ⟨options, words, target, spelled, shape, ready⟩ :=
      ready_of_accepted (ParseCommandLine_attach availableHooks program rest) notError
    have complete := (ready_readOptions_iff spelled).mp ready
    obtain ⟨rfl, _⟩ | ⟨isRun, _⟩ := shape
    · exact Or.inr ⟨options, ⟨program, rest, spelled, rfl⟩, complete.1.2, complete.2⟩
    · cases isRun

/-- `ParseCommandLine` accepts exactly the commands of the grammar, and returns what they mean:
every requested hook once, the target's own arguments, and the last value of every option. -/
theorem parseCommandLine_exact (availableHooks : List HookDefinition)
    (argv : List (List UInt16)) :
    ((ParseCommandLine argv availableHooks).mode = .run ↔
      ∃ options target, IsRun availableHooks options argv target) ∧
    ((ParseCommandLine argv availableHooks).mode = .attach ↔
      ∃ options, IsAttach availableHooks options argv) ∧
    (∀ options target, IsRun availableHooks options argv target →
      ParseCommandLine argv availableHooks = meaning availableHooks options .run target) ∧
    (∀ options, IsAttach availableHooks options argv →
      ParseCommandLine argv availableHooks = meaning availableHooks options .attach []) ∧
    ∀ options, OnceEach (requestedHooks availableHooks options)
      (firstOccurrences (requestedHooks availableHooks options)) := by
  have run : ∀ options target, IsRun availableHooks options argv target →
      ParseCommandLine argv availableHooks = meaning availableHooks options .run target :=
    fun _ _ => parse_run
  have attach : ∀ options, IsAttach availableHooks options argv →
      ParseCommandLine argv availableHooks = meaning availableHooks options .attach [] :=
    fun _ => parse_attach
  refine ⟨⟨fun accepted => ?_, ?_⟩, ⟨fun accepted => ?_, ?_⟩, run, attach,
    fun _ => onceEach_firstOccurrences _⟩
  · rcases parse_sound (Or.inl accepted) with isRun | ⟨options, isAttach⟩
    · exact isRun
    · rw [attach options isAttach] at accepted
      cases accepted
  · rintro ⟨options, target, isRun⟩
    rw [run options target isRun]
    rfl
  · rcases parse_sound (Or.inr accepted) with ⟨options, target, isRun⟩ | isAttach
    · rw [run options target isRun] at accepted
      cases accepted
    · exact isAttach
  · rintro ⟨options, isAttach⟩
    rw [attach options isAttach]
    rfl

end ApiScope
