import ApiScope.Cli.Meaning
import ApiScope.Hook.Discovery
import ApiScope.Trace.RoundTrip

/-!
# From a descriptor to an event

The descriptor, the command line and the trace format each have their own rules
for names.  A discovered hook can be selected by its canonical name, and its
events can be started, exactly as far as its names obey the later rules too.
-/

namespace ApiScope

open ParseCommandLine

/-! ## Canonical names -/

theorem toLower_toLower (character : UInt8) : toLower (toLower character) = toLower character := by
  unfold toLower
  split_ifs with upper again
  · simp only [UInt8.le_iff_toNat_le, UInt8.toNat_add, UInt8.reduceToNat] at upper again
    omega
  · rfl
  · rfl

/-- Lower-casing makes no separator. -/
theorem separator_toLower {character : UInt8}
    (plain : (character != 0x5C && character != 0x2F) = true) :
    (toLower character != 0x5C && toLower character != 0x2F) = true := by
  unfold toLower
  split_ifs with upper
  · simp only [UInt8.le_iff_toNat_le, UInt8.reduceToNat] at upper
    simp only [Bool.and_eq_true, bne_iff_ne, ne_eq, ← UInt8.toNat_inj, UInt8.toNat_add,
      UInt8.reduceToNat]
    omega
  · exact plain

theorem normalizeModuleName_idem (value : List UInt8) :
    NormalizeModuleName (NormalizeModuleName value) = NormalizeModuleName value := by
  have component : (NormalizeModuleName value).rtakeWhile
      (fun character => character != 0x5C && character != 0x2F) = NormalizeModuleName value := by
    rw [List.rtakeWhile_eq_self_iff]
    intro character member
    obtain ⟨original, inside, rfl⟩ := List.mem_map.mp member
    have plain := List.mem_rtakeWhile_imp
      (p := fun character => character != 0x5C && character != 0x2F) inside
    exact separator_toLower plain
  conv_lhs => rw [NormalizeModuleName, component, NormalizeModuleName, List.map_map]
  refine List.map_congr_left fun character _ => ?_
  exact toLower_toLower character

/-- A name with one exclamation mark is split there. -/
theorem separator_unique {moduleName exportName moduleName' exportName' : List UInt8}
    (same : moduleName ++ 0x21 :: exportName = moduleName' ++ 0x21 :: exportName')
    (noSeparator : 0x21 ∉ moduleName) (noOther : 0x21 ∉ exportName) :
    moduleName' = moduleName ∧ exportName' = exportName := by
  have counted := congrArg (List.count 0x21) same
  simp only [List.count_append, List.count_cons_self, List.count_eq_zero_of_not_mem noSeparator,
    List.count_eq_zero_of_not_mem noOther] at counted
  have noSeparator' : 0x21 ∉ moduleName' := List.count_eq_zero.mp (by omega)
  have place := findIdx_separator exportName noSeparator
  rw [same, findIdx_separator exportName' noSeparator'] at place
  obtain ⟨sameModule, sameExport⟩ := List.append_inj same place.symm
  exact ⟨sameModule.symm, (List.cons.inj sameExport).2.symm⟩

/-! ## What the command line asks of a name -/

/-- A canonical name that can be typed: ASCII, with one exclamation mark that does
not stand first. -/
structure Selectable (hook : HookDefinition) : Prop where
  ascii : ∀ character ∈ hook.canonicalName, character ≤ 0x7F
  moduleName : hook.moduleName ≠ []
  no_separator : 0x21 ∉ hook.moduleName
  no_other : 0x21 ∉ hook.exportName

section Requests

variable {hooks : List HookDefinition} {hook : HookDefinition}

theorem findSupportedHook_eq (wellDescribed : WellDescribed hooks) (member : hook ∈ hooks) :
    FindSupportedHook hooks hook.canonicalName = some hook := by
  unfold FindSupportedHook
  obtain ⟨found, lookup⟩ : ∃ found,
      hooks.find? (fun other => other.canonicalName == hook.canonicalName) = some found := by
    rw [← Option.isSome_iff_exists, List.find?_isSome]
    exact ⟨hook, member, by simp⟩
  have same := List.inj_on_of_nodup_map wellDescribed.2 (List.mem_of_find?_eq_some lookup) member
    (by simpa using List.find?_some lookup)
  rw [lookup, same]

theorem requestable_iff (wellDescribed : WellDescribed hooks) (member : hook ∈ hooks) :
    Requestable hooks hook.canonicalName ↔
      hook.moduleName ≠ [] ∧ 0x21 ∉ hook.moduleName ∧ 0x21 ∉ hook.exportName := by
  obtain ⟨⟨value, _, normalized⟩, fixedExport, canonical⟩ := wellDescribed.1 hook member
  constructor
  · rintro (isAll | ⟨moduleName, exportName, split, moduleNonempty, _, noSeparator, noOther, _⟩)
    · have separator : (0x21 : UInt8) ∈ narrow "all" := by
        rw [← isAll, canonical]
        simp
      exact absurd separator (by decide)
    · rw [canonical] at split
      obtain ⟨rfl, rfl⟩ := separator_unique split.symm noSeparator noOther
      exact ⟨moduleNonempty, noSeparator, noOther⟩
  · rintro ⟨nonempty, noSeparator, noOther⟩
    refine .inr ⟨hook.moduleName, hook.exportName, canonical, nonempty, fixedExport.nonempty,
      noSeparator, noOther, hook, member, ?_⟩
    rw [normalized, normalizeModuleName_idem, ← normalized, canonical]

theorem requestedBy_canonicalName (wellDescribed : WellDescribed hooks) (member : hook ∈ hooks)
    (noSeparator : 0x21 ∉ hook.moduleName) :
    requestedBy hooks hook.canonicalName = [hook] := by
  obtain ⟨⟨value, _, normalized⟩, _, canonical⟩ := wellDescribed.1 hook member
  have notAll : hook.moduleName ++ 0x21 :: hook.exportName ≠ narrow "all" := fun isAll => by
    have separator : (0x21 : UInt8) ∈ narrow "all" := isAll ▸ by simp
    exact absurd separator (by decide)
  have idem : NormalizeModuleName hook.moduleName = hook.moduleName := by
    rw [normalized, normalizeModuleName_idem]
  rw [canonical, requestedBy_name hooks hook.exportName noSeparator notAll, idem, ← canonical,
    findSupportedHook_eq wellDescribed member, Option.toList_some]

end Requests

/-! ## Commands with one hook -/

/-- A name as an argument. -/
def widen (value : List UInt8) : List UInt16 := value.map UInt8.toUInt16

theorem narrow_widen (value : List UInt8) : (widen value).map UInt16.toUInt8 = value := by
  rw [widen, List.map_map]
  exact List.map_id'' (fun character => by simp) value

theorem ascii_widen {value : List UInt8} :
    (∀ character ∈ widen value, character ≤ 0x7F) ↔ ∀ character ∈ value, character ≤ 0x7F := by
  simp [widen, UInt16.le_iff_toNat_le, UInt8.le_iff_toNat_le]

/-- A command that is complete but for the name of its only hook. -/
structure OneHook (attach : Bool) where
  program : List UInt16
  flag : List UInt16
  first : List CommandOption
  second : List CommandOption
  before : List (List UInt16)
  after : List (List UInt16)
  target : List (List UInt16)
  known : flag = wideText "--hook" ∨ flag = wideText "-k"
  spelled_first : Spelled attach first before
  spelled_second : Spelled attach second after
  no_hook : requests (first ++ second) = []
  output : (first ++ second).any CommandOption.quiet? = true ∨
    (first ++ second).filterMap CommandOption.format? ≠ [] → outputPath (first ++ second) ≠ []
  complete : if attach then target = [] ∧ (first ++ second).filterMap CommandOption.pid? ≠ []
    else target ≠ []

namespace OneHook

variable {attach : Bool} (command : OneHook attach) (value : List UInt16)

/-- What stands behind the options. -/
def tail : List (List UInt16) := if attach then [] else wideText "--" :: command.target

def argv : List (List UInt16) :=
  command.program :: (if attach then wideText "attach" else wideText "run") ::
    (command.before ++ command.flag :: value :: (command.after ++ command.tail))

def options : List CommandOption := command.first ++ .hook value :: command.second

theorem flag_known : command.flag ∈ (CommandOption.hook value).flags := by
  rcases command.known with known | known <;> simp [CommandOption.flags, known]

theorem requests_options : requests (command.options value) = [value.map UInt16.toUInt8] := by
  have none := command.no_hook
  simp only [requests, List.filterMap_append, List.append_eq_nil_iff] at none
  simp [requests, options, List.filterMap_append, none, CommandOption.hook?]

theorem acceptable_output :
    (command.options value).any CommandOption.quiet? = true ∨
      (command.options value).filterMap CommandOption.format? ≠ [] →
    outputPath (command.options value) ≠ [] := by
  have output := command.output
  simpa [options, outputPath, CommandOption.quiet?, CommandOption.format?, CommandOption.output?]
    using output

end OneHook

theorem Spelled.append {attach : Bool} {first second : List CommandOption}
    {words words' : List (List UInt16)} (spelled : Spelled attach first words)
    (spelled' : Spelled attach second words') :
    Spelled attach (first ++ second) (words ++ words') := by
  induction spelled with
  | nil => exact spelled'
  | cons known legal _ inductionHypothesis =>
      rw [List.cons_append, List.cons_append, List.append_assoc]
      exact .cons known legal inductionHypothesis

/-- The loop ends at a name that is not ASCII. -/
theorem loop_not_ascii {attach : Bool} {flag value : List UInt16}
    (known : flag = wideText "--hook" ∨ flag = wideText "-k") (wide : NarrowHookName value = [])
    (rest : List (List UInt16)) (locals : Locals) :
    ParseCommandLine.loop attach (flag :: value :: rest) locals =
      .error (locals.fail "Hook names must be ASCII") := by
  rcases known with rfl | rfl <;> simp +decide [ParseCommandLine.loop, wide]

/-- The whole command, read by the loop. -/
theorem OneHook.loop_eq {attach : Bool} (command : OneHook attach) {value : List UInt16}
    (legal : (CommandOption.hook value).Legal attach) :
    ParseCommandLine.loop attach
      (command.before ++ command.flag :: value :: (command.after ++ command.tail))
      ⟨start, [], false⟩ = .ok (readOptions (command.options value), command.target) := by
  have spelled := command.spelled_first.append
    (.cons (command.flag_known value) legal command.spelled_second)
  have read := loop_complete spelled command.tail ⟨start, [], false⟩
  simp only [CommandOption.operands, List.append_assoc, List.cons_append, List.nil_append] at read
  rw [read, tail]
  cases attach with
  | true =>
      have complete := command.complete
      rw [if_pos rfl] at complete
      rw [if_pos rfl, ParseCommandLine.loop, complete.1]
      rfl
  | false =>
      rw [if_neg Bool.false_ne_true, ParseCommandLine.loop.eq_def]
      rfl

theorem OneHook.parse_eq {attach : Bool} (command : OneHook attach) (value : List UInt16)
    (hooks : List HookDefinition) :
    ParseCommandLine (command.argv value) hooks =
      match ParseCommandLine.loop attach
        (command.before ++ command.flag :: value :: (command.after ++ command.tail))
        ⟨start, [], false⟩ with
      | .error options => options
      | .ok (locals, rest) => finish attach hooks locals rest := by
  cases attach with
  | true => exact ParseCommandLine_attach hooks command.program _
  | false => exact ParseCommandLine_run hooks command.program _

/-- What the command line does with one name: exactly that hook, or an error. -/
theorem OneHook.parse_spec {attach : Bool} (command : OneHook attach)
    {hooks : List HookDefinition} {hook : HookDefinition} (wellDescribed : WellDescribed hooks)
    (member : hook ∈ hooks) :
    (Selectable hook →
      (ParseCommandLine (command.argv (widen hook.canonicalName)) hooks).mode =
          (if attach then .attach else .run) ∧
        (ParseCommandLine (command.argv (widen hook.canonicalName)) hooks).hooks = [hook]) ∧
    ((ParseCommandLine (command.argv (widen hook.canonicalName)) hooks).mode ≠ .error →
      Selectable hook) := by
  have canonical := (wellDescribed.1 hook member).canonicalName
  have requested := command.requests_options (widen hook.canonicalName)
  rw [narrow_widen] at requested
  have nonempty : widen hook.canonicalName ≠ [] := by
    rw [canonical, widen]
    simp
  have spelled : ∀ legal : (CommandOption.hook (widen hook.canonicalName)).Legal attach,
      Spelled attach (command.options (widen hook.canonicalName)) _ := fun legal =>
    command.spelled_first.append (.cons (command.flag_known _) legal command.spelled_second)
  rw [command.parse_eq]
  constructor
  · rintro ⟨isAscii, moduleName, noSeparator, noOther⟩
    have legal : (CommandOption.hook (widen hook.canonicalName)).Legal attach :=
      ⟨nonempty, ascii_widen.mpr isAscii⟩
    have alone := requestedBy_canonicalName wellDescribed member noSeparator
    have acceptable : Acceptable hooks (command.options (widen hook.canonicalName)) := by
      refine ⟨?_, ?_, command.acceptable_output _⟩
      · rw [requested]
        intro value inside
        rw [List.mem_singleton.mp inside]
        exact (requestable_iff wellDescribed member).mpr ⟨moduleName, noSeparator, noOther⟩
      · rw [requestedHooks, requested, List.flatMap_singleton, alone]
        simp
    have ready : Ready attach hooks (readOptions (command.options (widen hook.canonicalName)))
        command.target := by
      refine (ready_readOptions_iff (spelled legal)).mpr ⟨?_, acceptable⟩
      have complete := command.complete
      cases attach with
      | true =>
          refine ⟨complete.1, fun noPid => complete.2 ?_⟩
          simpa [OneHook.options, CommandOption.pid?] using noPid
      | false => exact complete
    rw [command.loop_eq legal]
    dsimp only
    rw [finish_readOptions ready]
    refine ⟨rfl, ?_⟩
    rw [meaning, requestedHooks, requested, List.flatMap_singleton, alone]
    rfl
  · intro accepted
    by_cases wide : NarrowHookName (widen hook.canonicalName) = []
    · rw [loop_complete command.spelled_first, loop_not_ascii command.known wide] at accepted
      refine absurd ?_ accepted
      rw [foldl_apply]
      rfl
    · obtain ⟨_, isAscii⟩ := ascii_of_NarrowHookName wide
      have legal : (CommandOption.hook (widen hook.canonicalName)).Legal attach :=
        ⟨nonempty, isAscii⟩
      rw [command.loop_eq legal] at accepted
      have ready := ready_of_finish (by rw [readOptions_eq]; rfl) (by rw [readOptions_eq]; rfl)
        accepted
      have known := ready.known hook.canonicalName (by
        rw [readOptions_eq]
        simp [requested])
      obtain ⟨moduleName, noSeparator, noOther⟩ := (requestable_iff wellDescribed member).mp known
      exact ⟨ascii_widen.mp isAscii, moduleName, noSeparator, noOther⟩

/-! ## Names in events -/

open TraceLanguage TraceTransport

theorem text_of_no_zero {value : List UInt8} (noZero : 0 ∉ value) :
    CString.text (some value) = value := by
  rw [CString.text, Option.getD_some, List.takeWhile_eq_self_iff]
  intro character member
  have differ : character ≠ 0 := fun zero => noZero (zero ▸ member)
  simpa using differ

theorem no_zero_normalizeModuleName {value : List UInt8} (noZero : 0 ∉ value) :
    0 ∉ NormalizeModuleName value := by
  intro member
  obtain ⟨character, inside, zero⟩ := List.mem_map.mp member
  have original : character ∈ value := (List.rtakeWhile_suffix _ _).subset inside
  unfold toLower at zero
  split_ifs at zero with upper
  · simp only [UInt8.le_iff_toNat_le, UInt8.reduceToNat] at upper
    simp only [← UInt8.toNat_inj, UInt8.toNat_add, UInt8.reduceToNat] at zero
    omega
  · exact noZero (zero ▸ original)

/-- When an event can be named after a discovered hook. -/
theorem traceable_iff (clock : Clock) {hook : HookDefinition} (described : Described hook) :
    (InitializeTraceEvent clock (some hook.moduleName) (some hook.exportName)).1 = true ↔
      ModuleName hook.moduleName ∧ ApiName hook.exportName := by
  obtain ⟨⟨value, fixed, normalized⟩, fixedExport, _⟩ := described
  rw [(initializeTraceEvent_spec clock _ _).1, text_of_no_zero fixedExport.no_zero,
    text_of_no_zero (normalized ▸ no_zero_normalizeModuleName fixed.no_zero)]

theorem ascii_moduleNameCharacter : ∀ character : UInt8,
    ModuleNameCharacter character → character ≤ 0x7F ∧ character ≠ 0x21 :=
  Bytes.forall_byte (by decide +kernel)

/-- What can stand in an event can stand on the command line. -/
theorem selectable_of_names {hook : HookDefinition} (described : Described hook)
    (moduleName : ModuleName hook.moduleName) (exportName : ApiName hook.exportName) :
    Selectable hook := by
  have inModule := fun character member =>
    ascii_moduleNameCharacter character (moduleName.2.2 character member)
  have inExport := fun character member =>
    ascii_moduleNameCharacter character (.inl (exportName.2.2 character member))
  refine ⟨fun character member => ?_, List.ne_nil_of_length_pos moduleName.1,
    fun member => (inModule _ member).2 rfl, fun member => (inExport _ member).2 rfl⟩
  rw [described.canonicalName] at member
  rcases List.mem_append.mp member with inside | inside
  · exact (inModule character inside).1
  · rcases List.mem_cons.mp inside with rfl | inside
    · decide
    · exact (inExport character inside).1

/-! ## Discovered hooks -/

/-- The command is accepted, and for this hook only. -/
def OneHook.Selects {attach : Bool} (command : OneHook attach) (hooks : List HookDefinition)
    (hook : HookDefinition) : Prop :=
  (ParseCommandLine (command.argv (widen hook.canonicalName)) hooks).mode =
      (if attach then .attach else .run) ∧
    (ParseCommandLine (command.argv (widen hook.canonicalName)) hooks).hooks = [hook]

instance {attach : Bool} (command : OneHook attach) (hooks : List HookDefinition)
    (hook : HookDefinition) : Decidable (command.Selects hooks hook) :=
  inferInstanceAs (Decidable (_ ∧ _))

/-- A discovered hook is selected, alone, by its canonical name if that can be typed,
and is rejected otherwise; its events can be started if its names are names of the
trace format, and these can always be typed. -/
theorem discovered_hook_usable (module_ : Option LoadedModule) {hook : HookDefinition}
    (discovered : hook ∈ DiscoverHooks module_) :
    (∀ attach (command : OneHook attach),
      (command.Selects (DiscoverHooks module_) hook ↔ Selectable hook) ∧
      (¬Selectable hook → (ParseCommandLine (command.argv (widen hook.canonicalName))
        (DiscoverHooks module_)).mode = .error)) ∧
    (∀ clock,
      (InitializeTraceEvent clock (some hook.moduleName) (some hook.exportName)).1 = true ↔
        ModuleName hook.moduleName ∧ ApiName hook.exportName) ∧
    (ModuleName hook.moduleName ∧ ApiName hook.exportName → Selectable hook) := by
  have wellDescribed := discoverHooks_spec module_
  have described := wellDescribed.1 hook discovered
  refine ⟨fun attach command => ?_, fun clock => traceable_iff clock described,
    fun names => selectable_of_names described names.1 names.2⟩
  obtain ⟨selects, rejects⟩ := command.parse_spec wellDescribed discovered
  refine ⟨⟨fun selected => rejects ?_, selects⟩, fun unusable => ?_⟩
  · rw [selected.1]
    cases attach <;> decide
  · by_contra accepted
    exact unusable (rejects accepted)

namespace DiscoverHooks.Sample

/-- A string in its array. -/
def array (size : Nat) (value : List UInt8) : List UInt8 := value.takeD size 0

def descriptor (moduleName exportName : List UInt8) : ApiHookDescriptor where
  magic := API_HOOK_DESCRIPTOR_MAGIC
  version := API_HOOK_DESCRIPTOR_VERSION
  size := .ofNat sizeofApiHookDescriptor
  moduleName := array API_HOOK_MODULE_NAME_BYTES moduleName
  exportName := array API_HOOK_EXPORT_NAME_BYTES exportName
  handlerExport := array API_HOOK_EXPORT_NAME_BYTES (narrow "Handler")
  trampolineExport := array API_HOOK_EXPORT_NAME_BYTES (narrow "Trampoline")
  moduleName_length := List.takeD_length ..
  exportName_length := List.takeD_length ..
  handlerExport_length := List.takeD_length ..
  trampolineExport_length := List.takeD_length ..

/-- A hook DLL with one hook. -/
def hookDll (moduleName exportName : List UInt8) : LoadedModule where
  e_magic := IMAGE_DOS_SIGNATURE
  Signature := IMAGE_NT_SIGNATURE
  exportDirectory := 0x3000
  names := [narrow "ApiScopeHook_0", narrow "Handler", narrow "Trampoline"]
  getProcAddress := fun _ => some 0x180001000
  descriptor := fun _ => descriptor moduleName exportName

def hook (moduleName exportName : List UInt8) : HookDefinition :=
  ⟨moduleName, exportName, narrow "Handler", narrow "Trampoline",
    moduleName ++ 0x21 :: exportName⟩

/-- `apiscope run --hook ... -- app` -/
def command : OneHook false where
  program := wideText "apiscope"
  flag := wideText "--hook"
  first := []
  second := []
  before := []
  after := []
  target := [wideText "app"]
  known := .inl rfl
  spelled_first := .nil
  spelled_second := .nil
  no_hook := rfl
  output := by simp
  complete := by simp

end DiscoverHooks.Sample

open DiscoverHooks.Sample

theorem discovered_hook_usable_sample :
    let found := DiscoverHooks (some (hookDll (narrow "ntdll.dll") (narrow "NtReadFile")))
    let readFile := hook (narrow "ntdll.dll") (narrow "NtReadFile")
    readFile ∈ found ∧ (command.Selects found readFile ↔ Selectable readFile) ∧
      ∀ clock,
        (InitializeTraceEvent clock (some readFile.moduleName) (some readFile.exportName)).1 =
            true ↔
          ModuleName readFile.moduleName ∧ ApiName readFile.exportName := by
  intro found readFile
  have member : readFile ∈ found := by decide +kernel
  have usable := discovered_hook_usable _ member
  exact ⟨member, (usable.1 false command).1, usable.2.1⟩

/-- An exported name with an exclamation mark cannot be selected, and one of 64
letters cannot name an event. -/
theorem discovered_hook_not_usable :
    (¬∀ module_, ∀ hook ∈ DiscoverHooks module_, ∀ attach (command : OneHook attach),
      command.Selects (DiscoverHooks module_) hook) ∧
    (¬∀ module_, ∀ hook ∈ DiscoverHooks module_, ∀ clock,
      (InitializeTraceEvent clock (some hook.moduleName) (some hook.exportName)).1 = true) := by
  constructor
  · intro always
    have selected := always (some (hookDll (narrow "a.dll") (narrow "f!g")))
      (hook (narrow "a.dll") (narrow "f!g")) (by decide +kernel) false command
    exact absurd selected (by decide +kernel)
  · intro always
    have started := always (some (hookDll (narrow "a.dll") (List.replicate 64 0x41)))
      (hook (narrow "a.dll") (List.replicate 64 0x41)) (by decide +kernel) ⟨0, 0⟩
    exact absurd started (by decide +kernel)

end ApiScope
