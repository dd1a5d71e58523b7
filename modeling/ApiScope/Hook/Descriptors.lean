import ApiScope.Hook.Discovery

/-!
# The descriptors of a hook DLL

Every hook is compiled together with its descriptor.  `DiscoverHooks` returns the
hooks as they were defined, whatever the order of the export table, or none of
them.
-/

namespace ApiScope

/-- The arguments of `DEFINE_API_HOOK`: an identifier, and two literals that fit their arrays. -/
structure ApiHook where
  id : List UInt8
  moduleName : List UInt8
  exportName : List UInt8
  id_no_zero : 0 ∉ id
  moduleName_no_zero : 0 ∉ moduleName
  exportName_no_zero : 0 ∉ exportName
  id_length : id.length + 10 < API_HOOK_EXPORT_NAME_BYTES
  moduleName_length : moduleName.length < API_HOOK_MODULE_NAME_BYTES
  exportName_length : exportName.length < API_HOOK_EXPORT_NAME_BYTES

namespace ApiHook

def descriptorExport (hook : ApiHook) : List UInt8 := DiscoverHooks.descriptorPrefix ++ hook.id

def handlerExport (hook : ApiHook) : List UInt8 := hook.id ++ narrow "Handler"

def trampolineExport (hook : ApiHook) : List UInt8 := hook.id ++ narrow "Trampoline"

/-- The hook that is meant. -/
def definition (hook : ApiHook) : HookDefinition where
  moduleName := NormalizeModuleName hook.moduleName
  exportName := hook.exportName
  handlerExport := hook.handlerExport
  trampolineExport := hook.trampolineExport
  canonicalName := NormalizeModuleName hook.moduleName ++ 0x21 :: hook.exportName

end ApiHook

/-- An array of characters that is initialized with a literal. -/
def charArray (capacity : Nat) (text : List UInt8) : List UInt8 :=
  text ++ List.replicate (capacity - text.length) 0

theorem charArray_length {capacity : Nat} {text : List UInt8} (fits : text.length < capacity) :
    (charArray capacity text).length = capacity := by
  simp only [charArray, List.length_append, List.length_replicate]
  omega

theorem handlerExport_length (hook : ApiHook) :
    hook.handlerExport.length < API_HOOK_EXPORT_NAME_BYTES := by
  have fits := hook.id_length
  have suffix : (narrow "Handler").length = 7 := rfl
  simp only [ApiHook.handlerExport, List.length_append, suffix]
  omega

theorem trampolineExport_length (hook : ApiHook) :
    hook.trampolineExport.length < API_HOOK_EXPORT_NAME_BYTES := by
  have fits := hook.id_length
  have suffix : (narrow "Trampoline").length = 10 := rfl
  simp only [ApiHook.trampolineExport, List.length_append, suffix]
  omega

/-- The descriptor that `DEFINE_API_HOOK` exports. -/
def DEFINE_API_HOOK (hook : ApiHook) : ApiHookDescriptor where
  magic := API_HOOK_DESCRIPTOR_MAGIC
  version := API_HOOK_DESCRIPTOR_VERSION
  size := .ofNat sizeofApiHookDescriptor
  moduleName := charArray API_HOOK_MODULE_NAME_BYTES hook.moduleName
  exportName := charArray API_HOOK_EXPORT_NAME_BYTES hook.exportName
  handlerExport := charArray API_HOOK_EXPORT_NAME_BYTES hook.handlerExport
  trampolineExport := charArray API_HOOK_EXPORT_NAME_BYTES hook.trampolineExport
  moduleName_length := charArray_length hook.moduleName_length
  exportName_length := charArray_length hook.exportName_length
  handlerExport_length := charArray_length (handlerExport_length hook)
  trampolineExport_length := charArray_length (trampolineExport_length hook)

/-! ## Reading one descriptor back -/

theorem readFixedString_charArray {capacity : Nat} {text : List UInt8} (noZero : 0 ∉ text)
    (fits : text.length < capacity) :
    ReadFixedString (charArray capacity text) = if text = [] then none else some text := by
  have place : (charArray capacity text).findIdx (· == 0) = text.length := by
    have inside : text.findIdx (· == 0) = text.length :=
      List.findIdx_eq_length.mpr fun character member => by
        simpa using fun isZero : character = 0 => noZero (isZero ▸ member)
    obtain ⟨more, isMore⟩ := Nat.exists_eq_add_of_lt fits
    have behind : capacity - text.length = more + 1 := by omega
    rw [charArray, List.findIdx_append, inside, if_neg (lt_irrefl _), behind]
    simp [List.replicate_succ, List.findIdx_cons]
  unfold ReadFixedString
  rw [place, charArray_length fits]
  by_cases empty : text = []
  · rw [if_pos empty, if_pos (.inl (by simp [empty]))]
  · have nonempty := List.length_pos_iff.mpr empty
    rw [if_neg empty, if_neg (by omega), charArray, List.take_left]

theorem read_handlerExport (hook : ApiHook) :
    ReadFixedString (charArray API_HOOK_EXPORT_NAME_BYTES hook.handlerExport) =
      some hook.handlerExport := by
  have noZero : 0 ∉ hook.handlerExport := fun member =>
    (List.mem_append.mp member).elim hook.id_no_zero (by decide)
  have nonempty : hook.handlerExport ≠ [] := List.append_ne_nil_of_right_ne_nil _ (by decide)
  rw [readFixedString_charArray noZero (handlerExport_length hook), if_neg nonempty]

theorem read_trampolineExport (hook : ApiHook) :
    ReadFixedString (charArray API_HOOK_EXPORT_NAME_BYTES hook.trampolineExport) =
      some hook.trampolineExport := by
  have noZero : 0 ∉ hook.trampolineExport := fun member =>
    (List.mem_append.mp member).elim hook.id_no_zero (by decide)
  have nonempty : hook.trampolineExport ≠ [] := List.append_ne_nil_of_right_ne_nil _ (by decide)
  rw [readFixedString_charArray noZero (trampolineExport_length hook), if_neg nonempty]

/-- A hook cannot do without its module and its export. -/
def ApiHook.Named (hook : ApiHook) : Prop := hook.moduleName ≠ [] ∧ hook.exportName ≠ []

/-- A descriptor describes the hook that was meant, unless one of the names is empty. -/
theorem readDescriptor_define (hook : ApiHook) :
    (hook.Named → DiscoverHooks.readDescriptor (DEFINE_API_HOOK hook) = some hook.definition) ∧
    (¬hook.Named → DiscoverHooks.readDescriptor (DEFINE_API_HOOK hook) = none) := by
  unfold DiscoverHooks.readDescriptor DEFINE_API_HOOK ApiHook.Named
  dsimp only
  rw [if_neg (by decide), readFixedString_charArray hook.moduleName_no_zero hook.moduleName_length,
    readFixedString_charArray hook.exportName_no_zero hook.exportName_length,
    read_handlerExport, read_trampolineExport]
  by_cases noModule : hook.moduleName = []
  · simp [noModule]
  · by_cases noExport : hook.exportName = []
    · simp [noModule, noExport]
    · simp only [if_neg noModule, if_neg noExport]
      exact ⟨fun _ => rfl, fun unnamed => (unnamed ⟨noModule, noExport⟩).elim⟩

/-! ## The loop over the export names -/

namespace DiscoverHooks

variable (module_ : LoadedModule)

/-- What an export describes, if it is a descriptor. -/
def described (exportName : List UInt8) : Option HookDefinition :=
  (module_.getProcAddress exportName).bind fun address =>
    readDescriptor (module_.descriptor address)

def isDescriptor (exportName : List UInt8) : Bool := HasPrefix exportName descriptorPrefix

/-- The hooks of the descriptors among some exports. -/
def hooksOf (names : List (List UInt8)) : List HookDefinition :=
  (names.filter isDescriptor).filterMap (described module_)

/-- The exports that a hook needs are there. -/
def Complete (hook : HookDefinition) : Prop :=
  module_.getProcAddress hook.handlerExport ≠ none ∧
    module_.getProcAddress hook.trampolineExport ≠ none

/-- No descriptor makes `DiscoverHooks` give up. -/
structure Flawless (names canonicalNames : List (List UInt8)) : Prop where
  complete : ∀ name ∈ names, isDescriptor name = true →
    ∃ hook, described module_ name = some hook ∧ Complete module_ hook
  distinct : ((hooksOf module_ names).map HookDefinition.canonicalName).Nodup
  fresh : ∀ hook ∈ hooksOf module_ names, hook.canonicalName ∉ canonicalNames

variable {module_} {names canonicalNames : List (List UInt8)} {hooks : List HookDefinition}

theorem hooksOf_cons_of_hook {name : List UInt8} {hook : HookDefinition}
    (isDescriptor : isDescriptor name = true) (read : described module_ name = some hook) :
    hooksOf module_ (name :: names) = hook :: hooksOf module_ names := by
  unfold hooksOf
  rw [List.filter_cons_of_pos isDescriptor, List.filterMap_cons_some read]

theorem hooksOf_cons_of_other {name : List UInt8} (other : ¬isDescriptor name = true) :
    hooksOf module_ (name :: names) = hooksOf module_ names := by
  unfold hooksOf
  rw [List.filter_cons_of_neg other]

theorem flawless_cons_of_other {name : List UInt8} (other : ¬isDescriptor name = true) :
    Flawless module_ (name :: names) canonicalNames ↔ Flawless module_ names canonicalNames := by
  constructor
  · rintro ⟨complete, distinct, fresh⟩
    rw [hooksOf_cons_of_other other] at distinct fresh
    exact ⟨fun name member => complete name (List.mem_cons_of_mem _ member), distinct, fresh⟩
  · rintro ⟨complete, distinct, fresh⟩
    rw [← hooksOf_cons_of_other other] at distinct fresh
    refine ⟨fun name member isDescriptor => ?_, distinct, fresh⟩
    rcases List.mem_cons.mp member with rfl | member
    · exact absurd isDescriptor other
    · exact complete name member isDescriptor

theorem flawless_cons_of_hook {name : List UInt8} {hook : HookDefinition}
    (isDescriptor : isDescriptor name = true) (read : described module_ name = some hook) :
    Flawless module_ (name :: names) canonicalNames ↔
      Complete module_ hook ∧ hook.canonicalName ∉ canonicalNames ∧
        Flawless module_ names (hook.canonicalName :: canonicalNames) := by
  constructor
  · rintro ⟨complete, distinct, fresh⟩
    rw [hooksOf_cons_of_hook isDescriptor read] at distinct fresh
    rw [List.map_cons, List.nodup_cons] at distinct
    obtain ⟨found, again, whole⟩ := complete name List.mem_cons_self isDescriptor
    cases read.symm.trans again
    refine ⟨whole, fresh hook List.mem_cons_self,
      fun name member => complete name (List.mem_cons_of_mem _ member), distinct.2,
      fun other member => ?_⟩
    rw [List.mem_cons, not_or]
    refine ⟨fun same => distinct.1 ?_, fresh other (List.mem_cons_of_mem _ member)⟩
    exact List.mem_map.mpr ⟨other, member, same⟩
  · rintro ⟨whole, unknown, complete, distinct, fresh⟩
    constructor
    case complete =>
      intro name member isDescriptor
      rcases List.mem_cons.mp member with rfl | member
      · exact ⟨hook, read, whole⟩
      · exact complete name member isDescriptor
    case distinct =>
      rw [hooksOf_cons_of_hook isDescriptor read, List.map_cons, List.nodup_cons]
      refine ⟨fun member => ?_, distinct⟩
      obtain ⟨other, member, same⟩ := List.mem_map.mp member
      exact fresh other member (same ▸ List.mem_cons_self)
    case fresh =>
      rw [hooksOf_cons_of_hook isDescriptor read]
      intro other member
      rcases List.mem_cons.mp member with rfl | member
      · exact unknown
      · exact fun known => fresh other member (List.mem_cons_of_mem _ known)

theorem loop_cons_of_hook {name : List UInt8} {hook : HookDefinition}
    (isDescriptor : HasPrefix name descriptorPrefix = true)
    (read : described module_ name = some hook) :
    loop module_ (name :: names) canonicalNames hooks =
      if hook.canonicalName ∈ canonicalNames ∨
          module_.getProcAddress hook.handlerExport = none ∨
          module_.getProcAddress hook.trampolineExport = none then []
      else loop module_ names (hook.canonicalName :: canonicalNames) (hooks ++ [hook]) := by
  unfold described at read
  rw [loop, if_pos isDescriptor, read]

theorem loop_cons_of_undescribed {name : List UInt8}
    (isDescriptor : HasPrefix name descriptorPrefix = true)
    (unread : described module_ name = none) :
    loop module_ (name :: names) canonicalNames hooks = [] := by
  unfold described at unread
  rw [loop, if_pos isDescriptor, unread]

theorem loop_cons_of_other {name : List UInt8}
    (other : ¬HasPrefix name descriptorPrefix = true) :
    loop module_ (name :: names) canonicalNames hooks =
      loop module_ names canonicalNames hooks := by
  rw [loop, if_neg other]

/-- One descriptor after the other, or nothing. -/
theorem loop_eq (module_ : LoadedModule) (names canonicalNames : List (List UInt8))
    (hooks : List HookDefinition) :
    (Flawless module_ names canonicalNames →
      loop module_ names canonicalNames hooks = hooks ++ hooksOf module_ names) ∧
    (¬Flawless module_ names canonicalNames → loop module_ names canonicalNames hooks = []) := by
  induction names generalizing canonicalNames hooks with
  | nil =>
      refine ⟨fun _ => (List.append_nil hooks).symm, fun flawed => (flawed ?_).elim⟩
      exact ⟨by simp, List.nodup_nil, by simp [hooksOf]⟩
  | cons name names inductionHypothesis =>
      by_cases isDescriptor : isDescriptor name = true
      · cases read : described module_ name with
        | none =>
            refine ⟨fun flawless => ?_, fun _ => loop_cons_of_undescribed isDescriptor read⟩
            obtain ⟨hook, found, _⟩ := flawless.complete name List.mem_cons_self isDescriptor
            simp [read] at found
        | some hook =>
            rw [loop_cons_of_hook isDescriptor read, flawless_cons_of_hook isDescriptor read,
              hooksOf_cons_of_hook isDescriptor read]
            obtain ⟨follows, fails⟩ :=
              inductionHypothesis (hook.canonicalName :: canonicalNames) (hooks ++ [hook])
            constructor
            · rintro ⟨⟨handler, trampoline⟩, unknown, rest⟩
              rw [if_neg (by simp [handler, trampoline, unknown]), follows rest, List.append_assoc]
              rfl
            · intro flawed
              split_ifs with bad
              · rfl
              · simp only [not_or] at bad
                exact fails fun rest => flawed ⟨bad.2, bad.1, rest⟩
      · rw [loop_cons_of_other isDescriptor, flawless_cons_of_other isDescriptor,
          hooksOf_cons_of_other isDescriptor]
        exact inductionHypothesis canonicalNames hooks

end DiscoverHooks

/-! ## A whole DLL -/

/-- A DLL of hooks: each with its descriptor, its handler and its trampoline.  Nothing is known of
the order of the exports, nor of those that are no descriptors. -/
structure Exports (module_ : LoadedModule) (hooks : List ApiHook) : Prop where
  e_magic : module_.e_magic = IMAGE_DOS_SIGNATURE
  Signature : module_.Signature = IMAGE_NT_SIGNATURE
  exportDirectory : module_.exportDirectory ≠ 0
  names : (module_.names.filter DiscoverHooks.isDescriptor).Perm
    (hooks.map ApiHook.descriptorExport)
  descriptor : ∀ hook ∈ hooks, ∃ address,
    module_.getProcAddress hook.descriptorExport = some address ∧
      module_.descriptor address = DEFINE_API_HOOK hook
  handler : ∀ hook ∈ hooks, module_.getProcAddress hook.handlerExport ≠ none
  trampoline : ∀ hook ∈ hooks, module_.getProcAddress hook.trampolineExport ≠ none

/-- Hooks that can be told apart. -/
structure Definable (hooks : List ApiHook) : Prop where
  named : ∀ hook ∈ hooks, hook.Named
  distinct : (hooks.map fun hook => hook.definition.canonicalName).Nodup

section Exports

open DiscoverHooks

variable {module_ : LoadedModule} {hooks : List ApiHook}

theorem Exports.described_eq (exports : Exports module_ hooks) {hook : ApiHook}
    (member : hook ∈ hooks) :
    described module_ hook.descriptorExport = readDescriptor (DEFINE_API_HOOK hook) := by
  obtain ⟨address, found, same⟩ := exports.descriptor hook member
  rw [described, found, Option.bind_some, same]

theorem Exports.mem_names (exports : Exports module_ hooks) {name : List UInt8} :
    (name ∈ module_.names ∧ isDescriptor name = true) ↔
      ∃ hook ∈ hooks, hook.descriptorExport = name := by
  rw [← List.mem_filter, exports.names.mem_iff, List.mem_map]

theorem Exports.hooksOf_perm (exports : Exports module_ hooks)
    (named : ∀ hook ∈ hooks, hook.Named) :
    (hooksOf module_ module_.names).Perm (hooks.map ApiHook.definition) := by
  have read : (hooks.map ApiHook.descriptorExport).filterMap (described module_) =
      hooks.map ApiHook.definition := by
    rw [List.filterMap_map, ← List.filterMap_eq_map]
    refine List.filterMap_congr fun hook member => ?_
    exact (exports.described_eq member).trans ((readDescriptor_define hook).1 (named hook member))
  rw [← read]
  exact exports.names.filterMap _

theorem Exports.flawless_iff (exports : Exports module_ hooks) :
    Flawless module_ module_.names [] ↔ Definable hooks := by
  constructor
  · rintro ⟨complete, distinct, -⟩
    have named : ∀ hook ∈ hooks, hook.Named := by
      intro hook member
      by_contra unnamed
      obtain ⟨listed, isDescriptor⟩ := exports.mem_names.mpr ⟨hook, member, rfl⟩
      obtain ⟨found, read, -⟩ := complete _ listed isDescriptor
      rw [exports.described_eq member, (readDescriptor_define hook).2 unnamed] at read
      cases read
    refine ⟨named, ?_⟩
    have same := (exports.hooksOf_perm named).map HookDefinition.canonicalName
    rw [List.map_map] at same
    exact same.nodup_iff.mp distinct
  · rintro ⟨named, distinct⟩
    constructor
    case complete =>
      intro name listed isDescriptor
      obtain ⟨hook, member, rfl⟩ := exports.mem_names.mp ⟨listed, isDescriptor⟩
      refine ⟨hook.definition, ?_, exports.handler hook member, exports.trampoline hook member⟩
      exact (exports.described_eq member).trans ((readDescriptor_define hook).1 (named hook member))
    case distinct =>
      have same := (exports.hooksOf_perm named).map HookDefinition.canonicalName
      rw [List.map_map] at same
      exact same.nodup_iff.mpr distinct
    case fresh => exact fun _ _ => List.not_mem_nil

/-- Hooks in the order of their names. -/
def Ordered (left right : HookDefinition) : Prop := left.canonicalName ≤ right.canonicalName

instance Ordered.decidable : DecidableRel Ordered := fun left right =>
  inferInstanceAs (Decidable (left.canonicalName ≤ right.canonicalName))

instance Ordered.total : Std.Total Ordered := ⟨fun _ _ => List.le_total _ _⟩

instance Ordered.trans : IsTrans HookDefinition Ordered := ⟨fun _ _ _ => List.le_trans⟩

theorem Exports.discoverHooks_eq (exports : Exports module_ hooks) :
    DiscoverHooks (some module_) =
      (DiscoverHooks.loop module_ module_.names [] []).insertionSort Ordered := by
  unfold DiscoverHooks
  dsimp only
  rw [if_neg (not_not.mpr exports.e_magic), if_neg]
  · rfl
  · simp [exports.Signature, exports.exportDirectory]

theorem Exports.discoverHooks_sorted (exports : Exports module_ hooks)
    (definable : Definable hooks) : DiscoverHooks (some module_) =
      (hooksOf module_ module_.names).insertionSort Ordered := by
  obtain ⟨follows, _⟩ := DiscoverHooks.loop_eq module_ module_.names [] []
  rw [exports.discoverHooks_eq, follows (exports.flawless_iff.mpr definable), List.nil_append]

theorem Exports.discoverHooks_perm (exports : Exports module_ hooks)
    (definable : Definable hooks) :
    (DiscoverHooks (some module_)).Perm (hooks.map ApiHook.definition) := by
  rw [exports.discoverHooks_sorted definable]
  exact (List.perm_insertionSort Ordered _).trans (exports.hooksOf_perm definable.named)

/-- `DiscoverHooks` returns the hooks of a DLL as they have been defined, sorted by name, or none
of them if two have the same name or a name is missing. -/
theorem discoverHooks_defined (exports : Exports module_ hooks) :
    (Definable hooks →
      (DiscoverHooks (some module_)).Perm (hooks.map ApiHook.definition) ∧
        (DiscoverHooks (some module_)).Pairwise
          fun left right => left.canonicalName < right.canonicalName) ∧
    (¬Definable hooks → DiscoverHooks (some module_) = []) := by
  constructor
  · intro definable
    have perm := exports.discoverHooks_perm definable
    refine ⟨perm, ?_⟩
    rw [exports.discoverHooks_sorted definable] at perm ⊢
    have distinct : ((DiscoverHooks.hooksOf module_ module_.names).insertionSort Ordered).Pairwise
        fun left right => left.canonicalName ≠ right.canonicalName := by
      have names := perm.map HookDefinition.canonicalName
      rw [List.map_map] at names
      exact List.pairwise_map.mp (names.nodup_iff.mpr definable.distinct)
    refine (List.pairwise_insertionSort Ordered _).imp₂ ?_ distinct
    exact fun _ _ ordered different =>
      (List.le_iff_lt_or_eq.mp ordered).resolve_right different
  · intro undefinable
    obtain ⟨_, fails⟩ := DiscoverHooks.loop_eq module_ module_.names [] []
    rw [exports.discoverHooks_eq,
      fails fun flawless => undefinable (exports.flawless_iff.mp flawless)]
    rfl

/-! ### The DLL of this repository -/

namespace ApiHook

/-- A hook on a function that has given it its identifier. -/
def of (moduleName exportName : String)
    (plain : 0 ∉ narrow moduleName ∧ 0 ∉ narrow exportName)
    (fits : (narrow moduleName).length < API_HOOK_MODULE_NAME_BYTES ∧
      (narrow exportName).length + 10 < API_HOOK_EXPORT_NAME_BYTES) : ApiHook where
  id := narrow exportName
  moduleName := narrow moduleName
  exportName := narrow exportName
  id_no_zero := plain.2
  moduleName_no_zero := plain.1
  exportName_no_zero := plain.2
  id_length := fits.2
  moduleName_length := fits.1
  exportName_length := by omega

def BCryptOpenAlgorithmProvider : ApiHook :=
  .of "bcrypt.dll" "BCryptOpenAlgorithmProvider" (by decide) (by decide)

def NtCreateFile : ApiHook := .of "ntdll.dll" "NtCreateFile" (by decide) (by decide)

def NtReadFile : ApiHook := .of "ntdll.dll" "NtReadFile" (by decide) (by decide)

def NtWriteFile : ApiHook := .of "ntdll.dll" "NtWriteFile" (by decide) (by decide)

/-- `apiscope-hooks.dll` -/
def apiscopeHooks : List ApiHook :=
  [NtWriteFile, BCryptOpenAlgorithmProvider, NtReadFile, NtCreateFile]

/-- The exports of some hooks, and `ActiveHookCalls`. -/
def exportNames (hooks : List ApiHook) : List (List UInt8) :=
  narrow "ActiveHookCalls" :: (hooks.map descriptorExport ++ hooks.map handlerExport ++
    hooks.map trampolineExport)

/-- A DLL with some hooks, its exports at one address after the other. -/
def dll (hooks : List ApiHook) : LoadedModule where
  e_magic := IMAGE_DOS_SIGNATURE
  Signature := IMAGE_NT_SIGNATURE
  exportDirectory := 0x3000
  names := exportNames hooks
  getProcAddress name :=
    if name ∈ exportNames hooks then some (.ofNat ((exportNames hooks).idxOf name)) else none
  descriptor address := DEFINE_API_HOOK (hooks.getD (address.toNat - 1) NtCreateFile)

theorem exports_apiscopeHooks : Exports (dll apiscopeHooks) apiscopeHooks where
  e_magic := rfl
  Signature := rfl
  exportDirectory := by decide
  names := by decide +kernel
  descriptor := by
    simp only [apiscopeHooks, List.forall_mem_cons]
    exact ⟨⟨1, by decide +kernel, rfl⟩, ⟨2, by decide +kernel, rfl⟩, ⟨3, by decide +kernel, rfl⟩,
      ⟨4, by decide +kernel, rfl⟩, by simp⟩
  handler := by decide +kernel
  trampoline := by decide +kernel

theorem definable_apiscopeHooks : Definable apiscopeHooks where
  named := by
    simp only [apiscopeHooks, List.forall_mem_cons, Named]
    decide +kernel
  distinct := by decide +kernel

end ApiHook

open ApiHook in
theorem discoverHooks_defined_apiscope :
    (DiscoverHooks (some (dll apiscopeHooks))).Perm (apiscopeHooks.map definition) ∧
      (DiscoverHooks (some (dll apiscopeHooks))).Pairwise
        fun left right => left.canonicalName < right.canonicalName :=
  (discoverHooks_defined exports_apiscopeHooks).1 definable_apiscopeHooks

end Exports

end ApiScope
