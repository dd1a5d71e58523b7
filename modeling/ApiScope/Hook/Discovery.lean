import ApiScope.Hook.Registry
import ApiScope.Process.PortableExecutable
import Mathlib.Data.List.Nodup
import Mathlib.Data.List.Sort

/-!
# Discovering hooks

`DiscoverHooks` reads the descriptors that the hook DLL exports.  One descriptor
that is not well formed, and no hook is returned at all.
-/

namespace ApiScope

def API_HOOK_DESCRIPTOR_MAGIC : UInt32 := 0x4B484150
def API_HOOK_DESCRIPTOR_VERSION : UInt16 := 1
def API_HOOK_MODULE_NAME_BYTES : Nat := 64
def API_HOOK_EXPORT_NAME_BYTES : Nat := 128

/-- The strings are the whole arrays. -/
structure ApiHookDescriptor where
  magic : UInt32
  version : UInt16
  size : UInt16
  moduleName : List UInt8
  exportName : List UInt8
  handlerExport : List UInt8
  trampolineExport : List UInt8
  moduleName_length : moduleName.length = API_HOOK_MODULE_NAME_BYTES
  exportName_length : exportName.length = API_HOOK_EXPORT_NAME_BYTES
  handlerExport_length : handlerExport.length = API_HOOK_EXPORT_NAME_BYTES
  trampolineExport_length : trampolineExport.length = API_HOOK_EXPORT_NAME_BYTES

/-- `sizeof(ApiHookDescriptor)` -/
def sizeofApiHookDescriptor : Nat :=
  8 + API_HOOK_MODULE_NAME_BYTES + 3 * API_HOOK_EXPORT_NAME_BYTES

/-- A module as `LoadLibraryExW` maps it: what its headers say, the strings of its
export name table, and what `GetProcAddress` finds. -/
structure LoadedModule where
  e_magic : UInt16
  Signature : UInt32
  exportDirectory : UInt32
  names : List (List UInt8)
  getProcAddress : List UInt8 → Option UInt64
  descriptor : UInt64 → ApiHookDescriptor

def HasPrefix (value pre : List UInt8) : Bool := pre.isPrefixOf value

/-- The string in a fixed array, unless it is empty or not terminated. -/
def ReadFixedString (value : List UInt8) : Option (List UInt8) :=
  let length := value.findIdx (· == 0)
  if length = 0 ∨ length = value.length then none else some (value.take length)

namespace DiscoverHooks

def descriptorPrefix : List UInt8 := narrow "ApiScopeHook_"

/-- The hook of a valid descriptor. -/
def readDescriptor (descriptor : ApiHookDescriptor) : Option HookDefinition :=
  if descriptor.magic ≠ API_HOOK_DESCRIPTOR_MAGIC ∨
      descriptor.version ≠ API_HOOK_DESCRIPTOR_VERSION ∨
      descriptor.size.toNat ≠ sizeofApiHookDescriptor then none
  else
    match ReadFixedString descriptor.moduleName, ReadFixedString descriptor.exportName,
        ReadFixedString descriptor.handlerExport, ReadFixedString descriptor.trampolineExport with
    | some moduleName, some exportName, some handlerExport, some trampolineExport =>
        let moduleName := NormalizeModuleName moduleName
        some ⟨moduleName, exportName, handlerExport, trampolineExport,
          moduleName ++ 0x21 :: exportName⟩
    | _, _, _, _ => none

/-- The loop over the export names. -/
def loop (module_ : LoadedModule) :
    List (List UInt8) → List (List UInt8) → List HookDefinition → List HookDefinition
  | [], _, hooks => hooks
  | exportName :: rest, canonicalNames, hooks =>
      if HasPrefix exportName descriptorPrefix then
        match (module_.getProcAddress exportName).bind
            fun address => readDescriptor (module_.descriptor address) with
        | none => []
        | some hook =>
            if hook.canonicalName ∈ canonicalNames ∨
                module_.getProcAddress hook.handlerExport = none ∨
                module_.getProcAddress hook.trampolineExport = none then []
            else loop module_ rest (hook.canonicalName :: canonicalNames) (hooks ++ [hook])
      else loop module_ rest canonicalNames hooks

end DiscoverHooks

/-- `module_` is what the DLL is loaded as, `none` if that fails.  Canonical names
are compared byte by byte. -/
def DiscoverHooks (module_ : Option LoadedModule) : List HookDefinition :=
  match module_ with
  | none => []
  | some module_ =>
      if module_.e_magic ≠ IMAGE_DOS_SIGNATURE then []
      else if module_.Signature ≠ IMAGE_NT_SIGNATURE ∨ module_.exportDirectory = 0 then []
      else
        (DiscoverHooks.loop module_ module_.names [] []).insertionSort fun left right =>
          left.canonicalName ≤ right.canonicalName

/-! ## What is known of a discovered hook -/

/-- A string as `ReadFixedString` returns it from an array of a size. -/
structure FixedString (capacity : Nat) (value : List UInt8) : Prop where
  nonempty : value ≠ []
  terminated : value.length < capacity
  no_zero : 0 ∉ value

theorem fixedString_of_read {array value : List UInt8} (read : ReadFixedString array = some value) :
    FixedString array.length value := by
  unfold ReadFixedString at read
  dsimp only at read
  split_ifs at read with outside
  cases read
  have bound := @List.findIdx_le_length _ (· == 0) array
  have sized : (array.take (array.findIdx (· == 0))).length = array.findIdx (· == 0) := by
    rw [List.length_take]
    omega
  refine ⟨fun empty => ?_, by omega, fun member => ?_⟩
  · rw [empty] at sized
    exact outside (.inl sized.symm)
  · obtain ⟨index, inside, isZero⟩ := List.getElem_of_mem member
    rw [List.getElem_take] at isZero
    have before := @List.not_of_lt_findIdx _ (· == 0) array index (by omega)
    simp [isZero] at before

/-- What the strings of a descriptor make of a hook. -/
structure Described (hook : HookDefinition) : Prop where
  moduleName : ∃ value, FixedString API_HOOK_MODULE_NAME_BYTES value ∧
    hook.moduleName = NormalizeModuleName value
  exportName : FixedString API_HOOK_EXPORT_NAME_BYTES hook.exportName
  canonicalName : hook.canonicalName = hook.moduleName ++ 0x21 :: hook.exportName

/-- Hooks from descriptors, no two with one name. -/
def WellDescribed (hooks : List HookDefinition) : Prop :=
  (∀ hook ∈ hooks, Described hook) ∧ (hooks.map HookDefinition.canonicalName).Nodup

theorem wellDescribed_nil : WellDescribed [] := ⟨by simp, List.nodup_nil⟩

namespace DiscoverHooks

theorem described_of_readDescriptor {descriptor : ApiHookDescriptor} {hook : HookDefinition}
    (read : readDescriptor descriptor = some hook) : Described hook := by
  unfold readDescriptor at read
  split_ifs at read
  split at read
  · rename_i moduleName exportName _ _ readModule readExport _ _
    cases read
    have fixedModule := fixedString_of_read readModule
    have fixedExport := fixedString_of_read readExport
    rw [descriptor.moduleName_length] at fixedModule
    rw [descriptor.exportName_length] at fixedExport
    exact ⟨⟨moduleName, fixedModule, rfl⟩, fixedExport, rfl⟩
  · cases read

/-- The loop adds a hook only when its name is not among those before it. -/
theorem loop_spec (module_ : LoadedModule) {names canonicalNames : List (List UInt8)}
    {hooks : List HookDefinition} (sofar : WellDescribed hooks)
    (known : ∀ hook ∈ hooks, hook.canonicalName ∈ canonicalNames) :
    WellDescribed (loop module_ names canonicalNames hooks) := by
  induction names generalizing canonicalNames hooks with
  | nil => exact sofar
  | cons exportName rest inductionHypothesis =>
      unfold loop
      split_ifs with isDescriptor
      · split
        · exact wellDescribed_nil
        · rename_i hook read
          obtain ⟨address, _, read⟩ := Option.bind_eq_some_iff.mp read
          split_ifs with bad
          · exact wellDescribed_nil
          · refine inductionHypothesis ⟨?_, ?_⟩ ?_
            · intro other member
              rcases List.mem_append.mp member with old | new
              · exact sofar.1 other old
              · rw [List.mem_singleton.mp new]
                exact described_of_readDescriptor read
            · rw [List.map_append, List.nodup_append]
              refine ⟨sofar.2, by simp, ?_⟩
              rintro name old _ new rfl
              obtain ⟨other, member, rfl⟩ := List.mem_map.mp old
              refine bad (.inl ?_)
              rw [List.map_singleton, List.mem_singleton] at new
              exact new ▸ known other member
            · intro other member
              rcases List.mem_append.mp member with old | new
              · exact List.mem_cons_of_mem _ (known other old)
              · rw [List.mem_singleton.mp new]
                exact List.mem_cons_self
      · exact inductionHypothesis sofar known

end DiscoverHooks

theorem discoverHooks_spec (module_ : Option LoadedModule) :
    WellDescribed (DiscoverHooks module_) := by
  cases module_ with
  | none => exact wellDescribed_nil
  | some module_ =>
      unfold DiscoverHooks
      dsimp only
      split_ifs
      · exact wellDescribed_nil
      · exact wellDescribed_nil
      · obtain ⟨described, distinct⟩ := DiscoverHooks.loop_spec module_ wellDescribed_nil (by simp)
        have sorted := List.perm_insertionSort
          (fun left right : HookDefinition => left.canonicalName ≤ right.canonicalName)
          (DiscoverHooks.loop module_ module_.names [] [])
        refine ⟨fun hook member => described hook (sorted.mem_iff.mp member), ?_⟩
        exact ((sorted.map HookDefinition.canonicalName).nodup_iff).mpr distinct

end ApiScope
