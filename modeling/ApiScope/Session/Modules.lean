import ApiScope.Hook.Manager

/-!
# Loaded modules and forwarded exports

The session records every module it has identified under the base of its image.
An export is looked up in the newest module of a name; a forwarder names an
export of another module, which need not be loaded yet.
-/

namespace ApiScope

structure ModuleRecord where
  base : Nat
  path : List UInt16
  name : List UInt8
  generation : Nat
  deriving DecidableEq, Repr

/-- Empty for a path that is not ASCII. -/
def NarrowAscii (value : List UInt16) : List UInt8 :=
  if value.any (· > 0x7F) then [] else value.map UInt16.toUInt8

/-! ## The map of modules -/

/-- `modules_[base] = module`; the map is ordered by base. -/
def insertModule (module : ModuleRecord) : List ModuleRecord → List ModuleRecord
  | [] => [module]
  | first :: rest =>
      if module.base < first.base then module :: first :: rest
      else if module.base = first.base then module :: rest
      else first :: insertModule module rest

/-- `modules_.erase(base)` -/
def eraseModule (base : Nat) (modules : List ModuleRecord) : List ModuleRecord :=
  modules.filter fun module => module.base ≠ base

namespace FindModule

/-- The loop over the map with the newest module found so far. -/
def loop (normalizedName : List UInt8) :
    List ModuleRecord → Option ModuleRecord → Option ModuleRecord
  | [], newest => newest
  | entry :: rest, newest =>
      if entry.name = normalizedName ∧ newest.all (·.generation < entry.generation) then
        loop normalizedName rest (some entry)
      else loop normalizedName rest newest

end FindModule

def FindModule (modules : List ModuleRecord) (normalizedName : List UInt8) :
    Option ModuleRecord :=
  FindModule.loop normalizedName modules none

/-! ## Resolving an export -/

inductive ResolveResult where
  | resolved (address targetModuleBase : Nat)
  | pending
  | error
  deriving DecidableEq, Repr

/-- `find_last_of` for one character -/
def findLastOf (character : UInt8) (text : List UInt8) : Option Nat :=
  if character ∈ text then some (text.length - 1 - text.reverse.idxOf character) else none

/-- The module and the symbol a forwarder names; `none` if it is not supported. -/
def splitForwarder (forwarder : List UInt8) : Option (List UInt8 × List UInt8) :=
  match findLastOf 0x2E forwarder with
  | none => none
  | some separator =>
      if separator = 0 ∨ separator + 1 ≥ forwarder.length ∨
          forwarder[separator + 1]? = some 0x23 then none
      else some (forwarder.take separator, forwarder.drop (separator + 1))

/-- The name under which a module is looked up, with the extension it may lack. -/
def lookupName (moduleName : List UInt8) : List UInt8 :=
  let normalizedModule := NormalizeModuleName moduleName
  if 0x2E ∈ normalizedModule then normalizedModule else normalizedModule ++ narrow ".dll"

/-- The export as it is remembered in `visited`. -/
def exportIdentity (moduleName exportName : List UInt8) : List UInt8 :=
  lookupName moduleName ++ narrow "!" ++ exportName

/-- A chain of forwarders is followed for at most eight lookups; `remaining` is 8 - `depth`. -/
def ResolveExportAddress (process : Target) (modules : List ModuleRecord) :
    Nat → List UInt8 → List UInt8 → List (List UInt8) → ResolveResult
  | 0, _, _, _ => .error
  | remaining + 1, moduleName, exportName, visited =>
      let identity := exportIdentity moduleName exportName
      if identity ∈ visited then .error
      else
        match FindModule modules (lookupName moduleName) with
        | none => .pending
        | some module =>
            match process.GetRemoteExport module.base exportName with
            | none => .error
            | some remoteExport =>
                if remoteExport.address ≠ 0 then .resolved remoteExport.address module.base
                else
                  match splitForwarder remoteExport.forwarder with
                  | none => .error
                  | some (forwardedModule, forwardedExport) =>
                      ResolveExportAddress process modules remaining forwardedModule
                        forwardedExport (identity :: visited)

/-- The base of the source module is known as soon as the module is found. -/
def ResolveHookAddress (process : Target) (modules : List ModuleRecord) (hook : HookDefinition) :
    Option Nat × ResolveResult :=
  match FindModule modules hook.moduleName with
  | none => (none, .pending)
  | some source =>
      (some source.base,
        ResolveExportAddress process modules 8 hook.moduleName hook.exportName [])

/-! ## What the lookups rest on -/

theorem mem_insertModule {module other : ModuleRecord} {modules : List ModuleRecord}
    (member : other ∈ insertModule module modules) : other = module ∨ other ∈ modules := by
  induction modules with
  | nil => simpa [insertModule] using member
  | cons first rest inductionHypothesis =>
      rw [insertModule] at member
      split_ifs at member
      · simpa using member
      · rcases List.mem_cons.mp member with isModule | behind
        · exact Or.inl isModule
        · exact Or.inr (List.mem_cons_of_mem _ behind)
      · rcases List.mem_cons.mp member with rfl | behind
        · simp
        · exact (inductionHypothesis behind).imp_right (List.mem_cons_of_mem _)

theorem mem_insertModule_self (module : ModuleRecord) (modules : List ModuleRecord) :
    module ∈ insertModule module modules := by
  induction modules with
  | nil => exact List.mem_singleton_self module
  | cons first rest inductionHypothesis =>
      rw [insertModule]
      split_ifs
      · exact List.mem_cons_self
      · exact List.mem_cons_self
      · exact List.mem_cons_of_mem _ inductionHypothesis

/-- Insertion replaces no other base. -/
theorem exists_base_insertModule {module other : ModuleRecord} {modules : List ModuleRecord}
    (member : other ∈ modules) :
    ∃ entry ∈ insertModule module modules, entry.base = other.base := by
  induction modules with
  | nil => cases member
  | cons first rest inductionHypothesis =>
      rw [insertModule]
      split_ifs with before same
      · exact ⟨other, List.mem_cons_of_mem _ member, rfl⟩
      · rcases List.mem_cons.mp member with rfl | behind
        · exact ⟨module, by simp, same⟩
        · exact ⟨other, List.mem_cons_of_mem _ behind, rfl⟩
      · rcases List.mem_cons.mp member with rfl | behind
        · exact ⟨other, by simp, rfl⟩
        · obtain ⟨entry, inside, base⟩ := inductionHypothesis behind
          exact ⟨entry, List.mem_cons_of_mem _ inside, base⟩

theorem mem_eraseModule {base : Nat} {module : ModuleRecord} {modules : List ModuleRecord} :
    module ∈ eraseModule base modules ↔ module ∈ modules ∧ module.base ≠ base := by
  simp [eraseModule]

namespace FindModule

theorem loop_some {normalizedName : List UInt8} {modules : List ModuleRecord}
    {newest : Option ModuleRecord} {found : ModuleRecord}
    (search : loop normalizedName modules newest = some found) :
    newest = some found ∨ found ∈ modules ∧ found.name = normalizedName := by
  induction modules generalizing newest with
  | nil => exact Or.inl search
  | cons entry rest inductionHypothesis =>
      rw [loop] at search
      split_ifs at search with newer
      · rcases inductionHypothesis search with isEntry | ⟨behind, named⟩
        · cases isEntry
          exact Or.inr ⟨by simp, newer.1⟩
        · exact Or.inr ⟨List.mem_cons_of_mem _ behind, named⟩
      · rcases inductionHypothesis search with unchanged | ⟨behind, named⟩
        · exact Or.inl unchanged
        · exact Or.inr ⟨List.mem_cons_of_mem _ behind, named⟩

end FindModule

/-- What is found is a module of the map under the name that was asked for. -/
theorem FindModule_some {modules : List ModuleRecord} {normalizedName : List UInt8}
    {found : ModuleRecord} (search : FindModule modules normalizedName = some found) :
    found ∈ modules ∧ found.name = normalizedName := by
  rcases FindModule.loop_some search with nothing | inside
  · cases nothing
  · exact inside

/-- Only the exports of the modules in the map matter. -/
theorem ResolveExportAddress_congr {process process' : Target} {modules : List ModuleRecord}
    (same : ∀ module ∈ modules, process.images module.base = process'.images module.base)
    (remaining : Nat) (moduleName exportName : List UInt8) (visited : List (List UInt8)) :
    ResolveExportAddress process modules remaining moduleName exportName visited =
      ResolveExportAddress process' modules remaining moduleName exportName visited := by
  induction remaining generalizing moduleName exportName visited with
  | zero => rfl
  | succ remaining inductionHypothesis =>
      rw [ResolveExportAddress, ResolveExportAddress]
      split_ifs
      · rfl
      · cases search : FindModule modules (lookupName moduleName) with
        | none => rfl
        | some module =>
            have exports : process.GetRemoteExport module.base exportName =
                process'.GetRemoteExport module.base exportName := by
              rw [Target.GetRemoteExport, Target.GetRemoteExport,
                same module (FindModule_some search).1]
            dsimp only
            rw [exports]
            cases process'.GetRemoteExport module.base exportName with
            | none => rfl
            | some remoteExport =>
                dsimp only
                split_ifs
                · rfl
                · cases splitForwarder remoteExport.forwarder with
                  | none => rfl
                  | some forwarded => exact inductionHypothesis _ _ _

theorem ResolveHookAddress_congr {process process' : Target} {modules : List ModuleRecord}
    (same : ∀ module ∈ modules, process.images module.base = process'.images module.base)
    (hook : HookDefinition) :
    ResolveHookAddress process modules hook = ResolveHookAddress process' modules hook := by
  unfold ResolveHookAddress
  cases FindModule modules hook.moduleName with
  | none => rfl
  | some source => rw [ResolveExportAddress_congr same]

/-- A resolved export belongs to a module of the map. -/
theorem ResolveExportAddress_base {process : Target} {modules : List ModuleRecord}
    {remaining : Nat} {moduleName exportName : List UInt8} {visited : List (List UInt8)}
    {address base : Nat}
    (resolved : ResolveExportAddress process modules remaining moduleName exportName visited =
      .resolved address base) :
    ∃ module ∈ modules, module.base = base := by
  induction remaining generalizing moduleName exportName visited with
  | zero => cases resolved
  | succ remaining inductionHypothesis =>
      rw [ResolveExportAddress] at resolved
      split_ifs at resolved
      cases search : FindModule modules (lookupName moduleName) with
      | none => simp [search] at resolved
      | some module =>
          simp only [search] at resolved
          cases lookup : process.GetRemoteExport module.base exportName with
          | none => simp [lookup] at resolved
          | some remoteExport =>
              simp only [lookup] at resolved
              split_ifs at resolved
              · cases resolved
                exact ⟨module, (FindModule_some search).1, rfl⟩
              · cases forwarded : splitForwarder remoteExport.forwarder with
                | none => simp [forwarded] at resolved
                | some target =>
                    simp only [forwarded] at resolved
                    exact inductionHypothesis resolved

/-- A resolved hook has both its modules in the map. -/
theorem ResolveHookAddress_resolved {process : Target} {modules : List ModuleRecord}
    {hook : HookDefinition} {source : Option Nat} {address base : Nat}
    (resolved : ResolveHookAddress process modules hook = (source, .resolved address base)) :
    (∃ module ∈ modules, source = some module.base) ∧ ∃ module ∈ modules, module.base = base := by
  unfold ResolveHookAddress at resolved
  cases search : FindModule modules hook.moduleName with
  | none => simp [search] at resolved
  | some module =>
      simp only [search, Prod.mk.injEq] at resolved
      exact ⟨⟨module, (FindModule_some search).1, resolved.1.symm⟩,
        ResolveExportAddress_base resolved.2⟩

/-! ## Generations -/

theorem nodup_generation_insertModule {module : ModuleRecord} {modules : List ModuleRecord}
    (distinct : (modules.map ModuleRecord.generation).Nodup)
    (newest : ∀ other ∈ modules, other.generation < module.generation) :
    ((insertModule module modules).map ModuleRecord.generation).Nodup := by
  have absent : module.generation ∉ modules.map ModuleRecord.generation := by
    intro member
    obtain ⟨other, inside, same⟩ := List.mem_map.mp member
    exact absurd same (Nat.ne_of_lt (newest other inside))
  induction modules with
  | nil => simp [insertModule]
  | cons first rest inductionHypothesis =>
      rw [List.map_cons, List.nodup_cons] at distinct
      rw [List.map_cons, List.mem_cons, not_or] at absent
      rw [insertModule]
      split_ifs
      · rw [List.map_cons, List.nodup_cons, List.map_cons, List.mem_cons, not_or]
        exact ⟨absent, List.nodup_cons.mpr distinct⟩
      · exact List.nodup_cons.mpr ⟨absent.2, distinct.2⟩
      · rw [List.map_cons, List.nodup_cons]
        refine ⟨fun member => ?_, inductionHypothesis distinct.2
          (fun other inside => newest other (List.mem_cons_of_mem _ inside)) absent.2⟩
        obtain ⟨other, inside, same⟩ := List.mem_map.mp member
        rcases mem_insertModule inside with rfl | behind
        · exact absent.1 same
        · exact distinct.1 (List.mem_map.mpr ⟨other, behind, same⟩)

namespace FindModule

/-- The loop ends with the newest of all it has seen. -/
theorem loop_newest {normalizedName : List UInt8} {modules : List ModuleRecord}
    {newest : Option ModuleRecord} {found : ModuleRecord}
    (search : loop normalizedName modules newest = some found) :
    (∀ module ∈ newest, module.generation ≤ found.generation) ∧
      ∀ module ∈ modules, module.name = normalizedName →
        module.generation ≤ found.generation := by
  induction modules generalizing newest with
  | nil =>
      rw [loop] at search
      subst search
      simp
  | cons entry rest inductionHypothesis =>
      rw [loop] at search
      split_ifs at search with newer
      · obtain ⟨entryOlder, restOlder⟩ := inductionHypothesis search
        have entryBound : entry.generation ≤ found.generation := entryOlder entry rfl
        refine ⟨fun module isNewest => ?_, fun module member named => ?_⟩
        · have older := newer.2
          rw [Option.mem_def] at isNewest
          simp only [isNewest, Option.all_some, decide_eq_true_eq] at older
          exact (Nat.le_of_lt older).trans entryBound
        · rcases List.mem_cons.mp member with rfl | behind
          · exact entryBound
          · exact restOlder module behind named
      · obtain ⟨newestOlder, restOlder⟩ := inductionHypothesis search
        refine ⟨newestOlder, fun module member named => ?_⟩
        rcases List.mem_cons.mp member with rfl | behind
        · rw [not_and, Option.all_eq_true] at newer
          have held := newer named
          push Not at held
          obtain ⟨other, isNewest, notOlder⟩ := held
          exact (by simpa using notOlder : module.generation ≤ other.generation).trans
            (newestOlder other isNewest)
        · exact restOlder module behind named

end FindModule

/-- No module of the name is newer than the one that is found. -/
theorem FindModule_newest {modules : List ModuleRecord} {normalizedName : List UInt8}
    {found module : ModuleRecord} (search : FindModule modules normalizedName = some found)
    (member : module ∈ modules) (named : module.name = normalizedName) :
    module.generation ≤ found.generation :=
  (FindModule.loop_newest search).2 module member named

end ApiScope
