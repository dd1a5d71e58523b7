import ApiScope.Session.Modules
import ApiScope.Library.Pursuit

/-!
# Chains of forwarders

`ResolveExportAddress` follows a chain of forwarders through the loaded
modules.  Here the links of a chain are stated without a search, and the call is
shown to end where the chain does.
-/

namespace ApiScope

/-! ## One link -/

/-- A forwarder names the export behind its last dot; an ordinal is no name. -/
def IsForwarder (forwarder moduleName exportName : List UInt8) : Prop :=
  forwarder = moduleName ++ 0x2E :: exportName ∧ moduleName ≠ [] ∧ 0x2E ∉ exportName ∧
    exportName ≠ [] ∧ exportName.head? ≠ some 0x23

theorem findLastOf_append {character : UInt8} {before behind : List UInt8}
    (absent : character ∉ behind) :
    findLastOf character (before ++ character :: behind) = some before.length := by
  have reversed : (before ++ character :: behind).reverse =
      behind.reverse ++ character :: before.reverse := by simp
  have position : (before ++ character :: behind).reverse.idxOf character = behind.length := by
    rw [reversed, List.idxOf_append_of_notMem (by simpa using absent), List.idxOf_cons_self]
    simp
  rw [findLastOf, if_pos (by simp), position, List.length_append, List.length_cons,
    Option.some.injEq]
  omega

/-- A character that occurs occurs for a last time. -/
theorem exists_last_occurrence {character : UInt8} {text : List UInt8}
    (member : character ∈ text) :
    ∃ before behind, text = before ++ character :: behind ∧ character ∉ behind := by
  obtain ⟨behind, before, split, absent⟩ :=
    List.eq_append_cons_of_mem (List.mem_reverse.mpr member)
  refine ⟨before.reverse, behind.reverse, ?_, by simpa using absent⟩
  have whole := congrArg List.reverse split
  simpa using whole

/-- `find_last_of` cuts a forwarder where a link is cut. -/
theorem splitForwarder_iff {forwarder moduleName exportName : List UInt8} :
    splitForwarder forwarder = some (moduleName, exportName) ↔
      IsForwarder forwarder moduleName exportName := by
  by_cases dotted : 0x2E ∈ forwarder
  · obtain ⟨before, behind, rfl, absent⟩ := exists_last_occurrence dotted
    have cut : IsForwarder (before ++ 0x2E :: behind) moduleName exportName ↔
        (before ≠ [] ∧ behind ≠ [] ∧ behind.head? ≠ some 0x23) ∧
          before = moduleName ∧ behind = exportName := by
      constructor
      · rintro ⟨same, named, undotted, exported, numbered⟩
        have position := @findLastOf_append 0x2E before behind absent
        rw [same, findLastOf_append undotted, Option.some.injEq] at position
        obtain ⟨rfl, tail⟩ := List.append_inj same position.symm
        rw [List.cons.injEq] at tail
        obtain ⟨_, rfl⟩ := tail
        exact ⟨⟨named, exported, numbered⟩, rfl, rfl⟩
      · rintro ⟨⟨named, exported, numbered⟩, rfl, rfl⟩
        exact ⟨rfl, named, absent, exported, numbered⟩
    have refuses : (before.length = 0 ∨
        before.length + 1 ≥ (before ++ 0x2E :: behind).length ∨
        (before ++ 0x2E :: behind)[before.length + 1]? = some 0x23) ↔
        ¬(before ≠ [] ∧ behind ≠ [] ∧ behind.head? ≠ some 0x23) := by
      rw [List.length_append, List.length_cons, List.getElem?_append_right (by omega),
        Nat.add_sub_cancel_left, List.getElem?_cons_succ, ← List.head?_eq_getElem?,
        List.length_eq_zero_iff]
      have none_behind : before.length + 1 ≥ before.length + (behind.length + 1) ↔ behind = [] := by
        rw [← List.length_eq_zero_iff]
        omega
      rw [none_behind]
      tauto
    rw [cut, splitForwarder, findLastOf_append absent]
    dsimp only
    have dropped : (before ++ 0x2E :: behind).drop (before.length + 1) = behind := by
      rw [← List.drop_drop, List.drop_left, List.drop_one, List.tail_cons]
    rw [List.take_left, dropped]
    by_cases link : before ≠ [] ∧ behind ≠ [] ∧ behind.head? ≠ some 0x23
    · rw [if_neg (fun refused => refuses.mp refused link), Option.some.injEq, Prod.mk.injEq]
      exact (and_iff_right link).symm
    · rw [if_pos (refuses.mpr link)]
      exact iff_of_false (fun some => by cases some) fun whole => link whole.1
  · refine iff_of_false ?_ fun forwards => dotted ?_
    · rw [splitForwarder, findLastOf, if_neg dotted]
      exact fun some => by cases some
    · rw [forwards.1]
      simp

/-- The newest module of a name.  Of two modules with one generation, which the
session never has, the lower one counts. -/
def IsNewest (modules : List ModuleRecord) (name : List UInt8) (module : ModuleRecord) : Prop :=
  ∃ before behind, modules = before ++ module :: behind ∧ module.name = name ∧
    (∀ other ∈ before, other.name = name → other.generation < module.generation) ∧
    ∀ other ∈ behind, other.name = name → other.generation ≤ module.generation

theorem isNewest_cons {entry found : ModuleRecord} {rest : List ModuleRecord}
    {name : List UInt8} :
    IsNewest (entry :: rest) name found ↔
      entry = found ∧ entry.name = name ∧
          (∀ other ∈ rest, other.name = name → other.generation ≤ entry.generation) ∨
        IsNewest rest name found ∧
          (entry.name = name → entry.generation < found.generation) := by
  constructor
  · rintro ⟨before, behind, split, named, older, notNewer⟩
    cases before with
    | nil =>
        obtain ⟨rfl, rfl⟩ := List.cons.inj split
        exact Or.inl ⟨rfl, named, notNewer⟩
    | cons first before =>
        obtain ⟨rfl, rfl⟩ := List.cons.inj split
        refine Or.inr ⟨⟨before, behind, rfl, named, fun other member => ?_, notNewer⟩, ?_⟩
        · exact older other (List.mem_cons_of_mem _ member)
        · exact older entry List.mem_cons_self
  · rintro (⟨rfl, named, notNewer⟩ | ⟨⟨before, behind, rfl, named, older, notNewer⟩, first⟩)
    · exact ⟨[], rest, rfl, named, by simp, notNewer⟩
    · refine ⟨entry :: before, behind, rfl, named, fun other member => ?_, notNewer⟩
      rcases List.mem_cons.mp member with rfl | inside
      · exact first
      · exact older other inside

namespace FindModule

/-- The newest module so far stays the newest of those behind it, or gives way
to the first of the newest there. -/
theorem loop_eq_some_iff {name : List UInt8} {modules : List ModuleRecord}
    {newest : Option ModuleRecord} {found : ModuleRecord} :
    loop name modules newest = some found ↔
      newest = some found ∧
          (∀ other ∈ modules, other.name = name → other.generation ≤ found.generation) ∨
        IsNewest modules name found ∧
          ∀ earlier ∈ newest, earlier.generation < found.generation := by
  induction modules generalizing newest with
  | nil => simp [loop, IsNewest]
  | cons entry rest inductionHypothesis =>
      rw [loop, isNewest_cons, List.forall_mem_cons]
      by_cases newer : entry.name = name ∧ newest.all (·.generation < entry.generation)
      · rw [if_pos newer, inductionHypothesis, Option.some.injEq]
        obtain ⟨named, newer⟩ := newer
        have older : ∀ earlier ∈ newest, earlier.generation < entry.generation := by
          simpa [Option.all_eq_true] using newer
        constructor
        · rintro (⟨rfl, notNewer⟩ | ⟨isNewest, later⟩)
          · exact Or.inr ⟨Or.inl ⟨rfl, named, notNewer⟩, older⟩
          · refine Or.inr ⟨Or.inr ⟨isNewest, fun _ => later entry rfl⟩, fun earlier held => ?_⟩
            exact (older earlier held).trans (later entry rfl)
        · rintro (⟨rfl, notNewer, _⟩ | ⟨⟨rfl, _, notNewer⟩ | ⟨isNewest, later⟩, _⟩)
          · exact absurd (older found rfl) (Nat.not_lt.mpr (notNewer named))
          · exact Or.inl ⟨rfl, notNewer⟩
          · refine Or.inr ⟨isNewest, fun earlier held => ?_⟩
            rw [Option.mem_some_iff] at held
            exact held ▸ later named
      · rw [if_neg newer, inductionHypothesis]
        have bounded : entry.name = name →
            ∃ earlier ∈ newest, entry.generation ≤ earlier.generation := by
          intro named
          by_contra none_newer
          push Not at none_newer
          exact newer ⟨named, by simpa [Option.all_eq_true] using none_newer⟩
        constructor
        · rintro (⟨rfl, notNewer⟩ | ⟨isNewest, later⟩)
          · refine Or.inl ⟨rfl, fun named => ?_, notNewer⟩
            obtain ⟨earlier, held, bound⟩ := bounded named
            rw [Option.mem_some_iff] at held
            exact held ▸ bound
          · refine Or.inr ⟨Or.inr ⟨isNewest, fun named => ?_⟩, later⟩
            obtain ⟨earlier, held, bound⟩ := bounded named
            exact bound.trans_lt (later earlier held)
        · rintro (⟨rfl, _, notNewer⟩ | ⟨⟨rfl, named, _⟩ | ⟨isNewest, _⟩, later⟩)
          · exact Or.inl ⟨rfl, notNewer⟩
          · obtain ⟨earlier, held, bound⟩ := bounded named
            exact absurd (later earlier held) (Nat.not_lt.mpr bound)
          · exact Or.inr ⟨isNewest, later⟩

/-- Once a module has been found the loop never ends without one. -/
theorem loop_eq_none_iff {name : List UInt8} {modules : List ModuleRecord}
    {newest : Option ModuleRecord} :
    loop name modules newest = none ↔
      newest = none ∧ ∀ module ∈ modules, module.name ≠ name := by
  induction modules generalizing newest with
  | nil => simp [loop]
  | cons entry rest inductionHypothesis =>
      rw [loop, List.forall_mem_cons]
      split_ifs with newer
      · rw [inductionHypothesis]
        simp [newer.1]
      · rw [inductionHypothesis]
        refine and_congr_right fun empty => ?_
        subst empty
        simp only [Option.all_none, and_true] at newer
        exact (and_iff_right newer).symm

end FindModule

theorem FindModule_eq_some_iff {modules : List ModuleRecord} {name : List UInt8}
    {found : ModuleRecord} :
    FindModule modules name = some found ↔ IsNewest modules name found := by
  rw [FindModule, FindModule.loop_eq_some_iff]
  simp

theorem FindModule_eq_none_iff {modules : List ModuleRecord} {name : List UInt8} :
    FindModule modules name = none ↔ ∀ module ∈ modules, module.name ≠ name := by
  rw [FindModule, FindModule.loop_eq_none_iff]
  exact and_iff_right rfl

/-! ## The chain -/

/-- An export that is named by its module and its name. -/
structure ExportReference where
  moduleName : List UInt8
  exportName : List UInt8
  deriving DecidableEq, Repr

/-- The address of an export and the base of its module. -/
structure ResolvedExport where
  address : Nat
  targetModuleBase : Nat
  deriving DecidableEq, Repr

open Pursuit (Answer)

/-- What the loaded modules answer to a reference. -/
inductive Answers (process : Target) (modules : List ModuleRecord)
    (reference : ExportReference) : Answer ExportReference ResolvedExport → Prop where
  | notLoaded :
      (∀ module ∈ modules, module.name ≠ lookupName reference.moduleName) →
      Answers process modules reference .absent
  | missing {module : ModuleRecord} :
      IsNewest modules (lookupName reference.moduleName) module →
      process.GetRemoteExport module.base reference.exportName = none →
      Answers process modules reference .refused
  | plain {module : ModuleRecord} {remoteExport : RemoteExport} :
      IsNewest modules (lookupName reference.moduleName) module →
      process.GetRemoteExport module.base reference.exportName = some remoteExport →
      remoteExport.address ≠ 0 →
      Answers process modules reference (.final ⟨remoteExport.address, module.base⟩)
  | forwarded {module : ModuleRecord} {remoteExport : RemoteExport}
      {moduleName exportName : List UInt8} :
      IsNewest modules (lookupName reference.moduleName) module →
      process.GetRemoteExport module.base reference.exportName = some remoteExport →
      remoteExport.address = 0 →
      IsForwarder remoteExport.forwarder moduleName exportName →
      Answers process modules reference (.forward ⟨moduleName, exportName⟩)
  | unsupported {module : ModuleRecord} {remoteExport : RemoteExport} :
      IsNewest modules (lookupName reference.moduleName) module →
      process.GetRemoteExport module.base reference.exportName = some remoteExport →
      remoteExport.address = 0 →
      (∀ moduleName exportName, ¬IsForwarder remoteExport.forwarder moduleName exportName) →
      Answers process modules reference .refused

/-- The references on the way from one reference to another. -/
inductive Chain (process : Target) (modules : List ModuleRecord) :
    ExportReference → List ExportReference → ExportReference → Prop where
  | here (reference : ExportReference) : Chain process modules reference [reference] reference
  | forward {reference next last : ExportReference} {references : List ExportReference} :
      Answers process modules reference (.forward next) →
      Chain process modules next references last →
      Chain process modules reference (reference :: references) last

/-- The name under which a reference is remembered. -/
def ExportReference.identity (reference : ExportReference) : List UInt8 :=
  exportIdentity reference.moduleName reference.exportName

/-- Within eight lookups, and before any identity comes back, the chain comes to
this answer. -/
def ChainEnds (process : Target) (modules : List ModuleRecord) (start : ExportReference)
    (found : Answer ExportReference ResolvedExport) : Prop :=
  ∃ references last, Chain process modules start references last ∧ references.length ≤ 8 ∧
    (references.map ExportReference.identity).Nodup ∧ Answers process modules last found

/-- The chain goes on to an identity that it has met, or to a ninth lookup. -/
def ChainExhausts (process : Target) (modules : List ModuleRecord) (start : ExportReference) :
    Prop :=
  ∃ references last next, Chain process modules start references last ∧
    references.length ≤ 8 ∧ (references.map ExportReference.identity).Nodup ∧
    Answers process modules last (.forward next) ∧
    (references.length = 8 ∨ next.identity ∈ references.map ExportReference.identity)

/-- One lookup of `ResolveExportAddress`. -/
def answer (process : Target) (modules : List ModuleRecord) (reference : ExportReference) :
    Answer ExportReference ResolvedExport :=
  match FindModule modules (lookupName reference.moduleName) with
  | none => .absent
  | some module =>
      match process.GetRemoteExport module.base reference.exportName with
      | none => .refused
      | some remoteExport =>
          if remoteExport.address ≠ 0 then .final ⟨remoteExport.address, module.base⟩
          else
            match splitForwarder remoteExport.forwarder with
            | none => .refused
            | some (moduleName, exportName) => .forward ⟨moduleName, exportName⟩

section Chain

variable {process : Target} {modules : List ModuleRecord}

theorem answers_answer (reference : ExportReference) :
    Answers process modules reference (answer process modules reference) := by
  unfold answer
  cases search : FindModule modules (lookupName reference.moduleName) with
  | none => exact .notLoaded (FindModule_eq_none_iff.mp search)
  | some module =>
      have newest := FindModule_eq_some_iff.mp search
      dsimp only
      cases lookup : process.GetRemoteExport module.base reference.exportName with
      | none => exact .missing newest lookup
      | some remoteExport =>
          dsimp only
          split_ifs with plain
          · exact .plain newest lookup plain
          · have null : remoteExport.address = 0 := not_not.mp plain
            cases split : splitForwarder remoteExport.forwarder with
            | none =>
                refine .unsupported newest lookup null fun moduleName exportName link => ?_
                rw [splitForwarder_iff.mpr link] at split
                cases split
            | some link => exact .forwarded newest lookup null (splitForwarder_iff.mp split)

/-- A reference has one answer. -/
theorem Answers.eq_answer {reference : ExportReference}
    {found : Answer ExportReference ResolvedExport}
    (answers : Answers process modules reference found) :
    answer process modules reference = found := by
  unfold answer
  cases answers with
  | notLoaded absent => rw [FindModule_eq_none_iff.mpr absent]
  | missing newest lookup => simp only [FindModule_eq_some_iff.mpr newest, lookup]
  | plain newest lookup plain => simp [FindModule_eq_some_iff.mpr newest, lookup, plain]
  | forwarded newest lookup null link =>
      simp [FindModule_eq_some_iff.mpr newest, lookup, null, splitForwarder_iff.mpr link]
  | unsupported newest lookup null malformed =>
      have split : splitForwarder _ = none :=
        Option.eq_none_iff_forall_ne_some.mpr fun link whole =>
          malformed link.1 link.2 (splitForwarder_iff.mp whole)
      simp [FindModule_eq_some_iff.mpr newest, lookup, null, split]

theorem answers_iff {reference : ExportReference}
    {found : Answer ExportReference ResolvedExport} :
    Answers process modules reference found ↔ answer process modules reference = found :=
  ⟨Answers.eq_answer, fun same => same ▸ answers_answer reference⟩

/-- `ResolveExportAddress` pursues the chain of forwarders. -/
theorem ResolveExportAddress_eq_pursue (remaining : Nat) (moduleName exportName : List UInt8)
    (visited : List (List UInt8)) :
    ResolveExportAddress process modules remaining moduleName exportName visited =
      match Pursuit.pursue (answer process modules) ExportReference.identity remaining
          ⟨moduleName, exportName⟩ visited with
      | .found result => .resolved result.address result.targetModuleBase
      | .absent => .pending
      | .refused => .error := by
  induction remaining generalizing moduleName exportName visited with
  | zero => rfl
  | succ remaining inductionHypothesis =>
      rw [ResolveExportAddress, Pursuit.pursue]
      unfold ExportReference.identity
      dsimp only
      split_ifs
      · rfl
      · unfold answer
        cases FindModule modules (lookupName moduleName) with
        | none => rfl
        | some module =>
            dsimp only
            cases process.GetRemoteExport module.base exportName with
            | none => rfl
            | some remoteExport =>
                dsimp only
                split_ifs
                · rfl
                · cases splitForwarder remoteExport.forwarder with
                  | none => rfl
                  | some link => exact inductionHypothesis _ _ _

theorem chain_iff {start last : ExportReference} {references : List ExportReference} :
    Chain process modules start references last ↔
      Pursuit.Trail (answer process modules) start references last := by
  constructor
  · intro chain
    induction chain with
    | here reference => exact .here reference
    | forward answers _ inductionHypothesis =>
        exact .forward answers.eq_answer inductionHypothesis
  · intro trail
    induction trail with
    | here reference => exact .here reference
    | forward reference _ inductionHypothesis =>
        exact .forward (answers_iff.mpr reference) inductionHypothesis

theorem path_iff {start last : ExportReference} {references : List ExportReference} :
    Pursuit.Path (answer process modules) ExportReference.identity 8 [] start references last ↔
      Chain process modules start references last ∧ references.length ≤ 8 ∧
        (references.map ExportReference.identity).Nodup := by
  rw [chain_iff]
  constructor
  · intro path
    exact ⟨path.trail, path.short, path.distinct⟩
  · rintro ⟨trail, short, distinct⟩
    exact ⟨trail, short, distinct, fun _ _ => List.not_mem_nil⟩

theorem chainEnds_iff {start : ExportReference}
    {found : Answer ExportReference ResolvedExport} :
    ChainEnds process modules start found ↔
      Pursuit.Reaches (answer process modules) ExportReference.identity 8 [] start found := by
  simp only [ChainEnds, Pursuit.Reaches, path_iff, answers_iff, and_assoc]

theorem chainExhausts_iff {start : ExportReference} :
    ChainExhausts process modules start ↔
      Pursuit.Exhausts (answer process modules) ExportReference.identity 8 [] start := by
  simp only [ChainExhausts, Pursuit.Exhausts, path_iff, answers_iff, and_assoc,
    List.not_mem_nil, false_or]

end Chain

/-! ## The call -/

/-- What a call reports beside its outputs. -/
inductive ResolveStatus where
  | resolved
  | pending
  | error
  deriving DecidableEq, Repr

/-- The call with the set it shares with its recursive calls and with its two
outputs, `*address` and `*targetModuleBase`. -/
def ResolveExportAddress.withOutputs (process : Target) (modules : List ModuleRecord) :
    Nat → List UInt8 → List UInt8 → List (List UInt8) → ResolvedExport →
      ResolveStatus × List (List UInt8) × ResolvedExport
  | 0, _, _, visited, outputs => (.error, visited, outputs)
  | remaining + 1, moduleName, exportName, visited, outputs =>
      let identity := exportIdentity moduleName exportName
      if identity ∈ visited then (.error, visited, outputs)
      else
        let visited := identity :: visited
        match FindModule modules (lookupName moduleName) with
        | none => (.pending, visited, outputs)
        | some module =>
            match process.GetRemoteExport module.base exportName with
            | none => (.error, visited, outputs)
            | some remoteExport =>
                if remoteExport.address ≠ 0 then
                  (.resolved, visited, ⟨remoteExport.address, module.base⟩)
                else
                  match splitForwarder remoteExport.forwarder with
                  | none => (.error, visited, outputs)
                  | some (forwardedModule, forwardedExport) =>
                      withOutputs process modules remaining forwardedModule forwardedExport
                        visited outputs

/-- The outputs a result stands for; those that are not written stay. -/
def ResolveResult.toStatus (outputs : ResolvedExport) :
    ResolveResult → ResolveStatus × ResolvedExport
  | .resolved address targetModuleBase => (.resolved, ⟨address, targetModuleBase⟩)
  | .pending => (.pending, outputs)
  | .error => (.error, outputs)

theorem ResolveExportAddress.withOutputs_eq (process : Target) (modules : List ModuleRecord)
    (remaining : Nat) (moduleName exportName : List UInt8) (visited : List (List UInt8))
    (outputs : ResolvedExport) :
    ((withOutputs process modules remaining moduleName exportName visited outputs).1,
        (withOutputs process modules remaining moduleName exportName visited outputs).2.2) =
      (ResolveExportAddress process modules remaining moduleName exportName
        visited).toStatus outputs := by
  induction remaining generalizing moduleName exportName visited with
  | zero => rfl
  | succ remaining inductionHypothesis =>
      rw [withOutputs, ResolveExportAddress]
      dsimp only
      split_ifs
      · rfl
      · cases FindModule modules (lookupName moduleName) with
        | none => rfl
        | some module =>
            dsimp only
            cases process.GetRemoteExport module.base exportName with
            | none => rfl
            | some remoteExport =>
                dsimp only
                split_ifs
                · rfl
                · cases splitForwarder remoteExport.forwarder with
                  | none => rfl
                  | some link => exact inductionHypothesis _ _ _

/-- Resolving a first reference ends as its chain does, and writes the outputs
only if it is resolved. -/
theorem ResolveExportAddress.ends_with_chain (process : Target) (modules : List ModuleRecord)
    (start : ExportReference) (outputs : ResolvedExport) :
    let call := withOutputs process modules 8 start.moduleName start.exportName [] outputs
    (∀ found, call.1 = .resolved ∧ call.2.2 = found ↔
        ChainEnds process modules start (.final found)) ∧
      (call.1 = .pending ↔ ChainEnds process modules start .absent) ∧
      (call.1 = .error ↔
        ChainEnds process modules start .refused ∨ ChainExhausts process modules start) ∧
      (call.1 = .error ↔
        (¬∃ found, ChainEnds process modules start (.final found)) ∧
          ¬ChainEnds process modules start .absent) ∧
      (call.1 ≠ .resolved → call.2.2 = outputs) := by
  intro call
  have whole : (call.1, call.2.2) = _ :=
    withOutputs_eq process modules 8 start.moduleName start.exportName [] outputs
  rw [ResolveExportAddress_eq_pursue] at whole
  have resolved := @Pursuit.pursue_found_iff _ _ _ _ (answer process modules)
    ExportReference.identity 8 [] start
  have pending := @Pursuit.pursue_absent_iff _ _ _ _ (answer process modules)
    ExportReference.identity 8 [] start
  have error := @Pursuit.pursue_refused_iff _ _ _ _ (answer process modules)
    ExportReference.identity 8 [] start
  simp only [chainEnds_iff, chainExhausts_iff, ← resolved, ← pending]
  simp only [List.not_mem_nil, false_or, OfNat.ofNat_ne_zero] at error
  rw [← error]
  generalize Pursuit.pursue (answer process modules) ExportReference.identity 8 start [] =
    outcome at whole
  generalize call.1 = status at whole ⊢
  generalize call.2.2 = written at whole ⊢
  cases outcome with
  | found result =>
      obtain ⟨rfl, rfl⟩ := Prod.mk.inj whole
      simp
  | absent =>
      obtain ⟨rfl, rfl⟩ := Prod.mk.inj whole
      simp
  | refused =>
      obtain ⟨rfl, rfl⟩ := Prod.mk.inj whole
      simp

end ApiScope
