import ApiScope.Library.Transition
import Mathlib.Algebra.Ring.Nat

/-!
# Potentials

A system that pays for its work out of a potential works no more than its steps have put in.
Where some step always works and asks for nothing until an end is reached, an end is reached.
-/

namespace Transition

namespace System

universe u v

variable {State : Type u} {Label : Type v} {system : System State Label}

/-- Every step takes its work out of the potential and puts in what it demands. -/
structure Pays (system : System State Label) (holds : State → Prop) (potential : State → Nat)
    (works : Label → Bool) (demand : Label → Nat) : Prop where
  kept : ∀ {state next : State} {label : Label},
    holds state → system.step state label next → holds next
  paid : ∀ {state next : State} {label : Label},
    holds state → system.step state label next →
    potential next + (works label).toNat ≤ potential state + demand label

variable {holds : State → Prop} {potential : State → Nat} {works : Label → Bool}
  {demand : Label → Nat} {first last : State} {labels : List Label}

theorem Pays.path (pays : system.Pays holds potential works demand)
    (path : system.Path first labels last) (held : holds first) :
    holds last ∧
      potential last + labels.countP works ≤ potential first + (labels.map demand).sum := by
  induction path with
  | refl => exact ⟨held, by simp⟩
  | @snoc middle last labels label path taken inductionHypothesis =>
      obtain ⟨heldMiddle, before⟩ := inductionHypothesis
      have paid := pays.paid heldMiddle taken
      have counted : [label].countP works = (works label).toNat := by
        cases value : works label <;> simp [value]
      refine ⟨pays.kept heldMiddle taken, ?_⟩
      rw [List.countP_append, List.map_append, List.sum_append, counted, List.map_singleton,
        List.sum_singleton]
      omega

/-- The work along a path is bounded by what there was and what was put in. -/
theorem Pays.work_le (pays : system.Pays holds potential works demand)
    (path : system.Path first labels last) (held : holds first) :
    labels.countP works ≤ potential first + (labels.map demand).sum :=
  Nat.le_trans (Nat.le_add_left _ _) (pays.path path held).2

/-- By induction on the potential, which every step that works for nothing lowers. -/
theorem Pays.exists_path_end {ends : State → Prop} {allowed : Label → Prop}
    (pays : system.Pays holds potential works demand)
    (free : ∀ label, allowed label → works label = true ∧ demand label = 0)
    (progress : ∀ state, holds state → ¬ends state →
      ∃ label next, allowed label ∧ system.step state label next) (held : holds first) :
    ∃ labels last, system.Path first labels last ∧ ends last ∧
      (∀ label ∈ labels, allowed label) ∧ labels.length ≤ potential first := by
  induction left : potential first using Nat.strongRecOn generalizing first with
  | ind budget inductionHypothesis =>
      by_cases atEnd : ends first
      · exact ⟨[], first, .refl first, atEnd, by simp, Nat.zero_le _⟩
      · obtain ⟨label, next, isAllowed, taken⟩ := progress first held atEnd
        obtain ⟨works, noDemand⟩ := free label isAllowed
        have paid := pays.paid held taken
        rw [works, noDemand, left] at paid
        have lower : potential next < budget := paid
        obtain ⟨labels, last, path, ended, all, short⟩ :=
          inductionHypothesis _ lower (pays.kept held taken) rfl
        refine ⟨label :: labels, last, .cons taken path, ended, ?_, ?_⟩
        · exact List.forall_mem_cons.mpr ⟨isAllowed, all⟩
        · rw [List.length_cons]
          exact Nat.le_trans (Nat.succ_le_succ short) lower

end System

end Transition
