import Mathlib.Data.List.Induction
import Mathlib.Data.Multiset.AddSub
import Mathlib.Data.Multiset.Count

/-!
# Custody of resources

A ledger of what has been acquired and released.  A release is only entered for
a resource that is held, so nothing on such a ledger is released twice.
-/

namespace Custody

universe u

inductive Entry (Resource : Type u) where
  | acquire (resource : Resource)
  | release (resource : Resource)
  deriving DecidableEq, Repr

variable {Resource : Type u}

/-- What is held at the end of a ledger. -/
inductive Holds : List (Entry Resource) → Multiset Resource → Prop where
  | start : Holds [] 0
  | acquire {ledger : List (Entry Resource)} {held : Multiset Resource} (resource : Resource) :
      Holds ledger held → Holds (ledger ++ [.acquire resource]) (resource ::ₘ held)
  | release {ledger : List (Entry Resource)} {held : Multiset Resource} {resource : Resource} :
      Holds ledger (resource ::ₘ held) → Holds (ledger ++ [.release resource]) held

/-- Resources that are released one after the other. -/
theorem Holds.release_all {ledger : List (Entry Resource)} {resources : List Resource}
    {held : Multiset Resource} (holds : Holds ledger ((resources : Multiset Resource) + held)) :
    Holds (ledger ++ resources.map .release) held := by
  induction resources generalizing ledger with
  | nil => simpa using holds
  | cons resource rest inductionHypothesis =>
      have released : Holds (ledger ++ [.release resource]) ((rest : Multiset Resource) + held) :=
        .release (by rwa [← Multiset.cons_coe, Multiset.cons_add] at holds)
      simpa using inductionHypothesis released

theorem Holds.of_append {before after : List (Entry Resource)} {held : Multiset Resource}
    (holds : Holds (before ++ after) held) : ∃ earlier, Holds before earlier := by
  induction after using List.reverseRecOn generalizing held with
  | nil => exact ⟨held, by simpa using holds⟩
  | append_singleton after entry inductionHypothesis =>
      rw [← List.append_assoc] at holds
      generalize whole : before ++ after ++ [entry] = ledger at holds
      cases holds with
      | start => simp at whole
      | acquire resource holds =>
          rw [← (List.append_inj' whole rfl).1] at holds
          exact inductionHypothesis holds
      | release holds =>
          rw [← (List.append_inj' whole rfl).1] at holds
          exact inductionHypothesis holds

section Counting

variable [DecidableEq Resource]

/-- Everything that was acquired has been released exactly as often, and nothing
was ever released before it was acquired. -/
structure Settled (ledger : List (Entry Resource)) : Prop where
  balanced : ∀ resource,
    ledger.count (.release resource) = ledger.count (.acquire resource)
  never_early : ∀ before after, ledger = before ++ after → ∀ resource,
    before.count (.release resource) ≤ before.count (.acquire resource)

theorem Holds.count {ledger : List (Entry Resource)} {held : Multiset Resource}
    (holds : Holds ledger held) (resource : Resource) :
    ledger.count (.release resource) + held.count resource =
      ledger.count (.acquire resource) := by
  induction holds with
  | start => simp
  | acquire acquired _ inductionHypothesis =>
      rw [List.count_append, List.count_append, Multiset.count_cons, ← inductionHypothesis]
      by_cases same : acquired = resource
      · subst same
        simp
        omega
      · simp [same, Ne.symm same]
  | @release _ _ released _ inductionHypothesis =>
      rw [List.count_append, List.count_append, ← inductionHypothesis, Multiset.count_cons]
      by_cases same : released = resource
      · subst same
        simp
        omega
      · simp [same, Ne.symm same]

/-- A ledger that ends with nothing held is settled. -/
theorem Holds.settled {ledger : List (Entry Resource)} (holds : Holds ledger 0) :
    Settled ledger where
  balanced := fun resource => by simpa using holds.count resource
  never_early := by
    rintro before after rfl resource
    obtain ⟨earlier, holdsEarlier⟩ := holds.of_append
    exact Nat.le.intro (holdsEarlier.count resource)

end Counting

end Custody
