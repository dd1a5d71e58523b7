import Mathlib.Logic.Relation
import Mathlib.Order.Lattice

/-!
# Going forward step by step

A partial function that only goes forward leads from a point to a chain of later
ones.  A loop that takes its steps until it has come far enough finds the first
point of the chain that is at or past its goal.
-/

namespace Forward

variable {Point : Type*} {next : Point → Option Point} {start before after point : Point}

/-- Steps lead from the first point to the second. -/
def Leads (next : Point → Option Point) : Point → Point → Prop :=
  Relation.ReflTransGen fun before after => next before = some after

theorem Leads.refl : Leads next point point := Relation.ReflTransGen.refl

theorem Leads.head (step : next before = some after) (rest : Leads next after point) :
    Leads next before point :=
  Relation.ReflTransGen.head step rest

/-- What lies behind a point is the point itself or behind the step from it. -/
theorem leads_iff (step : next before = some after) :
    Leads next before point ↔ point = before ∨ Leads next after point := by
  constructor
  · intro leads
    rcases Relation.ReflTransGen.cases_head leads with rfl | ⟨other, isOther, rest⟩
    · exact Or.inl rfl
    · obtain rfl := Option.some.inj (step.symm.trans isOther)
      exact Or.inr rest
  · rintro (rfl | rest)
    · exact .refl
    · exact .head step rest

/-- Where no step is possible, the chain ends. -/
theorem leads_none (stuck : next before = none) : Leads next before point ↔ point = before := by
  constructor
  · intro leads
    rcases Relation.ReflTransGen.cases_head leads with rfl | ⟨other, isOther, _⟩
    · rfl
    · cases stuck.symm.trans isOther
  · rintro rfl
    exact .refl

variable [LinearOrder Point] {goal stop other : Point}

/-- The first point of the chain that is at or past the goal. -/
structure First (next : Point → Option Point) (goal start stop : Point) : Prop where
  reached : Leads next start stop
  past : goal ≤ stop
  least : ∀ point, Leads next start point → goal ≤ point → stop ≤ point

theorem First.unique (one : First next goal start stop) (another : First next goal start other) :
    stop = other :=
  le_antisymm (one.least _ another.reached another.past)
    (another.least _ one.reached one.past)

section Steps

variable (forward : ∀ before after, next before = some after → before < after)

include forward

theorem Leads.le (leads : Leads next before after) : before ≤ after := by
  induction leads with
  | refl => exact le_rfl
  | tail _ step inductionHypothesis => exact inductionHypothesis.trans (forward _ _ step).le

theorem First.here (enough : goal ≤ start) : First next goal start start where
  reached := .refl
  past := enough
  least := fun _ leads _ => leads.le forward

theorem first_iff_eq (enough : goal ≤ start) : First next goal start stop ↔ stop = start := by
  constructor
  · exact fun first => first.unique (First.here forward enough)
  · rintro rfl
    exact First.here forward enough

omit forward in
/-- In front of the goal, the first point is that behind the next step. -/
theorem first_step (short : start < goal) (step : next start = some point) :
    First next goal start stop ↔ First next goal point stop := by
  have behind : ∀ {far}, goal ≤ far → (Leads next start far ↔ Leads next point far) := by
    intro far isFar
    rw [leads_iff step]
    exact or_iff_right (short.trans_le isFar).ne'
  constructor
  · intro first
    refine ⟨(behind first.past).mp first.reached, first.past, fun far leads isFar => ?_⟩
    exact first.least far ((behind isFar).mpr leads) isFar
  · intro first
    refine ⟨(behind first.past).mpr first.reached, first.past, fun far leads isFar => ?_⟩
    exact first.least far ((behind isFar).mp leads) isFar

omit forward in
theorem not_first (short : start < goal) (stuck : next start = none) :
    ¬First next goal start stop := by
  intro first
  have same := (leads_none stuck).mp first.reached
  exact (short.trans_le first.past).ne same.symm

/-- The last step before the goal starts in front of it. -/
theorem First.last (first : First next goal start stop) (short : start < goal) :
    ∃ point < goal, Leads next start point ∧ next point = some stop := by
  rcases Relation.ReflTransGen.cases_tail first.reached with same | ⟨point, leads, step⟩
  · exact absurd first.past (same ▸ short).not_ge
  · refine ⟨point, lt_of_not_ge fun far => ?_, leads, step⟩
    exact absurd (first.least point leads far) (forward _ _ step).not_ge

end Steps

end Forward
