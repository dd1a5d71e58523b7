import Mathlib.Data.List.Induction

/-!
# Labelled transition systems and their runs

A system is a set of initial states and a labelled step relation.  Runs carry
the list of labels they emit, so that an invariant may speak about the whole
history of a run and not only about the state it has reached.
-/

namespace Transition

universe u v

/-- Initial states and labelled steps. -/
structure System (State : Type u) (Label : Type v) where
  initial : State → Prop
  step : State → Label → State → Prop

namespace System

variable {State : Type u} {Label : Type v}

/-- A finite sequence of steps between two states, with its labels in order. -/
inductive Path (system : System State Label) : State → List Label → State → Prop where
  | refl (state : State) : Path system state [] state
  | snoc {first middle last : State} {labels : List Label} {label : Label} :
      Path system first labels middle → system.step middle label last →
      Path system first (labels ++ [label]) last

/-- A path that starts in an initial state. -/
def Run (system : System State Label) (labels : List Label) (state : State) : Prop :=
  ∃ start, system.initial start ∧ system.Path start labels state

/-- States at the end of some run. -/
def Reachable (system : System State Label) (state : State) : Prop :=
  ∃ labels, system.Run labels state

variable {system : System State Label}

theorem Path.single {first last : State} {label : Label}
    (taken : system.step first label last) : system.Path first [label] last := by
  simpa using Path.snoc (.refl first) taken

theorem Path.trans {first middle last : State} {before after : List Label}
    (left : system.Path first before middle) (right : system.Path middle after last) :
    system.Path first (before ++ after) last := by
  induction right with
  | refl => simpa using left
  | snoc _ taken inductionHypothesis =>
      rw [← List.append_assoc]
      exact .snoc inductionHypothesis taken

theorem Path.cons {first middle last : State} {label : Label} {labels : List Label}
    (taken : system.step first label middle) (path : system.Path middle labels last) :
    system.Path first (label :: labels) last := by
  simpa using (Path.single taken).trans path

/-- The system can emit these labels from this state and then satisfies `post`. -/
def Admits (system : System State Label) (first : State) (labels : List Label)
    (post : State → Prop) : Prop :=
  ∃ last, system.Path first labels last ∧ post last

theorem Admits.nil {state : State} {post : State → Prop} (held : post state) :
    system.Admits state [] post := ⟨state, .refl state, held⟩

theorem Admits.cons {first middle : State} {label : Label} {labels : List Label}
    {post : State → Prop} (taken : system.step first label middle)
    (admits : system.Admits middle labels post) : system.Admits first (label :: labels) post :=
  admits.imp fun _ ⟨path, held⟩ => ⟨Path.cons taken path, held⟩

theorem Admits.mono {first : State} {labels : List Label} {post post' : State → Prop}
    (weaker : ∀ state, post state → post' state) (admits : system.Admits first labels post) :
    system.Admits first labels post' :=
  admits.imp fun _ => And.imp_right (weaker _)

theorem Admits.run {start : State} {labels : List Label} {post : State → Prop}
    (admits : system.Admits start labels post) (isInitial : system.initial start) :
    ∃ state, system.Run labels state ∧ post state :=
  admits.imp fun _ ⟨path, held⟩ => ⟨⟨start, isInitial, path⟩, held⟩

/-- A path over concatenated labels passes through a state between the parts. -/
theorem Path.split {first last : State} {before after : List Label}
    (path : system.Path first (before ++ after) last) :
    ∃ middle, system.Path first before middle ∧ system.Path middle after last := by
  induction after using List.reverseRecOn generalizing last with
  | nil => exact ⟨last, by simpa using path, .refl last⟩
  | append_singleton after label inductionHypothesis =>
      rw [← List.append_assoc] at path
      generalize equality : before ++ after ++ [label] = labels at path
      cases path with
      | refl => simp at equality
      | @snoc middle _ labels' label' initialPath taken =>
          obtain ⟨sameInit, sameLast⟩ := List.append_inj' equality rfl
          subst sameInit
          cases sameLast
          obtain ⟨between, left, right⟩ := inductionHypothesis initialPath
          exact ⟨between, left, .snoc right taken⟩

theorem Path.eq_of_nil {first last : State} (path : system.Path first [] last) :
    first = last := by
  generalize equality : ([] : List Label) = labels at path
  cases path with
  | refl => rfl
  | snoc => simp at equality

theorem Path.step_of_singleton {first last : State} {label : Label}
    (path : system.Path first [label] last) : system.step first label last := by
  generalize equality : [label] = labels at path
  cases path with
  | refl => simp at equality
  | @snoc middle _ labels' label' before taken =>
      have whole : [] ++ [label] = labels' ++ [label'] := equality
      obtain ⟨noLabels, sameLast⟩ := List.append_inj' whole rfl
      subst noLabels
      cases sameLast
      rw [before.eq_of_nil]
      exact taken

theorem Path.uncons {first last : State} {label : Label} {labels : List Label}
    (path : system.Path first (label :: labels) last) :
    ∃ middle, system.step first label middle ∧ system.Path middle labels last := by
  rw [← List.singleton_append] at path
  obtain ⟨middle, single, rest⟩ := path.split
  exact ⟨middle, single.step_of_singleton, rest⟩

theorem Run.start {state : State} (isInitial : system.initial state) :
    system.Run [] state := ⟨state, isInitial, .refl state⟩

theorem Run.snoc {labels : List Label} {label : Label} {state next : State}
    (run : system.Run labels state) (taken : system.step state label next) :
    system.Run (labels ++ [label]) next := by
  obtain ⟨start, isInitial, path⟩ := run
  exact ⟨start, isInitial, path.snoc taken⟩

theorem Run.extend {labels more : List Label} {state next : State}
    (run : system.Run labels state) (path : system.Path state more next) :
    system.Run (labels ++ more) next := by
  obtain ⟨start, isInitial, before⟩ := run
  exact ⟨start, isInitial, before.trans path⟩

/-- Every run splits at every point of its history. -/
theorem Run.split {before after : List Label} {state : State}
    (run : system.Run (before ++ after) state) :
    ∃ middle, system.Run before middle ∧ system.Path middle after state := by
  obtain ⟨start, isInitial, path⟩ := run
  obtain ⟨middle, left, right⟩ := path.split
  exact ⟨middle, ⟨start, isInitial, left⟩, right⟩

/-- The step a run takes at one point of its history. -/
theorem Run.step_at {before after : List Label} {label : Label} {state : State}
    (run : system.Run (before ++ label :: after) state) :
    ∃ middle next, system.Run before middle ∧ system.step middle label next ∧
      system.Path next after state := by
  rw [← List.singleton_append] at run
  obtain ⟨middle, left, right⟩ := run.split
  obtain ⟨next, single, rest⟩ := right.split
  exact ⟨middle, next, left, single.step_of_singleton, rest⟩

/-- The invariant rule along a path: what every step preserves holds at the
end when it holds at the beginning. -/
theorem Path.invariant {holds : List Label → State → Prop}
    {history labels : List Label} {first last : State}
    (path : system.Path first labels last) (atStart : holds history first)
    (preserved : ∀ (history : List Label) (state : State) (label : Label) (next : State),
      holds history state → system.step state label next →
      holds (history ++ [label]) next) :
    holds (history ++ labels) last := by
  induction path with
  | refl => simpa using atStart
  | snoc _ taken inductionHypothesis =>
      rw [← List.append_assoc]
      exact preserved _ _ _ _ inductionHypothesis taken

/-- The invariant rule over runs.  The property may mention the history. -/
theorem Run.invariant {holds : List Label → State → Prop}
    (atStart : ∀ state, system.initial state → holds [] state)
    (preserved : ∀ (history : List Label) (state : State) (label : Label) (next : State),
      holds history state → system.step state label next →
      holds (history ++ [label]) next)
    {labels : List Label} {state : State} (run : system.Run labels state) :
    holds labels state := by
  obtain ⟨start, isInitial, path⟩ := run
  simpa using path.invariant (atStart start isInitial) preserved

/-- A run passes through a state between two parts of its history. -/
structure Passes (system : System State Label) (before : List Label) (state : State)
    (after : List Label) (last : State) : Prop where
  reached : system.Run before state
  continues : system.Path state after last

/-- The state before a step of a run that passes through the state behind it. -/
theorem Passes.before_last {before after : List Label} {label : Label} {state last : State}
    (passes : system.Passes (before ++ [label]) state after last) :
    ∃ earlier, system.Passes before earlier (label :: after) last ∧
      system.step earlier label state := by
  obtain ⟨earlier, next, reached, taken, path⟩ := passes.reached.step_at
  have same : next = state := path.eq_of_nil
  subst same
  exact ⟨earlier, ⟨reached, .cons taken passes.continues⟩, taken⟩

/-- The state behind the next step of a run. -/
theorem Passes.next {before after : List Label} {label : Label} {state last : State}
    (passes : system.Passes before state (label :: after) last) :
    ∃ next, system.step state label next ∧ system.Passes (before ++ [label]) next after last := by
  obtain ⟨next, taken, rest⟩ := passes.continues.uncons
  exact ⟨next, taken, passes.reached.snoc taken, rest⟩

/-- Where a step keeps a property exactly under a condition, a run has the
property throughout exactly if all its steps meet the condition. -/
theorem Run.always_iff {holds : State → Prop} {keeps : State → Label → Prop}
    (atStart : ∀ state, system.initial state → holds state)
    (exact : ∀ {labels : List Label} {state next : State} {label : Label},
      system.Run labels state → system.step state label next → holds state →
        (holds next ↔ keeps state label))
    {labels : List Label} {last : State} :
    (∀ before state after, labels = before ++ after →
        system.Passes before state after last → holds state) ↔
      ∀ before state label after, labels = before ++ label :: after →
        system.Passes before state (label :: after) last → keeps state label := by
  constructor
  · intro throughout before state label after split passes
    obtain ⟨next, taken, passesNext⟩ := passes.next
    refine (exact passes.reached taken (throughout before state _ split passes)).mp ?_
    exact throughout (before ++ [label]) next after (by simp [split]) passesNext
  · intro kept before
    induction before using List.reverseRecOn with
    | nil =>
        intro state after _ passes
        obtain ⟨start, isInitial, path⟩ := passes.reached
        rw [← path.eq_of_nil]
        exact atStart start isInitial
    | append_singleton before label inductionHypothesis =>
        intro state after split passes
        obtain ⟨earlier, passesEarlier, taken⟩ := passes.before_last
        have splitEarlier : labels = before ++ label :: after := by simp [split]
        have held := inductionHypothesis earlier (label :: after) splitEarlier passesEarlier
        exact (exact passesEarlier.reached taken held).mpr
          (kept before earlier label after splitEarlier passesEarlier)

/-- The system that takes only some of its steps. -/
def restrict (system : System State Label) (allowed : State → Label → Prop) :
    System State Label where
  initial := system.initial
  step := fun state label next => system.step state label next ∧ allowed state label

theorem Path.of_restrict {allowed : State → Label → Prop} {first last : State}
    {labels : List Label} (path : (system.restrict allowed).Path first labels last) :
    system.Path first labels last := by
  induction path with
  | refl => exact .refl _
  | snoc _ taken inductionHypothesis => exact .snoc inductionHypothesis taken.1

theorem Run.of_restrict {allowed : State → Label → Prop} {labels : List Label} {state : State}
    (run : (system.restrict allowed).Run labels state) : system.Run labels state := by
  obtain ⟨start, isInitial, path⟩ := run
  exact ⟨start, isInitial, path.of_restrict⟩

end System

end Transition
