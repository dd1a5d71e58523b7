import Mathlib.Data.List.Nodup

/-!
# Following references

A node that is looked up holds a result, refers to another node, is not there
yet, or is refused.  `pursue` follows the references for a bounded number of
lookups and remembers the keys of the nodes it has seen; `Trail` is the way it
takes.
-/

namespace Pursuit

universe u v w

inductive Answer (Node : Type u) (Result : Type v) where
  | final (result : Result)
  | forward (node : Node)
  | absent
  | refused

inductive Outcome (Result : Type v) where
  | found (result : Result)
  | absent
  | refused
  deriving DecidableEq, Repr

variable {Node : Type u} {Result : Type v} {Key : Type w} [DecidableEq Key]

/-- No lookup is left, or the node has been seen, or its answer decides. -/
def pursue (lookup : Node → Answer Node Result) (key : Node → Key) :
    Nat → Node → List Key → Outcome Result
  | 0, _, _ => .refused
  | remaining + 1, node, visited =>
      if key node ∈ visited then .refused
      else
        match lookup node with
        | .final result => .found result
        | .forward next => pursue lookup key remaining next (key node :: visited)
        | .absent => .absent
        | .refused => .refused

/-- The nodes on the way from one node to another. -/
inductive Trail (lookup : Node → Answer Node Result) : Node → List Node → Node → Prop where
  | here (node : Node) : Trail lookup node [node] node
  | forward {node next last : Node} {nodes : List Node} :
      lookup node = .forward next →
      Trail lookup next nodes last →
      Trail lookup node (node :: nodes) last

/-- A way within a bounded number of lookups on which no key is seen twice. -/
structure Path (lookup : Node → Answer Node Result) (key : Node → Key) (remaining : Nat)
    (visited : List Key) (start : Node) (nodes : List Node) (last : Node) : Prop where
  trail : Trail lookup start nodes last
  short : nodes.length ≤ remaining
  distinct : (nodes.map key).Nodup
  fresh : ∀ node ∈ nodes, key node ∉ visited

/-- Some path comes to a marked node. -/
def Passes (lookup : Node → Answer Node Result) (key : Node → Key) (remaining : Nat)
    (visited : List Key) (start : Node) (marked : Node → Prop) : Prop :=
  ∃ nodes last, Path lookup key remaining visited start nodes last ∧ marked last

/-- The answer at the end of some path. -/
def Reaches (lookup : Node → Answer Node Result) (key : Node → Key) (remaining : Nat)
    (visited : List Key) (start : Node) (answer : Answer Node Result) : Prop :=
  ∃ nodes last, Path lookup key remaining visited start nodes last ∧ lookup last = answer

/-- A path ends at a reference to a node that would be one lookup too many or
has been seen. -/
def Exhausts (lookup : Node → Answer Node Result) (key : Node → Key) (remaining : Nat)
    (visited : List Key) (start : Node) : Prop :=
  ∃ nodes last next, Path lookup key remaining visited start nodes last ∧
    lookup last = .forward next ∧
    (nodes.length = remaining ∨ key next ∈ visited ∨ key next ∈ nodes.map key)

section Paths

omit [DecidableEq Key]

variable {lookup : Node → Answer Node Result} {key : Node → Key} {remaining : Nat}
  {visited : List Key} {start last : Node} {nodes : List Node} {answer : Answer Node Result}

theorem Trail.ne_nil (trail : Trail lookup start nodes last) : nodes ≠ [] := by
  cases trail <;> exact List.cons_ne_nil _ _

theorem not_path_zero : ¬Path lookup key 0 visited start nodes last := by
  intro path
  exact path.trail.ne_nil (List.eq_nil_of_length_eq_zero (Nat.le_zero.mp path.short))

/-- A path starts with a fresh node and ends there or goes on from its reference. -/
theorem path_succ :
    Path lookup key (remaining + 1) visited start nodes last ↔
      key start ∉ visited ∧
        (nodes = [start] ∧ last = start ∨
          ∃ next rest, nodes = start :: rest ∧ lookup start = .forward next ∧
            Path lookup key remaining (key start :: visited) next rest last) := by
  constructor
  · rintro ⟨trail, short, distinct, fresh⟩
    cases trail with
    | here => exact ⟨fresh _ (List.mem_singleton.mpr rfl), Or.inl ⟨rfl, rfl⟩⟩
    | forward answer rest =>
        rw [List.map_cons, List.nodup_cons] at distinct
        refine ⟨fresh _ List.mem_cons_self, Or.inr ⟨_, _, rfl, answer, rest,
          Nat.le_of_succ_le_succ short, distinct.2, fun node member => ?_⟩⟩
        rw [List.mem_cons, not_or]
        refine ⟨fun same => distinct.1 ?_, fresh node (List.mem_cons_of_mem _ member)⟩
        rw [← same]
        exact List.mem_map_of_mem member
  · rintro ⟨unseen, ⟨rfl, rfl⟩ | ⟨next, rest, rfl, answer, trail, short, distinct, fresh⟩⟩
    · refine ⟨.here _, by simp, by simp, fun node member => ?_⟩
      rwa [List.mem_singleton.mp member]
    · refine ⟨.forward answer trail, Nat.succ_le_succ short, ?_, ?_⟩
      · rw [List.map_cons, List.nodup_cons]
        refine ⟨fun member => ?_, distinct⟩
        obtain ⟨node, inside, same⟩ := List.mem_map.mp member
        exact fresh node inside (same ▸ List.mem_cons_self)
      · intro node member
        rcases List.mem_cons.mp member with rfl | inside
        · exact unseen
        · exact fun seen => fresh node inside (List.mem_cons_of_mem _ seen)

theorem not_passes_zero {marked : Node → Prop} : ¬Passes lookup key 0 visited start marked :=
  fun ⟨_, _, path, _⟩ => not_path_zero path

theorem passes_succ {marked : Node → Prop} :
    Passes lookup key (remaining + 1) visited start marked ↔
      key start ∉ visited ∧
        (marked start ∨ ∃ next, lookup start = .forward next ∧
          Passes lookup key remaining (key start :: visited) next marked) := by
  constructor
  · rintro ⟨nodes, last, path, ending⟩
    obtain ⟨unseen, ⟨_, rfl⟩ | ⟨next, rest, _, reference, path⟩⟩ := path_succ.mp path
    · exact ⟨unseen, Or.inl ending⟩
    · exact ⟨unseen, Or.inr ⟨next, reference, rest, last, path, ending⟩⟩
  · rintro ⟨unseen, ending | ⟨next, reference, rest, last, path, ending⟩⟩
    · exact ⟨_, start, path_succ.mpr ⟨unseen, Or.inl ⟨rfl, rfl⟩⟩, ending⟩
    · exact ⟨_, last, path_succ.mpr ⟨unseen, Or.inr ⟨next, rest, rfl, reference, path⟩⟩, ending⟩

theorem not_reaches_zero : ¬Reaches lookup key 0 visited start answer :=
  not_passes_zero

theorem reaches_succ :
    Reaches lookup key (remaining + 1) visited start answer ↔
      key start ∉ visited ∧
        (lookup start = answer ∨ ∃ next, lookup start = .forward next ∧
          Reaches lookup key remaining (key start :: visited) next answer) :=
  passes_succ

theorem exhausts_succ :
    Exhausts lookup key (remaining + 1) visited start ↔
      key start ∉ visited ∧ ∃ next, lookup start = .forward next ∧
        (remaining = 0 ∨ key next ∈ key start :: visited ∨
          Exhausts lookup key remaining (key start :: visited) next) := by
  constructor
  · rintro ⟨nodes, last, next, path, reference, stops⟩
    obtain ⟨unseen, ⟨rfl, rfl⟩ | ⟨second, rest, rfl, first, path⟩⟩ := path_succ.mp path
    · refine ⟨unseen, next, reference, ?_⟩
      rcases stops with last | seen | repeated
      · exact Or.inl (Nat.succ.inj last).symm
      · exact Or.inr (Or.inl (List.mem_cons_of_mem _ seen))
      · exact Or.inr (Or.inl (by simpa using Or.inl (List.mem_singleton.mp repeated)))
    · refine ⟨unseen, second, first, Or.inr (Or.inr ⟨rest, last, next, path, reference, ?_⟩)⟩
      rcases stops with last | seen | repeated
      · exact Or.inl (Nat.succ.inj last)
      · exact Or.inr (Or.inl (List.mem_cons_of_mem _ seen))
      · rcases List.mem_cons.mp repeated with isStart | behind
        · exact Or.inr (Or.inl (isStart ▸ List.mem_cons_self))
        · exact Or.inr (Or.inr behind)
  · rintro ⟨unseen, next, first, stops⟩
    have single : Path lookup key (remaining + 1) visited start [start] start :=
      path_succ.mpr ⟨unseen, Or.inl ⟨rfl, rfl⟩⟩
    rcases stops with rfl | seen | ⟨rest, last, target, path, reference, stops⟩
    · exact ⟨_, _, next, single, first, Or.inl rfl⟩
    · refine ⟨_, _, next, single, first, Or.inr ?_⟩
      rcases List.mem_cons.mp seen with isStart | seen
      · exact Or.inr (isStart ▸ List.mem_cons_self)
      · exact Or.inl seen
    · refine ⟨_, last, target,
        path_succ.mpr ⟨unseen, Or.inr ⟨next, rest, rfl, first, path⟩⟩, reference, ?_⟩
      rcases stops with long | seen | repeated
      · exact Or.inl (congrArg Nat.succ long)
      · rcases List.mem_cons.mp seen with isStart | seen
        · exact Or.inr (Or.inr (isStart ▸ List.mem_cons_self))
        · exact Or.inr (Or.inl seen)
      · exact Or.inr (Or.inr (List.mem_cons_of_mem _ repeated))

end Paths

/-! ## What `pursue` returns -/

section Results

variable {lookup : Node → Answer Node Result} {key : Node → Key} {remaining : Nat}
  {visited : List Key} {start : Node}

theorem pursue_found_iff {result : Result} :
    pursue lookup key remaining start visited = .found result ↔
      Reaches lookup key remaining visited start (.final result) := by
  induction remaining generalizing start visited with
  | zero => simp [pursue, not_reaches_zero]
  | succ remaining inductionHypothesis =>
      rw [reaches_succ, pursue]
      by_cases seen : key start ∈ visited
      · simp [seen]
      · rw [if_neg seen]
        cases lookup start with
        | forward next => simp [seen, inductionHypothesis]
        | _ => simp [seen]

theorem pursue_absent_iff :
    pursue lookup key remaining start visited = .absent ↔
      Reaches lookup key remaining visited start .absent := by
  induction remaining generalizing start visited with
  | zero => simp [pursue, not_reaches_zero]
  | succ remaining inductionHypothesis =>
      rw [reaches_succ, pursue]
      by_cases seen : key start ∈ visited
      · simp [seen]
      · rw [if_neg seen]
        cases lookup start with
        | forward next => simp [seen, inductionHypothesis]
        | _ => simp [seen]

theorem pursue_refused_iff :
    pursue lookup key remaining start visited = .refused ↔
      remaining = 0 ∨ key start ∈ visited ∨
        Reaches lookup key remaining visited start .refused ∨
        Exhausts lookup key remaining visited start := by
  induction remaining generalizing start visited with
  | zero => simp [pursue]
  | succ remaining inductionHypothesis =>
      rw [reaches_succ, exhausts_succ, pursue]
      by_cases seen : key start ∈ visited
      · simp [seen]
      · rw [if_neg seen]
        cases lookup start with
        | forward next => simp [seen, inductionHypothesis]; tauto
        | _ => simp [seen]

end Results

/-! ## When nodes are withdrawn -/

section Withdrawal

variable {lookup lookup' : Node → Answer Node Result} {key : Node → Key} {remaining : Nat}
  {visited : List Key} {start : Node} {marked : Node → Prop}

/-- A pursuit that comes to no marked node does not see them change. -/
theorem pursue_congr (same : ∀ node, ¬marked node → lookup' node = lookup node)
    (avoids : ¬Passes lookup key remaining visited start marked) :
    pursue lookup' key remaining start visited = pursue lookup key remaining start visited := by
  induction remaining generalizing start visited with
  | zero => rfl
  | succ remaining inductionHypothesis =>
      rw [passes_succ, not_and, not_or, not_exists] at avoids
      rw [pursue, pursue]
      split_ifs with seen
      · rfl
      · obtain ⟨unmarked, behind⟩ := avoids seen
        rw [same start unmarked]
        cases reference : lookup start with
        | forward next => exact inductionHypothesis fun passes => behind next ⟨reference, passes⟩
        | _ => rfl

/-- A pursuit that comes to a node that is withdrawn ends there. -/
theorem pursue_withdrawn (same : ∀ node, ¬marked node → lookup' node = lookup node)
    (withdrawn : ∀ node, marked node → lookup' node = .absent)
    (passes : Passes lookup key remaining visited start marked) :
    pursue lookup' key remaining start visited = .absent := by
  induction remaining generalizing start visited with
  | zero => exact absurd passes not_passes_zero
  | succ remaining inductionHypothesis =>
      obtain ⟨unseen, behind⟩ := passes_succ.mp passes
      rw [pursue, if_neg unseen]
      by_cases isMarked : marked start
      · rw [withdrawn start isMarked]
      · obtain ⟨next, reference, passes⟩ := behind.resolve_left isMarked
        rw [same start isMarked, reference]
        exact inductionHypothesis passes

end Withdrawal

end Pursuit
