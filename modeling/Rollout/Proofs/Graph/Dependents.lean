import Mathlib.Algebra.BigOperators.Group.List.Basic
import Mathlib.Data.List.Nodup
import Mathlib.Tactic.Linarith
import Rollout.Graph.Release
import Rollout.Proofs.Graph.Reachability

/-!
The edges that a release of nodes looks at, in both directions, and what becomes of the nodes that
depend on one that is released.
-/

namespace Rollout.Release

open Relation Adjacency

variable {graph : Adjacency} {keep : Nat → Bool}

-----------------------------------------------------------------------------------------
-- Restricted and reversed edges
-----------------------------------------------------------------------------------------

@[simp] theorem size_restrict (graph : Adjacency) (keep : Nat → Bool)
    : (restrict graph keep).size = graph.size := by
  simp [restrict]

theorem targets_restrict {node : Nat}
    : (restrict graph keep).targets node
      = if keep node then (graph.targets node).filter keep else [] := by
  by_cases inside : node < graph.size
  · simp [targets, restrict, inside]
  · simp [targets, restrict, inside]

/-- The restricted edges are those between two nodes that pass. -/
theorem edge_restrict {source target : Nat}
    : (restrict graph keep).Edge source target
      ↔ keep source = true ∧ keep target = true ∧ graph.Edge source target := by
  by_cases inside : source < graph.size
  · by_cases passes : keep source = true <;>
      simp [Edge, targets, restrict, inside, passes, and_comm]
  · have none : ¬graph.Edge source target := fun edge => inside edge.source_lt
    simp [Edge, targets, restrict, inside] at none ⊢

theorem targets_modify {reversed : Adjacency} {node other : Nat} {f : List Nat → List Nat}
    (inside : other < reversed.size)
    : Adjacency.targets (reversed.modify node f) other
      = if node = other then f (reversed.targets other) else reversed.targets other := by
  by_cases same : node = other <;> simp [targets, Array.getElem_modify, same, inside]

/-- Turning the edges of one source around, by induction on its targets. -/
theorem targets_reverseOne (source : Nat) (ends : List Nat) (reversed : Adjacency) {target : Nat}
    (inside : target < reversed.size)
    : let next :=
        ends.foldl (fun reversed target => reversed.modify target (· ++ [source])) reversed
      next.size = reversed.size
      ∧ Adjacency.targets next target
        = reversed.targets target ++ List.replicate (ends.count target) source := by
  induction ends generalizing reversed with
  | nil => simp
  | cons head rest ih =>
      obtain ⟨size, listed⟩ := ih (reversed.modify head (· ++ [source])) (by simpa using inside)
      refine ⟨by simpa using size, ?_⟩
      rw [List.foldl_cons, listed, targets_modify inside]
      by_cases same : head = target
      · subst same
        simp [List.replicate_succ]
      · simp [same]

/-- Turning the edges of several sources around, by induction on the sources. -/
theorem targets_reverseAll (sources : List Nat) (reversed : Adjacency) {target : Nat}
    (inside : target < reversed.size)
    : Adjacency.targets
        (sources.foldl (fun reversed source =>
          (graph.targets source).foldl (fun reversed target =>
            reversed.modify target (· ++ [source])) reversed) reversed)
        target
      = reversed.targets target
        ++ sources.flatMap fun source =>
            List.replicate ((graph.targets source).count target) source := by
  induction sources generalizing reversed with
  | nil => simp
  | cons source rest ih =>
      obtain ⟨size, listed⟩ := targets_reverseOne source (graph.targets source) reversed inside
      rw [List.foldl_cons, ih _ (size ▸ inside), listed, List.append_assoc, List.flatMap_cons]

@[simp] theorem size_reverse (graph : Adjacency) : (reverse graph).size = graph.size := by
  have unchanged (ends : List Nat) (source : Nat) (reversed : Adjacency)
      : (ends.foldl (fun reversed target => reversed.modify target (· ++ [source]))
          reversed).size
        = reversed.size := by
    induction ends generalizing reversed with
    | nil => rfl
    | cons head rest ih => rw [List.foldl_cons, ih, Array.size_modify]
  have allUnchanged (sources : List Nat) (reversed : Adjacency)
      : (sources.foldl (fun reversed source => (graph.targets source).foldl
          (fun reversed target => reversed.modify target (· ++ [source])) reversed) reversed).size
        = reversed.size := by
    induction sources generalizing reversed with
    | nil => rfl
    | cons source rest ih => rw [List.foldl_cons, ih, unchanged]
  rw [reverse, allUnchanged, Array.size_replicate]

/-- Different sources repeated so many times each are counted apart, by induction on the sources. -/
theorem count_flatMap_replicate (times : Nat → Nat) {sources : List Nat} (unique : sources.Nodup)
    (node : Nat)
    : (sources.flatMap fun source => List.replicate (times source) source).count node
      = if node ∈ sources then times node else 0 := by
  induction sources with
  | nil => simp
  | cons source rest ih =>
      obtain ⟨absent, uniqueRest⟩ := List.nodup_cons.mp unique
      rw [List.flatMap_cons, List.count_append, ih uniqueRest, List.count_replicate]
      by_cases same : source = node
      · subst same
        simp [absent]
      · simp [same, Ne.symm same]

/-- A node stands as often among the dependents of another as that one among its targets. -/
theorem count_reverse {source target : Nat} (inside : target < graph.size)
    : ((reverse graph).targets target).count source = (graph.targets source).count target := by
  have start : Adjacency.targets (Array.replicate graph.size []) target = [] := by
    simp [targets, inside]
  rw [reverse, targets_reverseAll _ _ (by simpa using inside), start, List.nil_append,
    count_flatMap_replicate (fun source => (graph.targets source).count target) List.nodup_range]
  by_cases known : source < graph.size
  · simp [known]
  · simp [known, targets]

-----------------------------------------------------------------------------------------
-- Telling dependents
-----------------------------------------------------------------------------------------

theorem mem_insertReady {node other : Nat} {ready : List Nat}
    : other ∈ insertReady node ready ↔ other = node ∨ other ∈ ready := by
  induction ready with
  | nil => simp [insertReady]
  | cons head rest ih =>
      unfold insertReady
      split
      · simp
      · split
        next same => subst same; simp
        next => rw [List.mem_cons, ih, List.mem_cons]; tauto

theorem insertReady_ascending {node : Nat} {ready : List Nat} (ascending : ready.Pairwise (· < ·))
    : (insertReady node ready).Pairwise (· < ·) := by
  induction ready with
  | nil => simp [insertReady]
  | cons head rest ih =>
      obtain ⟨above, below⟩ := List.pairwise_cons.mp ascending
      unfold insertReady
      split
      next less =>
        refine List.pairwise_cons.mpr ⟨fun other member => ?_, ascending⟩
        rcases List.mem_cons.mp member with rfl | member
        · exact less
        · exact Nat.lt_trans less (above other member)
      next notLess =>
        split
        next => exact ascending
        next different =>
          refine List.pairwise_cons.mpr ⟨fun other member => ?_, ih below⟩
          rcases mem_insertReady.mp member with rfl | member
          · omega
          · exact above other member

namespace State

variable {s : State}

/-- How many dependencies a node is still waiting for. -/
def left (s : State) (node : Nat) : Nat :=
  s.waiting[node]?.getD 0

end State

theorem left_notify {s : State} {node other : Nat}
    : (notify s node).left other = s.left other - if node = other then 1 else 0 := by
  by_cases inside : other < s.waiting.size
  · by_cases same : node = other
    · subst same
      simp [notify, State.left, inside]
    · simp [notify, State.left, same]
  · simp [notify, State.left, inside]

/-- Who is told waits for as many fewer as before, so the others may be told as often as they wait.
-/
theorem count_le_left_notify {s : State} {head : Nat} {rest : List Nat}
    (waits : ∀ node, (head :: rest).count node ≤ s.left node) (node : Nat)
    : rest.count node ≤ (notify s head).left node := by
  have given := waits node
  rw [List.count_cons] at given
  rw [left_notify]
  by_cases same : head = node <;> simp only [same, beq_iff_eq, if_true, if_false] at given ⊢ <;>
    omega

theorem ready_notify {s : State} {node : Nat}
    : (notify s node).ready
      = if s.left node - 1 = 0 then insertReady node s.ready else s.ready :=
  rfl

theorem mem_ready_notify {s : State} {node other : Nat}
    : other ∈ (notify s node).ready
      ↔ other ∈ s.ready ∨ (other = node ∧ s.left node - 1 = 0) := by
  rw [ready_notify]
  split
  next zero => rw [mem_insertReady]; tauto
  next more => tauto

theorem ready_notify_ascending {s : State} {node : Nat} (ascending : s.ready.Pairwise (· < ·))
    : (notify s node).ready.Pairwise (· < ·) := by
  rw [ready_notify]
  split
  · exact insertReady_ascending ascending
  · exact ascending

/-- Telling dependents takes one off their counters each time, and makes those ready that wait for
nothing more; by induction on the dependents.
-/
theorem notifyAll_spec (dependents : List Nat) (s : State)
    : let next := dependents.foldl notify s
      next.order = s.order
      ∧ (∀ node, next.left node = s.left node - dependents.count node)
      ∧ (∀ node, node ∈ next.ready
          ↔ node ∈ s.ready ∨ (node ∈ dependents ∧ s.left node - dependents.count node = 0))
      ∧ (s.ready.Pairwise (· < ·) → next.ready.Pairwise (· < ·)) := by
  induction dependents generalizing s with
  | nil => simp
  | cons head rest ih =>
      obtain ⟨order, left, ready, ascending⟩ := ih (notify s head)
      refine ⟨order, ?_, ?_, fun before => ascending (ready_notify_ascending before)⟩
      · intro node
        rw [List.foldl_cons, left, left_notify, List.count_cons]
        by_cases same : head = node <;> simp only [same, beq_iff_eq, if_true, if_false] <;> omega
      · intro node
        rw [List.foldl_cons, ready, mem_ready_notify, left_notify, List.count_cons, List.mem_cons]
        by_cases same : node = head
        · subst node
          have once : (s.left head - 1 = 0
                ∨ (head ∈ rest ∧ s.left head - 1 - rest.count head = 0))
              ↔ s.left head - (rest.count head + 1) = 0 := by
            by_cases again : head ∈ rest
            · simp only [again, true_and]
              omega
            · simp only [again, false_and, or_false, List.count_eq_zero.mpr again]
          simpa [or_assoc] using or_congr_right once
        · simp [same, Ne.symm same]

end Rollout.Release
