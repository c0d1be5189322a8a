import Rollout.Proofs.Graph.Components

/-!
The condensation of a graph: its components with the edges between them. A search for components
comes to an end, and the order in which it completes them is one in which every edge between two
components leads back to the earlier one.
-/

namespace Rollout

open Adjacency

namespace Components

-----------------------------------------------------------------------------------------
-- The end of a search
-----------------------------------------------------------------------------------------

namespace Search

variable {graph : Adjacency} {s : Search}

theorem Ended.step (ended : s.Ended) : s.step graph = s := by
  unfold Search.step
  rw [ended.1, ended.2]

/-- A search that is over stays as it is, by induction on the further steps. -/
theorem after_add {steps : Nat} (ended : (after graph steps).Ended) (further : Nat)
    : after graph (steps + further) = after graph steps := by
  induction further with
  | zero => rfl
  | succ further ih =>
      calc after graph (steps + further + 1)
          = (after graph (steps + further)).step graph := rfl
        _ = after graph steps := by rw [ih, ended.step]

/-- However many steps a search takes, it has found the same when it is over. -/
theorem found_of_ended (graphClosed : graph.Closed) {steps : Nat}
    (ended : (after graph steps).Ended)
    : (after graph steps).found.reverse = find graph := by
  have same : after graph steps = after graph (stepCount graph) := by
    rw [← after_add ended (stepCount graph), Nat.add_comm, after_add (ended_after graphClosed)]
  rw [same]
  rfl

end Search

-----------------------------------------------------------------------------------------
-- The order of the components
-----------------------------------------------------------------------------------------

variable {graph : Adjacency} {found earlier : List (List Nat)} {component : List Nat}

theorem Condensed.nonempty (condensed : Condensed graph found) (member : component ∈ found)
    : component ≠ [] := by
  induction condensed with
  | nil => cases member
  | cons nonempty _ _ _ ih =>
      rcases List.mem_cons.mp member with rfl | member
      · exact nonempty
      · exact ih member

/-- What was found before a component is condensed too, by induction on what was found after it. -/
theorem Condensed.of_append (later : List (List Nat))
    (condensed : Condensed graph (later ++ component :: earlier))
    : Condensed graph (component :: earlier) := by
  induction later with
  | nil => exact condensed
  | cons _ later ih =>
      cases condensed with
      | cons _ _ _ rest => exact ih rest

/-- An edge out of a component leads to one that was completed before it. -/
theorem mem_before_of_edge (graphClosed : graph.Closed) {before after : List (List Nat)}
    (cut : find graph = before ++ component :: after) {source target : Nat}
    (inside : source ∈ component) (edge : graph.Edge source target)
    : target ∈ component ∨ target ∈ before.flatten := by
  obtain ⟨found, same, condensed, _⟩ := find_eq graphClosed
  have latestFirst : found = after.reverse ++ component :: before.reverse := by
    rw [← List.reverse_reverse found, ← same, cut]
    simp
  rw [latestFirst] at condensed
  cases condensed.of_append with
  | cons _ _ closed _ =>
      refine (closed source inside target edge).imp_right fun member => ?_
      simpa using member

/-- The components together name every node once. -/
theorem flatten_find_perm (graphClosed : graph.Closed)
    : (find graph).flatten.Perm (List.range graph.size) := by
  obtain ⟨found, same, _, unique, complete⟩ := find_eq graphClosed
  have shuffled : (find graph).flatten.Perm found.flatten := by
    rw [same]
    exact (List.reverse_perm found).flatten
  refine shuffled.trans ((List.perm_ext_iff_of_nodup unique List.nodup_range).mpr fun node => ?_)
  rw [complete, List.mem_range]

/-- The search for components ends, after no more than a step for each edge and two for each node,
and once it is over there is nothing more to find. Its components are not empty and together name
every node once. Two nodes are in one component exactly if they lead to each other, and an edge from
one component to another leads to one that was completed before.
-/
theorem find_condenses (graphClosed : graph.Closed)
    : (Search.after graph (stepCount graph)).Ended
      ∧ (∀ steps, (Search.after graph steps).Ended →
          (Search.after graph steps).found.reverse = find graph)
      ∧ (∀ component ∈ find graph, component ≠ [])
      ∧ (find graph).flatten.Perm (List.range graph.size)
      ∧ (∀ a < graph.size, ∀ b,
          (∃ component ∈ find graph, a ∈ component ∧ b ∈ component) ↔ Mutual graph.Edge a b)
      ∧ ∀ before component after,
          find graph = before ++ component :: after →
            ∀ source ∈ component, ∀ target, graph.Edge source target →
              target ∈ component ∨ ∃ earlier ∈ before, target ∈ earlier := by
  refine ⟨Search.ended_after graphClosed, fun steps => Search.found_of_ended graphClosed, ?nonempty,
    flatten_find_perm graphClosed, ?classes, ?ordered⟩
  case nonempty =>
    obtain ⟨found, same, condensed, _⟩ := find_eq graphClosed
    intro component member
    rw [same, List.mem_reverse] at member
    exact condensed.nonempty member
  case classes =>
    intro a inside b
    constructor
    · rintro ⟨component, member, insideA, insideB⟩
      exact (mem_find_iff_mutual graphClosed member insideA).mp insideB
    · intro joined
      obtain ⟨component, member, insideA⟩ := (exists_mem_find_iff graphClosed).mpr inside
      exact ⟨component, member, insideA,
        (mem_find_iff_mutual graphClosed member insideA).mpr joined⟩
  case ordered =>
    intro before component after cut source inside target edge
    rw [← List.mem_flatten]
    exact mem_before_of_edge graphClosed cut inside edge

end Components

namespace Adjacency

instance (graph : Adjacency) : Decidable graph.Closed :=
  decidable_of_iff (∀ source < graph.size, ∀ target ∈ graph.targets source, target < graph.size)
    ⟨fun closed source target edge => closed source edge.source_lt target edge,
      fun closed source _ target edge => closed source target edge⟩

end Adjacency

namespace Components

/-- Two cycles that share the node `2`, a loop on `3` that leads to them, and the node `4` that two
edges lead to from its own place and from a cycle.
-/
def bridges : Adjacency :=
  #[[1], [0, 2], [1, 4], [3, 0, 3], [4]]

/-- What the cycles lead to is completed before them, and they before what leads to them. -/
theorem find_condenses_bridges
    : bridges.Closed
      ∧ find bridges = [[4], [2, 1, 0], [3]]
      ∧ Mutual bridges.Edge 0 2
      ∧ ∀ target, bridges.Edge 2 target →
          target ∈ [2, 1, 0] ∨ ∃ earlier ∈ [[4]], target ∈ earlier := by
  have closed : bridges.Closed := by decide +kernel
  have found : find bridges = [[4], [2, 1, 0], [3]] := by decide +kernel
  obtain ⟨_, _, _, _, classes, ordered⟩ := find_condenses closed
  refine ⟨closed, found, (classes 0 (by decide) 2).mp ?_, ordered [[4]] _ [[3]] found 2 (by simp)⟩
  rw [found]
  exact ⟨[2, 1, 0], by simp, by simp, by simp⟩

end Components

end Rollout
