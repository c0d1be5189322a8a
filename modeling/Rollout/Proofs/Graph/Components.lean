import Rollout.Graph.Basic
import Rollout.Proofs.Graph.Termination
import Rollout.Proofs.SortedMap

/-!
What a component search finds: every node in exactly one component, and with it exactly the nodes
that it leads to and that lead to it. The components that count as cycles are those of the nodes on
cycles.
-/

namespace Rollout

open Relation Adjacency

namespace Components

/-- A node that lies on cycles with a member of a component is a member too. It cannot be in an
earlier component, since no path leads back out of those.
-/
theorem Condensed.maximal {graph : Adjacency} {found : List (List Nat)}
    (condensed : Condensed graph found) (unique : found.flatten.Nodup)
    {component : List Nat} (member : component ∈ found) {a b : Nat} (inside : a ∈ component)
    (joined : Mutual graph.Edge a b)
    : b ∈ component := by
  induction condensed with
  | nil => cases member
  | @cons latest earlier nonempty joinedLatest closed rest ih =>
      rw [List.flatten_cons, List.nodup_append] at unique
      obtain ⟨_, uniqueEarlier, separate⟩ := unique
      rcases List.mem_cons.mp member with rfl | member
      · have reached : b ∈ component ∨ b ∈ earlier.flatten := by
          have kept : ∀ source target, source ∈ component ∨ source ∈ earlier.flatten →
              graph.Edge source target → target ∈ component ∨ target ∈ earlier.flatten := by
            intro source target inside edge
            rcases inside with here | before
            · exact closed source here target edge
            · exact .inr (rest.closed source target before edge)
          exact reflTransGen_of_closed kept (.inl inside) joined.1
        apply reached.resolve_right
        intro before
        have back := reflTransGen_of_closed rest.closed before joined.2
        exact separate a inside a back rfl
      · exact ih uniqueEarlier member

/-- The members of a component lead to one another, by induction on the components. -/
theorem Condensed.joined {graph : Adjacency} {found : List (List Nat)}
    (condensed : Condensed graph found) {component : List Nat} (member : component ∈ found)
    {a b : Nat} (insideA : a ∈ component) (insideB : b ∈ component)
    : Mutual graph.Edge a b := by
  induction condensed with
  | nil => cases member
  | cons nonempty joined closed rest ih =>
      rcases List.mem_cons.mp member with rfl | member
      · exact joined a insideA b insideB
      · exact ih member

/-- What a search has found when it ends, latest first. -/
theorem find_eq {graph : Adjacency} (graphClosed : graph.Closed)
    : ∃ found, find graph = found.reverse ∧ Condensed graph found ∧ found.flatten.Nodup
        ∧ ∀ node, node ∈ found.flatten ↔ node < graph.size := by
  obtain ⟨sound, _⟩ := Search.run_sound graphClosed (stepCount graph)
  exact ⟨_, rfl, sound.recorded.condensed, sound.recorded.unique,
    sound.complete (Search.ended_after graphClosed)⟩

section Found

variable {graph : Adjacency} {component : List Nat}

/-- Every node of the graph is in a component, and no other number is. -/
theorem exists_mem_find_iff (graphClosed : graph.Closed) {node : Nat}
    : (∃ component ∈ find graph, node ∈ component) ↔ node < graph.size := by
  obtain ⟨found, same, _, _, complete⟩ := find_eq graphClosed
  rw [same, ← complete, List.mem_flatten]
  simp

/-- A component is a class of mutual reachability. -/
theorem mem_find_iff_mutual (graphClosed : graph.Closed) (member : component ∈ find graph)
    {a b : Nat} (inside : a ∈ component)
    : b ∈ component ↔ Mutual graph.Edge a b := by
  obtain ⟨found, same, condensed, unique, _⟩ := find_eq graphClosed
  rw [same, List.mem_reverse] at member
  exact ⟨condensed.joined member inside, condensed.maximal unique member inside⟩

/-- A component names no node twice. -/
theorem nodup_of_mem_find (graphClosed : graph.Closed) (member : component ∈ find graph)
    : component.Nodup := by
  obtain ⟨found, same, _, unique, _⟩ := find_eq graphClosed
  rw [same, List.mem_reverse] at member
  exact (List.nodup_flatten.mp unique).1 component member

/-- A component counts as a cycle exactly if its nodes lie on cycles. Two of them lie on one that
joins them; a single one must have an edge to itself, since the first node on a way back would be
another member.
-/
theorem mem_cyclicComponents_iff (graphClosed : graph.Closed) (member : component ∈ find graph)
    {node : Nat} (inside : node ∈ component)
    : component ∈ Graph.cyclicComponents graph ↔ graph.OnCycle node := by
  have classes {other : Nat} := mem_find_iff_mutual (b := other) graphClosed member inside
  have unique := nodup_of_mem_find graphClosed member
  rw [Graph.cyclicComponents, List.mem_filter, and_iff_right member]
  match component with
  | [] => cases inside
  | [single] =>
      obtain rfl := List.mem_singleton.mp inside
      rw [List.contains_iff_mem]
      refine ⟨fun loop => .single loop, fun cycle => ?_⟩
      obtain ⟨first, edge, back⟩ := TransGen.head'_iff.mp cycle
      obtain rfl := List.mem_singleton.mp (classes.mpr ⟨.single edge, back⟩)
      exact edge
  | first :: second :: rest =>
      refine iff_of_true rfl ?_
      have different : first ≠ second := by
        intro same
        subst same
        simp at unique
      by_cases same : node = first
      · exact (classes.mp (by simp : second ∈ _)).cycle (same ▸ different)
      · exact (classes.mp (by simp : first ∈ _)).cycle same

end Found

end Components

namespace Graph

open Components

variable {graph : Adjacency}

/-- What is written down for the nodes of one cyclic component. -/
def memberEntries (graph : Adjacency) (component : List Nat) : List (Nat × List Nat) :=
  let ascending := (SortedMap.ofKeys component).keys
  ascending.map fun node =>
    (node, ascending.filter fun other => other ≠ node || (graph.targets node).contains node)

theorem cycleMembers_eq (graph : Adjacency)
    : cycleMembers graph = .ofList ((cyclicComponents graph).flatMap (memberEntries graph)) := by
  simp only [cycleMembers, SortedMap.ofList, memberEntries, List.foldl_flatMap, List.foldl_map]

/-- Exactly the nodes on cycles are reported. -/
theorem mem_keys_cycleMembers (graphClosed : graph.Closed) {node : Nat}
    : node ∈ (cycleMembers graph).keys ↔ graph.OnCycle node := by
  have listed (component : List Nat)
      : node ∈ (memberEntries graph component).map Prod.fst ↔ node ∈ component := by
    simp [memberEntries]
  rw [cycleMembers_eq, SortedMap.mem_keys_ofList, List.map_flatMap, List.mem_flatMap]
  simp only [listed]
  constructor
  · intro given
    obtain ⟨component, cyclic, inside⟩ := given
    have member := (List.mem_filter.mp cyclic).1
    exact (mem_cyclicComponents_iff graphClosed member inside).mp cyclic
  · intro cycle
    obtain ⟨component, member, inside⟩ := (exists_mem_find_iff graphClosed).mpr cycle.lt
    exact ⟨component, (mem_cyclicComponents_iff graphClosed member inside).mpr cycle, inside⟩

/-- With a node on a cycle all nodes are reported that it leads to and that lead to it, in ascending
order; the node itself only if it has an edge to itself.
-/
theorem cycleMembers_spec (graphClosed : graph.Closed) {node : Nat} {others : List Nat}
    (found : (cycleMembers graph).get? node = some others)
    : others.Pairwise (· < ·)
      ∧ ∀ other,
          other ∈ others
          ↔ Mutual graph.Edge node other ∧ (other = node → graph.Edge node node) := by
  rw [cycleMembers_eq] at found
  obtain ⟨component, cyclic, entry⟩ := List.mem_flatMap.mp (SortedMap.mem_of_get?_ofList found)
  have member := (List.mem_filter.mp cyclic).1
  obtain ⟨_, listed, equal⟩ := List.mem_map.mp entry
  obtain ⟨rfl, rfl⟩ := Prod.mk.inj equal
  rw [SortedMap.mem_keys_ofKeys] at listed
  constructor
  · refine List.Pairwise.filter _ (List.Pairwise.imp ?_ (SortedMap.keys_ascending _))
    exact fun less => Nat.compare_eq_lt.mp less
  · intro other
    rw [List.mem_filter, SortedMap.mem_keys_ofKeys, mem_find_iff_mutual graphClosed member listed]
    simp [Edge, imp_iff_not_or]

end Graph

end Rollout
