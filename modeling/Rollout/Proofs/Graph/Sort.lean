import Rollout.Proofs.Graph.Components
import Rollout.Proofs.Graph.Places
import Rollout.Proofs.Graph.Release

/-!
What sorting a graph gives: the nodes outside cycles with every dependency before its dependent, and
for each node on a cycle the nodes that share its cycles.
-/

namespace Rollout.Graph

open Relation Adjacency

universe u

variable {κ : Type u} [Ord κ] {graph : Graph κ}

/-- What passes to the order: the places that are not reported as members of cycles. -/
def passes (graph : Graph κ) (place : Nat) : Bool :=
  !(cycleMembers graph.adjacency).contains place

/-- The places in the order in which they are released. -/
def released (graph : Graph κ) : List Nat :=
  Release.order graph.adjacency graph.passes

/-- The order names the places that are released. -/
theorem sort_order (graph : Graph κ) : graph.sort.order = graph.nameAll graph.released := by
  simp only [sort, nameAll, List.getElem?_toArray]
  rfl

/-- The reported nodes are named by the places that are members of cycles. -/
theorem sort_cycles_node (graph : Graph κ)
    : graph.sort.cycles.map CycleMember.node
      = graph.nameAll (cycleMembers graph.adjacency).keys := by
  simp only [sort, nameAll, SortedMap.keys, List.map_filterMap, List.filterMap_map,
    List.getElem?_toArray, Option.map_map, Function.comp_def, Option.map_id']

/-- The reported nodes are in ascending order. -/
theorem sort_cycles_ascending (graph : Graph κ)
    : graph.sort.cycles.Pairwise fun a b => compare a.node b.node = .lt := by
  have ascending : (cycleMembers graph.adjacency).keys.Pairwise (· < ·) :=
    (SortedMap.keys_ascending _).imp fun less => Nat.compare_eq_lt.mp less
  have named : (graph.nameAll _).Pairwise _ := nameAll_ascending ascending
  rw [← sort_cycles_node] at named
  exact List.pairwise_map.mp named

variable [Std.TransOrd κ]

/-- No node is ordered twice, since no place is released twice. -/
theorem sort_order_nodup (graph : Graph κ) : graph.sort.order.Nodup := by
  rw [sort_order]
  exact nameAll_nodup (Release.nodup_order _ _)

variable [Std.LawfulEqOrd κ]

theorem passes_iff {place : Nat} : graph.passes place = true ↔ ¬graph.adjacency.OnCycle place := by
  rw [← mem_keys_cycleMembers (adjacency_closed graph), ← SortedMap.contains_iff, passes]
  simp

/-- Once the members of cycles are left out, no cycle remains: a cycle among the others would make
its nodes members.
-/
theorem acyclic_restrict (graph : Graph κ) (place : Nat)
    : ¬(Release.restrict graph.adjacency graph.passes).OnCycle place := by
  intro cycle
  obtain ⟨_, first, _⟩ := TransGen.head'_iff.mp cycle
  have outside := passes_iff.mp (Release.edge_restrict.mp first).1
  exact outside (cycle.lift id fun _ _ edge => (Release.edge_restrict.mp edge).2.2)

/-- Exactly the places outside cycles are released. -/
theorem mem_released_iff {place : Nat}
    : place ∈ graph.released ↔ place < graph.adjacency.size ∧ ¬graph.adjacency.OnCycle place := by
  rw [released, Release.mem_order_iff (adjacency_closed graph) (acyclic_restrict graph), passes_iff]

-----------------------------------------------------------------------------------------
-- The parts of a sorted graph
-----------------------------------------------------------------------------------------

/-- Exactly the nodes outside cycles are in order. -/
theorem mem_sort_order_iff {node : κ}
    : node ∈ graph.sort.order ↔ node ∈ graph.nodes.keys ∧ ¬TransGen graph.DependsOn node node := by
  rw [sort_order, mem_nameAll]
  constructor
  · intro given
    obtain ⟨place, member, name⟩ := given
    exact ⟨name.mem, mt (onCycle_adjacency_iff name).mpr (mem_released_iff.mp member).2⟩
  · intro given
    obtain ⟨member, outside⟩ := given
    obtain ⟨place, name⟩ := exists_place member
    have free := mt (onCycle_adjacency_iff name).mp outside
    exact ⟨place, mem_released_iff.mpr ⟨name.lt, free⟩, name⟩

/-- Exactly the nodes on cycles are reported. -/
theorem mem_sort_cycles_iff {node : κ}
    : node ∈ graph.sort.cycles.map CycleMember.node
      ↔ node ∈ graph.nodes.keys ∧ TransGen graph.DependsOn node node := by
  rw [sort_cycles_node, mem_nameAll]
  simp only [mem_keys_cycleMembers (adjacency_closed graph)]
  constructor
  · intro given
    obtain ⟨place, cycle, name⟩ := given
    exact ⟨name.mem, (onCycle_adjacency_iff name).mp cycle⟩
  · intro given
    obtain ⟨member, cycle⟩ := given
    obtain ⟨place, name⟩ := exists_place member
    exact ⟨place, (onCycle_adjacency_iff name).mpr cycle, name⟩

/-- A node in order stands after each node in order that it depends on. -/
theorem sort_order_before {source target : κ} (depends : target ∈ graph.targets source)
    (memberSource : source ∈ graph.sort.order) (memberTarget : target ∈ graph.sort.order)
    : [target, source].Sublist graph.sort.order := by
  rw [sort_order, mem_nameAll] at memberSource memberTarget
  obtain ⟨place, first, name⟩ := memberSource
  obtain ⟨other, last, nameOther⟩ := memberTarget
  have edge := (edge_adjacency_iff name nameOther).mpr ⟨name.mem, nameOther.mem, depends⟩
  have before := Release.order_before edge first (passes_iff.mpr (mem_released_iff.mp last).2)
  rw [sort_order]
  have named : graph.nameAll [other, place] = [target, source] := by
    have name : graph.nodes.keys[place]? = some source := name
    have nameOther : graph.nodes.keys[other]? = some target := nameOther
    simp [nameAll, name, nameOther]
  exact named ▸ before.filterMap _

/-- What is reported for a node on a cycle: all nodes that it leads to and that lead to it, in
ascending order; the node itself only if it has an edge to itself.
-/
theorem sort_cycles_dependsOn {member : CycleMember κ} (reported : member ∈ graph.sort.cycles)
    : member.dependsOn.Pairwise (fun a b => compare a b = .lt)
      ∧ ∀ node,
          node ∈ member.dependsOn
          ↔ node ∈ graph.nodes.keys ∧ Mutual graph.DependsOn member.node node
            ∧ (node = member.node → node ∈ graph.targets node) := by
  simp only [sort, List.mem_filterMap, Option.map_eq_some_iff, List.getElem?_toArray] at reported
  obtain ⟨⟨place, others⟩, entry, key, name, rfl⟩ := reported
  have name : graph.Place place key := name
  obtain ⟨ascending, spec⟩ :=
    cycleMembers_spec (adjacency_closed graph) (SortedMap.get?_eq_some_iff.mpr entry)
  have same : others.filterMap (graph.nodes.keys[·]?) = graph.nameAll others := rfl
  simp only [same]
  refine ⟨nameAll_ascending ascending, fun node => ?_⟩
  rw [mem_nameAll]
  constructor
  · intro given
    obtain ⟨other, listed, nameOther⟩ := given
    obtain ⟨joined, loop⟩ := (spec other).mp listed
    refine ⟨nameOther.mem, (mutual_adjacency_iff name nameOther).mp joined, ?_⟩
    intro same
    subst same
    exact ((edge_adjacency_iff name name).mp (loop (nameOther.unique name))).2.2
  · intro given
    obtain ⟨member, joined, loop⟩ := given
    obtain ⟨other, nameOther⟩ := exists_place member
    have both := (mutual_adjacency_iff name nameOther).mpr joined
    refine ⟨other, (spec other).mpr ⟨both, ?_⟩, nameOther⟩
    intro same
    subst same
    obtain rfl := name.key_unique nameOther
    exact (edge_adjacency_iff name name).mpr ⟨member, member, loop rfl⟩

/-- A node and what is reported with it make up the whole component of the node. -/
theorem component_iff {member : CycleMember κ} (reported : member ∈ graph.sort.cycles) {node : κ}
    : node = member.node ∨ node ∈ member.dependsOn ↔ Mutual graph.DependsOn member.node node := by
  have known := (mem_sort_cycles_iff.mp (List.mem_map_of_mem reported)).1
  rw [(sort_cycles_dependsOn reported).2]
  constructor
  · intro given
    rcases given with rfl | ⟨_, joined, _⟩
    · exact .refl _
    · exact joined
  · intro joined
    refine or_iff_not_imp_left.mpr fun different => ⟨?_, joined, fun same => absurd same different⟩
    exact reflTransGen_of_closed (fun _ _ _ depends => depends.2.1) known joined.1

/-- A node off all cycles is not reported with any other, since two nodes that lead to each other
lie on a cycle.
-/
theorem not_reported {node : κ} (outside : ¬TransGen graph.DependsOn node node)
    {member : CycleMember κ} (reported : member ∈ graph.sort.cycles)
    : node ≠ member.node ∧ node ∉ member.dependsOn := by
  have cycle := (mem_sort_cycles_iff.mp (List.mem_map_of_mem reported)).2
  rw [← not_or, component_iff reported]
  intro joined
  by_cases same : member.node = node
  · exact outside (same ▸ cycle)
  · exact outside (joined.symm.cycle (Ne.symm same))

/-- A node without an edge to itself is reported for others only, and there is one: its cycle leaves
it by an edge, and the end of that edge shares the cycle.
-/
theorem others_of_reported {member : CycleMember κ} (reported : member ∈ graph.sort.cycles)
    (loopless : member.node ∉ graph.targets member.node)
    : member.dependsOn ≠ [] ∧ member.node ∉ member.dependsOn := by
  have listed := (sort_cycles_dependsOn reported).2
  constructor
  · obtain ⟨_, cycle⟩ := mem_sort_cycles_iff.mp (List.mem_map_of_mem reported)
    obtain ⟨next, first, back⟩ := TransGen.head'_iff.mp cycle
    refine List.ne_nil_of_mem ((listed next).mpr ⟨first.2.1, ⟨.single first, back⟩, ?_⟩)
    rintro rfl
    exact absurd first.2.2 loopless
  · exact fun named => loopless (((listed _).mp named).2.2 rfl)

-----------------------------------------------------------------------------------------
-- Sorting a graph
-----------------------------------------------------------------------------------------

/-- Sorting divides the nodes: each stands once, in the order or among the reported, and nothing
else stands there. By the parts of the result, neither of which names a node twice.
-/
theorem sort_perm (graph : Graph κ)
    : (graph.sort.order ++ graph.sort.cycles.map CycleMember.node).Perm graph.nodes.keys := by
  have reportedOnce : (graph.sort.cycles.map CycleMember.node).Nodup := by
    refine List.pairwise_map.mpr ((sort_cycles_ascending graph).imp fun less same => ?_)
    simp [same] at less
  have once : (graph.sort.order ++ graph.sort.cycles.map CycleMember.node).Nodup := by
    refine List.nodup_append.mpr ⟨sort_order_nodup graph, reportedOnce, ?_⟩
    intro node ordered _ reported same
    subst same
    exact (mem_sort_order_iff.mp ordered).2 (mem_sort_cycles_iff.mp reported).2
  apply (List.perm_ext_iff_of_nodup once graph.nodes.keys_nodup).mpr
  intro node
  rw [List.mem_append, mem_sort_order_iff, mem_sort_cycles_iff, ← and_or_left]
  exact and_iff_left (Classical.em _).symm

/-- Sorting divides the nodes of any graph into those in order and those reported. Exactly the nodes
on cycles are left out of the order, and no node in order stands before one that it depends on.
-/
theorem sort_partitions (graph : Graph κ)
    : graph.nodes.keys.Nodup
      ∧ (graph.sort.order ++ graph.sort.cycles.map CycleMember.node).Perm graph.nodes.keys
      ∧ (∀ node ∈ graph.nodes.keys,
          node ∉ graph.sort.order ↔ TransGen graph.DependsOn node node)
      ∧ ∀ source ∈ graph.sort.order, ∀ target ∈ graph.sort.order,
          target ∈ graph.targets source → [target, source].Sublist graph.sort.order := by
  refine ⟨graph.nodes.keys_nodup, sort_perm graph, fun node member => ?_, ?_⟩
  · rw [mem_sort_order_iff, not_and, not_not]
    exact ⟨fun cycle => cycle member, fun cycle _ => cycle⟩
  · exact fun source ordered target orderedTarget depends =>
      sort_order_before depends ordered orderedTarget

/-- Two cycles that share a node, a loop that leads to them, and nodes before and behind them; some
edges leave the graph or come from outside.
-/
def bridged : Graph Nat :=
  ⟨.ofKeys [1, 2, 3, 4, 5, 6],
    .ofList [(1, .ofKeys [2]), (2, .ofKeys [1, 3]), (3, .ofKeys [2, 3, 5]), (4, .ofKeys [1, 5]),
      (5, .ofKeys [9]), (6, .ofKeys [3, 6]), (8, .ofKeys [5])]⟩

/-- Of the nodes off the cycles the one that depends on the other comes last. -/
theorem sort_partitions_bridged
    : [5, 4].Sublist bridged.sort.order
      ∧ (bridged.sort.order ++ bridged.sort.cycles.map CycleMember.node).Perm
          [1, 2, 3, 4, 5, 6] := by
  obtain ⟨_, parts, _, before⟩ := sort_partitions bridged
  exact ⟨before 4 (by decide +kernel) 5 (by decide +kernel) (by decide +kernel), parts⟩

/-- The report of a sorted graph. The nodes on cycles stand in ascending order, each with exactly
those it leads to and that lead to it, in ascending order as well; so all members of a component
report one component, and no node off the cycles is named at all.
-/
theorem sort_reports_components (graph : Graph κ)
    : graph.sort.cycles.Pairwise (fun a b => compare a.node b.node = .lt)
      ∧ (∀ node,
          node ∈ graph.sort.cycles.map CycleMember.node ↔ TransGen graph.DependsOn node node)
      ∧ (∀ member ∈ graph.sort.cycles,
          member.dependsOn.Pairwise (fun a b => compare a b = .lt)
          ∧ ∀ node,
              node ∈ member.dependsOn
              ↔ node ∈ graph.nodes.keys ∧ Mutual graph.DependsOn member.node node
                ∧ (node = member.node → node ∈ graph.targets node))
      ∧ (∀ a ∈ graph.sort.cycles, ∀ b ∈ graph.sort.cycles,
          Mutual graph.DependsOn a.node b.node →
            ∀ node, node = a.node ∨ node ∈ a.dependsOn ↔ node = b.node ∨ node ∈ b.dependsOn)
      ∧ ∀ node, ¬TransGen graph.DependsOn node node →
          ∀ member ∈ graph.sort.cycles, node ≠ member.node ∧ node ∉ member.dependsOn := by
  refine ⟨sort_cycles_ascending graph, fun node => ?_, ?_, ?_, ?_⟩
  · rw [mem_sort_cycles_iff, and_iff_right_iff_imp]
    intro cycle
    obtain ⟨_, first, _⟩ := TransGen.head'_iff.mp cycle
    exact first.1
  · exact fun member reported => sort_cycles_dependsOn reported
  · intro a reportedA b reportedB joined node
    rw [component_iff reportedA, component_iff reportedB]
    exact ⟨joined.symm.trans, joined.trans⟩
  · exact fun node outside member reported => not_reported outside reported

/-- Both cycles through a shared node are reported as one component, with the node's edge to itself.
-/
theorem sort_reports_bridged
    : 1 ∈ bridged.sort.cycles.map CycleMember.node
      ∧ (∀ node, node = 1 ∨ node ∈ [2, 3] ↔ node = 3 ∨ node ∈ [1, 2, 3])
      ∧ Mutual bridged.DependsOn 1 3 := by
  obtain ⟨_, reported, listed, shared, _⟩ := sort_reports_components bridged
  have first : (⟨1, [2, 3]⟩ : CycleMember Nat) ∈ bridged.sort.cycles := by decide +kernel
  have last : (⟨3, [1, 2, 3]⟩ : CycleMember Nat) ∈ bridged.sort.cycles := by decide +kernel
  have joined := (((listed _ first).2 3).mp (by decide)).2.1
  exact ⟨List.mem_map_of_mem first, shared _ first _ last joined, joined⟩

end Rollout.Graph
