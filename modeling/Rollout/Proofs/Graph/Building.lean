import Rollout.Graph.Basic
import Rollout.Proofs.SortedMap

/-!
What is in a graph that was built one node and one edge at a time.
-/

namespace Rollout.Graph

universe u

variable {κ : Type u} [Ord κ]

@[simp] theorem not_mem_keys_empty {key : κ} : key ∉ (empty : Graph κ).nodes.keys := by
  simp [empty]

@[simp] theorem not_mem_targets_empty {key other : κ} : other ∉ (empty : Graph κ).targets key := by
  simp [empty, targets]

variable [Std.TransOrd κ]

@[simp] theorem nodes_addEdge (graph : Graph κ) (source target : κ)
    : (graph.addEdge source target).nodes = graph.nodes :=
  rfl

@[simp] theorem targets_addNode (graph : Graph κ) (node key : κ)
    : (graph.addNode node).targets key = graph.targets key :=
  rfl

/-- Adding edges adds no node. -/
@[simp] theorem nodes_addEdges (edges : List (κ × κ)) (graph : Graph κ)
    : (edges.foldl (fun graph e => graph.addEdge e.1 e.2) graph).nodes = graph.nodes := by
  induction edges generalizing graph with
  | nil => rfl
  | cons e rest ih => exact ih _

@[simp] theorem targets_addNodes (nodes : List κ) (graph : Graph κ) (key : κ)
    : (nodes.foldl addNode graph).targets key = graph.targets key := by
  induction nodes generalizing graph with
  | nil => rfl
  | cons node rest ih => exact ih _

variable [Std.LawfulEqOrd κ]

theorem mem_keys_addNodes {nodes : List κ} {graph : Graph κ} {key : κ}
    : key ∈ (nodes.foldl addNode graph).nodes.keys ↔ key ∈ nodes ∨ key ∈ graph.nodes.keys := by
  have folded (graph : Graph κ)
      : (nodes.foldl addNode graph).nodes = nodes.foldl SortedMap.add graph.nodes := by
    induction nodes generalizing graph with
    | nil => rfl
    | cons node rest ih => exact ih _
  rw [folded, SortedMap.mem_keys_foldl_add]

/-- An added edge has its end among the targets of its source. -/
theorem mem_targets_addEdge {graph : Graph κ} {source target key other : κ}
    : other ∈ (graph.addEdge source target).targets key
      ↔ (key, other) = (source, target) ∨ other ∈ graph.targets key := by
  rw [targets, addEdge, SortedMap.get?_update]
  by_cases same : key = source
  · subst same
    simp [SortedMap.mem_keys_add, targets]
  · simp [same, targets]

/-- Exactly the added edges and those that were there before are in the graph, by induction on the
additions.
-/
theorem mem_targets_addEdges {edges : List (κ × κ)} {graph : Graph κ} {key other : κ}
    : other ∈ (edges.foldl (fun graph e => graph.addEdge e.1 e.2) graph).targets key
      ↔ (key, other) ∈ edges ∨ other ∈ graph.targets key := by
  induction edges generalizing graph with
  | nil => simp
  | cons e rest ih =>
      rw [List.foldl_cons, ih, mem_targets_addEdge, List.mem_cons, or_left_comm, or_assoc]

-----------------------------------------------------------------------------------------
-- The order of additions
-----------------------------------------------------------------------------------------

theorem addNode_comm (graph : Graph κ) (node other : κ)
    : (graph.addNode node).addNode other = (graph.addNode other).addNode node :=
  congrArg (Graph.mk · graph.edges) (SortedMap.add_comm graph.nodes node other)

theorem addEdge_comm (graph : Graph κ) (e f : κ × κ)
    : (graph.addEdge e.1 e.2).addEdge f.1 f.2 = (graph.addEdge f.1 f.2).addEdge e.1 e.2 := by
  simp only [addEdge]
  rw [SortedMap.update_comm]
  exact fun targets => SortedMap.add_comm targets e.2 f.2

/-- Nodes may be added in any order. -/
theorem addNodes_perm {nodes others : List κ} (perm : others.Perm nodes) (graph : Graph κ)
    : others.foldl addNode graph = nodes.foldl addNode graph :=
  perm.foldl_eq' (fun node _ other _ graph => addNode_comm graph node other) graph

/-- Edges may be added in any order. -/
theorem addEdges_perm {edges others : List (κ × κ)} (perm : others.Perm edges) (graph : Graph κ)
    : others.foldl (fun graph e => graph.addEdge e.1 e.2) graph
      = edges.foldl (fun graph e => graph.addEdge e.1 e.2) graph :=
  perm.foldl_eq' (fun e _ f _ graph => addEdge_comm graph e f) graph

end Rollout.Graph
