import Rollout.Graph.Release
import Rollout.SortedMap

/-!
Dependency graphs over ordered keys. An edge leads from a node to what it depends on. Edges to or
from a key that is no node do not count: what they name exists already.
-/

namespace Rollout

universe u

/-- A graph; edges may name keys that are not nodes, or not yet. -/
structure Graph (κ : Type u) [Ord κ] where
  nodes : SortedSet κ
  edges : SortedMap κ (SortedSet κ)

/-- A node on a cycle, with the nodes of its cycle that it depends on. -/
structure CycleMember (κ : Type u) where
  node : κ
  dependsOn : List κ
deriving DecidableEq, Repr

/-- All nodes outside cycles, dependencies first, and all nodes on cycles. -/
structure Sorted (κ : Type u) where
  order : List κ
  cycles : List (CycleMember κ)
deriving DecidableEq, Repr

namespace Graph

variable {κ : Type u} [Ord κ]

def empty : Graph κ :=
  ⟨.empty, .empty⟩

instance : Inhabited (Graph κ) :=
  ⟨empty⟩

def addNode [Std.TransOrd κ] (graph : Graph κ) (node : κ) : Graph κ :=
  { graph with nodes := graph.nodes.add node }

/-- Declares that `source` depends on `target`. -/
def addEdge [Std.TransOrd κ] (graph : Graph κ) (source target : κ) : Graph κ :=
  { graph with edges := graph.edges.update source .empty (·.add target) }

def contains (graph : Graph κ) (node : κ) : Bool :=
  graph.nodes.contains node

def nodeCount (graph : Graph κ) : Nat :=
  graph.nodes.size

/-- All targets written down for a key. -/
def targets (graph : Graph κ) (source : κ) : List κ :=
  ((graph.edges.get? source).getD .empty).keys

/-- The nodes a key depends on. -/
def dependencies (graph : Graph κ) (node : κ) : List κ :=
  (graph.targets node).filter graph.contains

/-- The number of edges between nodes. -/
def edgeCount (graph : Graph κ) : Nat :=
  graph.nodes.keys.foldl (fun count node => count + (graph.dependencies node).length) 0

/-- The place of a key in a list. -/
def indexOf? (keys : List κ) (key : κ) : Option Nat :=
  keys.findIdx? fun other => compare key other = .eq

/-- The edges between nodes, nodes named by their place in key order. -/
def adjacency (graph : Graph κ) : Adjacency :=
  let keys := graph.nodes.keys
  (keys.map fun key => (graph.targets key).filterMap (indexOf? keys)).toArray

/-- The components that are cycles: more than one node, or one with an edge to itself. -/
def cyclicComponents (graph : Adjacency) : List (List Nat) :=
  (Components.find graph).filter fun component =>
    match component with
    | [node] => (graph.targets node).contains node
    | _ => true

/-- For each node on a cycle the nodes of its component, itself only if it has an edge to itself. -/
def cycleMembers (graph : Adjacency) : SortedMap Nat (List Nat) :=
  (cyclicComponents graph).foldl (fun members component =>
    let ascending := (SortedMap.ofKeys component).keys
    ascending.foldl (fun members node =>
      members.insert node (ascending.filter fun other =>
        other ≠ node || (graph.targets node).contains node)) members) .empty

/-- Orders the graph. Nodes on a cycle are left out and reported; an edge into a cycle holds no
other node back.
-/
def sort (graph : Graph κ) : Sorted κ :=
  let keys := graph.nodes.keys.toArray
  let edges := graph.adjacency
  let members := cycleMembers edges
  let nameAll (places : List Nat) : List κ := places.filterMap (keys[·]?)
  { order := nameAll (Release.order edges fun node => !members.contains node)
    cycles := members.entries.filterMap fun (node, others) =>
      keys[node]?.map fun key => ⟨key, nameAll others⟩ }

end Graph

end Rollout
