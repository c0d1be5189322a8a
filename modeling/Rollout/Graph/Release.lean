import Rollout.Graph.Components

/-!
Releasing the nodes of a graph one by one, each after all its dependencies, always the least node
that is ready.
-/

namespace Rollout.Release

/-- A release under way. `waiting` counts for each node the dependencies not yet released; `ready`
holds the nodes that wait for none, in ascending order; `order` has the latest release first.
-/
structure State where
  waiting : Array Nat
  ready : List Nat
  order : List Nat
deriving Repr

/-- Puts a number into an ascending list. -/
def insertReady (node : Nat) : List Nat → List Nat
  | [] => [node]
  | head :: rest =>
      if node < head then node :: head :: rest
      else if node = head then head :: rest
      else head :: insertReady node rest

/-- Tells a node that one of its dependencies is released. -/
def notify (s : State) (node : Nat) : State :=
  let left := s.waiting[node]?.getD 0 - 1
  { s with
    waiting := s.waiting.setIfInBounds node left
    ready := if left = 0 then insertReady node s.ready else s.ready }

/-- Releases the least ready node, if there is one. -/
def step (dependents : Adjacency) (s : State) : State :=
  match s.ready with
  | [] => s
  | node :: rest =>
      (dependents.targets node).foldl notify { s with ready := rest, order := node :: s.order }

/-- For each node, the nodes with an edge to it. -/
def reverse (graph : Adjacency) : Adjacency :=
  (List.range graph.size).foldl (fun reversed source =>
    (graph.targets source).foldl (fun reversed target =>
      reversed.modify target (· ++ [source])) reversed)
    (.replicate graph.size [])

/-- The edges between nodes that pass `keep`. -/
def restrict (graph : Adjacency) (keep : Nat → Bool) : Adjacency :=
  ((List.range graph.size).map fun node =>
    if keep node then (graph.targets node).filter keep else []).toArray

def start (graph : Adjacency) (keep : Nat → Bool) : State where
  waiting := graph.map List.length
  ready := (List.range graph.size).filter fun node => keep node && (graph.targets node).isEmpty
  order := []

/-- The nodes that pass `keep`, each after its dependencies among them. A node is released once at
most, so there are no more steps than nodes.
-/
def order (graph : Adjacency) (keep : Nat → Bool) : List Nat :=
  let inner := restrict graph keep
  let dependents := reverse inner
  (Nat.repeat (step dependents) graph.size (start inner keep)).order.reverse

end Rollout.Release
