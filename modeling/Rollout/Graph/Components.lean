/-!
The strongly connected components of a graph on `0 … n - 1`, each after the components it leads to.

Nodes are followed depth first along one path and numbered as they are met. Each carries the lowest
number on the path that it is known to lead back to. A node that leads back to none below its own
closes a component: the path from it on.
-/

namespace Rollout

/-- The targets of each node's edges. -/
abbrev Adjacency := Array (List Nat)

namespace Adjacency

def targets (graph : Adjacency) (node : Nat) : List Nat :=
  graph[node]?.getD []

def edgeCount (graph : Adjacency) : Nat :=
  graph.foldl (fun count targets => count + targets.length) 0

end Adjacency

namespace Components

/-- Where a node stands in the search: not met, on the path with its number and the lowest number it
leads back to, or in a component.
-/
inductive Mark
  | unmet
  | onPath (index low : Nat)
  | settled
deriving DecidableEq, Repr

/-- A search for components. Lists that grow and shrink have their latest element first. -/
structure Search where
  marks : Array Mark
  /-- How many nodes have been met, which is the number of the next. -/
  met : Nat
  roots : List Nat
  path : List Nat
  /-- Nodes of the path with the edges that are still to be followed. -/
  frames : List (Nat × List Nat)
  found : List (List Nat)

namespace Search

def mark (s : Search) (node : Nat) : Mark :=
  s.marks[node]?.getD .settled

def put (s : Search) (node : Nat) (mark : Mark) : Search :=
  { s with marks := s.marks.setIfInBounds node mark }

/-- Puts a node that was not met on the path. So far it leads back to no other. -/
def enter (graph : Adjacency) (s : Search) (node : Nat) : Search :=
  { s.put node (.onPath s.met s.met) with
    met := s.met + 1
    path := node :: s.path
    frames := (node, graph.targets node) :: s.frames }

/-- Notes that a node of the path leads back to the number `bound`. -/
def lower (s : Search) (node bound : Nat) : Search :=
  match s.mark node with
  | .onPath index low => s.put node (.onPath index (min low bound))
  | _ => s

/-- Follows an edge from the latest frame, which is that of `node`. -/
def follow (graph : Adjacency) (s : Search) (node target : Nat) : Search :=
  match s.mark target with
  | .unmet => s.enter graph target
  | .onPath index _ => s.lower node index
  | .settled => s

/-- Makes the path from `node` on a component. -/
def settle (s : Search) (node : Nat) : Search :=
  let members := s.path.takeWhile (· ≠ node) ++ [node]
  { members.foldl (fun s member => s.put member .settled) s with
    path := (s.path.dropWhile (· ≠ node)).drop 1
    found := members :: s.found }

/-- What a node leads back to, the node it was met from leads back to as well. -/
def pass (s : Search) (low : Nat) : Search :=
  match s.frames with
  | (parent, _) :: _ => s.lower parent low
  | [] => s

/-- Leaves a node all of whose edges have been followed. -/
def leave (s : Search) (node : Nat) : Search :=
  match s.mark node with
  | .onPath index low => if low = index then (s.pass low).settle node else s.pass low
  | _ => s

/-- Starts at a root, unless it was met on the way from an earlier one. -/
def startAt (graph : Adjacency) (s : Search) (root : Nat) : Search :=
  if s.mark root = .unmet then s.enter graph root else s

/-- Follows one edge, leaves one node or starts at one root. -/
def step (graph : Adjacency) (s : Search) : Search :=
  match s.frames with
  | (node, target :: rest) :: frames =>
      { s with frames := (node, rest) :: frames }.follow graph node target
  | (node, []) :: frames => { s with frames }.leave node
  | [] =>
      match s.roots with
      | [] => s
      | root :: roots => { s with roots }.startAt graph root

def start (graph : Adjacency) : Search where
  marks := .replicate graph.size .unmet
  met := 0
  roots := List.range graph.size
  path := []
  frames := []
  found := []

end Search

/-- The steps of a whole search: one for each edge, and one each to reach and to leave a node. -/
def stepCount (graph : Adjacency) : Nat :=
  graph.edgeCount + 2 * graph.size

/-- The strongly connected components, in the order in which they are completed. -/
def find (graph : Adjacency) : List (List Nat) :=
  (Nat.repeat (Search.step graph) (stepCount graph) (Search.start graph)).found.reverse

end Components

end Rollout
