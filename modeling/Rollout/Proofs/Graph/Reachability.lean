import Mathlib.Logic.Relation
import Mathlib.Tactic.Common
import Rollout.Graph.Components

/-!
Paths of a graph: which nodes lead to which, and which lie on a cycle. Mutual reachability is an
equivalence whose classes are the components that a search is to find.
-/

namespace Rollout

open Relation

/-- Two nodes lead to each other, each along any number of edges. -/
def Mutual {α : Type*} (edge : α → α → Prop) (a b : α) : Prop :=
  ReflTransGen edge a b ∧ ReflTransGen edge b a

namespace Mutual

variable {α : Type*} {edge : α → α → Prop} {a b c : α}

theorem refl (a : α) : Mutual edge a a :=
  ⟨.refl, .refl⟩

theorem symm (h : Mutual edge a b) : Mutual edge b a :=
  ⟨h.2, h.1⟩

theorem trans (hab : Mutual edge a b) (hbc : Mutual edge b c) : Mutual edge a c :=
  ⟨hab.1.trans hbc.1, hbc.2.trans hab.2⟩

/-- Two different nodes that lead to each other lie on a cycle: one edge out of the first is
certain, since no path without edges joins them.
-/
theorem cycle (h : Mutual edge a b) (different : a ≠ b) : TransGen edge a a := by
  rcases reflTransGen_iff_eq_or_transGen.mp h.1 with same | forth
  · exact absurd same.symm different
  · exact forth.trans_left h.2

end Mutual

/-- A set of nodes that no edge leaves keeps every path that starts in it, by induction on the path.
-/
theorem reflTransGen_of_closed {α : Type*} {edge : α → α → Prop} {inside : α → Prop}
    (closed : ∀ a b, inside a → edge a b → inside b) {a b : α} (start : inside a)
    (path : ReflTransGen edge a b)
    : inside b := by
  induction path with
  | refl => exact start
  | tail _ last ih => exact closed _ _ ih last

section Simulation

variable {α β : Type*} {edge : α → α → Prop} {image : β → β → Prop} {named : α → β → Prop}

/-- Where every edge out of a named node has an image between the names, so has every path, by
induction on the path.
-/
theorem reflTransGen_image
    (step : ∀ a b x, named a x → edge a b → ∃ y, named b y ∧ image x y)
    {a b : α} {x : β} (start : named a x) (path : ReflTransGen edge a b)
    : ∃ y, named b y ∧ ReflTransGen image x y := by
  induction path with
  | refl => exact ⟨x, start, .refl⟩
  | tail _ last ih =>
      obtain ⟨y, name, before⟩ := ih
      obtain ⟨z, next, after⟩ := step _ _ y name last
      exact ⟨z, next, before.tail after⟩

/-- The same for paths that have at least one edge. -/
theorem transGen_image
    (step : ∀ a b x, named a x → edge a b → ∃ y, named b y ∧ image x y)
    {a b : α} {x : β} (start : named a x) (path : TransGen edge a b)
    : ∃ y, named b y ∧ TransGen image x y := by
  obtain ⟨c, first, rest⟩ := TransGen.head'_iff.mp path
  obtain ⟨y, name, before⟩ := step a c x start first
  obtain ⟨z, last, after⟩ := reflTransGen_image step name rest
  exact ⟨z, last, TransGen.head'_iff.mpr ⟨y, before, after⟩⟩

end Simulation

namespace Adjacency

/-- An edge between two nodes named by their numbers. -/
def Edge (graph : Adjacency) (source target : Nat) : Prop :=
  target ∈ graph.targets source

/-- No edge leaves the graph. -/
def Closed (graph : Adjacency) : Prop :=
  ∀ source target, graph.Edge source target → target < graph.size

/-- A node on a cycle: some path with at least one edge returns to it. -/
def OnCycle (graph : Adjacency) (node : Nat) : Prop :=
  TransGen graph.Edge node node

theorem getElem?_eq_targets {graph : Adjacency} {node : Nat} (inside : node < graph.size)
    : graph[node]? = some (graph.targets node) := by
  simp [targets, inside]

/-- Only nodes of the graph have edges, since a number beyond them has no targets. -/
theorem Edge.source_lt {graph : Adjacency} {source target : Nat} (h : graph.Edge source target)
    : source < graph.size := by
  by_contra outside
  have none : graph[source]? = none := Array.getElem?_eq_none (Nat.le_of_not_lt outside)
  simp [Edge, targets, none] at h

/-- A node on a cycle is a node of the graph: its cycle has a first edge. -/
theorem OnCycle.lt {graph : Adjacency} {node : Nat} (h : graph.OnCycle node)
    : node < graph.size := by
  obtain ⟨_, first, _⟩ := TransGen.head'_iff.mp h
  exact first.source_lt

end Adjacency

end Rollout
