import Mathlib.Data.List.Nodup
import Rollout.Graph.Basic
import Rollout.Proofs.Graph.Reachability
import Rollout.Proofs.SortedMap

/-!
The places of keys. A graph is sorted through the places of its nodes in key order; what holds of
edges, paths and cycles between places holds of their keys, since each place has one key and each
key one place.
-/

namespace Rollout.Graph

open Relation Adjacency

universe u

variable {κ : Type u} [Ord κ]

/-- One node depends on another: both are nodes and an edge leads from the first to the second. -/
def DependsOn (graph : Graph κ) (source target : κ) : Prop :=
  source ∈ graph.nodes.keys ∧ target ∈ graph.nodes.keys ∧ target ∈ graph.targets source

/-- A key has a place in the ascending list of nodes. -/
def Place (graph : Graph κ) (place : Nat) (key : κ) : Prop :=
  graph.nodes.keys[place]? = some key

/-- The keys at some places. -/
def nameAll (graph : Graph κ) (places : List Nat) : List κ :=
  places.filterMap (graph.nodes.keys[·]?)

variable {graph : Graph κ}

-----------------------------------------------------------------------------------------
-- Places and keys
-----------------------------------------------------------------------------------------

theorem Place.lt {place : Nat} {key : κ} (h : graph.Place place key)
    : place < graph.adjacency.size := by
  obtain ⟨inside, _⟩ := List.getElem?_eq_some_iff.mp h
  simpa [adjacency] using inside

theorem Place.mem {place : Nat} {key : κ} (h : graph.Place place key) : key ∈ graph.nodes.keys :=
  List.mem_of_getElem? h

/-- A place has one key. -/
theorem Place.key_unique {place : Nat} {key other : κ} (h : graph.Place place key)
    (h' : graph.Place place other)
    : key = other :=
  Option.some.inj (h.symm.trans h')

theorem exists_place {key : κ} (member : key ∈ graph.nodes.keys) : ∃ place, graph.Place place key :=
  List.mem_iff_getElem?.mp member

theorem exists_key {place : Nat} (inside : place < graph.adjacency.size)
    : ∃ key, graph.Place place key := by
  have inside : place < graph.nodes.keys.length := by simpa [adjacency] using inside
  exact ⟨_, List.getElem?_eq_getElem inside⟩

/-- Places are in the order of their keys. -/
theorem Place.compare_eq {place other : Nat} {key otherKey : κ} (h : graph.Place place key)
    (h' : graph.Place other otherKey) (less : place < other)
    : compare key otherKey = .lt := by
  obtain ⟨inside, rfl⟩ := List.getElem?_eq_some_iff.mp h
  obtain ⟨inside', rfl⟩ := List.getElem?_eq_some_iff.mp h'
  exact List.pairwise_iff_getElem.mp graph.nodes.keys_ascending place other inside inside' less

theorem mem_nameAll {places : List Nat} {key : κ}
    : key ∈ graph.nameAll places ↔ ∃ place ∈ places, graph.Place place key :=
  List.mem_filterMap

/-- Ascending places have ascending keys. -/
theorem nameAll_ascending {places : List Nat} (ascending : places.Pairwise (· < ·))
    : (graph.nameAll places).Pairwise fun a b => compare a b = .lt := by
  refine List.pairwise_filterMap.mpr (ascending.imp ?_)
  exact fun less _ first _ second => Place.compare_eq first second less

variable [Std.TransOrd κ]

/-- A key has one place, since no node stands twice. -/
theorem Place.unique {place other : Nat} {key : κ} (h : graph.Place place key)
    (h' : graph.Place other key)
    : place = other := by
  obtain ⟨inside, same⟩ := List.getElem?_eq_some_iff.mp h
  obtain ⟨inside', same'⟩ := List.getElem?_eq_some_iff.mp h'
  exact (graph.nodes.keys_nodup.getElem_inj_iff).mp (same.trans same'.symm)

/-- Different places have different keys. -/
theorem nameAll_nodup {places : List Nat} (unique : places.Nodup) : (graph.nameAll places).Nodup :=
  unique.filterMap fun _ _ _ first second => Place.unique first second

variable [Std.LawfulEqOrd κ]

theorem indexOf?_eq_some_iff {place : Nat} {key : κ}
    : indexOf? graph.nodes.keys key = some place ↔ graph.Place place key := by
  rw [indexOf?, List.findIdx?_eq_some_iff_getElem, Place, List.getElem?_eq_some_iff]
  constructor
  · intro given
    obtain ⟨inside, same, _⟩ := given
    exact ⟨inside, by simpa using Eq.symm (by simpa using same)⟩
  · intro given
    obtain ⟨inside, rfl⟩ := given
    refine ⟨inside, by simp, fun earlier less same => ?_⟩
    have equal : graph.nodes.keys[place] = graph.nodes.keys[earlier] := by simpa using same
    have place_eq := (graph.nodes.keys_nodup.getElem_inj_iff).mp equal
    omega

omit [Std.TransOrd κ] [Std.LawfulEqOrd κ] in
theorem targets_adjacency {place : Nat} {key : κ} (h : graph.Place place key)
    : graph.adjacency.targets place
      = (graph.targets key).filterMap (indexOf? graph.nodes.keys) := by
  have h : graph.nodes.keys[place]? = some key := h
  simp [Adjacency.targets, adjacency, h]

/-- No edge between places is written twice, since the keys of its ends are not. -/
theorem nodup_targets_adjacency (graph : Graph κ) (place : Nat)
    : (graph.adjacency.targets place).Nodup := by
  cases name : graph.nodes.keys[place]? with
  | none => simp [Adjacency.targets, adjacency, name]
  | some key =>
      rw [targets_adjacency name]
      refine List.Nodup.filterMap (fun a b other first second => ?_) (SortedMap.keys_nodup _)
      exact (indexOf?_eq_some_iff.mp first).key_unique (indexOf?_eq_some_iff.mp second)

/-- The edges between places are the dependencies between their keys. -/
theorem edge_adjacency_iff {place other : Nat} {key otherKey : κ} (h : graph.Place place key)
    (h' : graph.Place other otherKey)
    : graph.adjacency.Edge place other ↔ graph.DependsOn key otherKey := by
  rw [Edge, targets_adjacency h, List.mem_filterMap, DependsOn]
  simp only [indexOf?_eq_some_iff]
  constructor
  · intro given
    obtain ⟨target, listed, placed⟩ := given
    obtain rfl := placed.key_unique h'
    exact ⟨h.mem, h'.mem, listed⟩
  · intro given
    obtain ⟨_, _, listed⟩ := given
    exact ⟨otherKey, listed, h'⟩

/-- An edge between places ends at a place. -/
theorem adjacency_closed (graph : Graph κ) : graph.adjacency.Closed := by
  intro place other edge
  obtain ⟨key, h⟩ := exists_key edge.source_lt
  have h' : graph.nodes.keys[place]? = some key := h
  simp only [Edge, Adjacency.targets, adjacency, List.getElem?_toArray, List.getElem?_map, h',
    Option.map_some, Option.getD_some, List.mem_filterMap, indexOf?_eq_some_iff] at edge
  obtain ⟨_, _, placed⟩ := edge
  exact placed.lt

-----------------------------------------------------------------------------------------
-- Paths between places and between keys
-----------------------------------------------------------------------------------------

/-- Every edge between places joins keys that depend on each other. -/
theorem exists_dependsOn (place other : Nat) (key : κ) (h : graph.Place place key)
    (edge : graph.adjacency.Edge place other)
    : ∃ otherKey, graph.Place other otherKey ∧ graph.DependsOn key otherKey := by
  obtain ⟨otherKey, h'⟩ := exists_key (adjacency_closed graph place other edge)
  exact ⟨otherKey, h', (edge_adjacency_iff h h').mp edge⟩

/-- Every dependency between keys is an edge between their places. -/
theorem exists_edge (key otherKey : κ) (place : Nat) (h : graph.Place place key)
    (depends : graph.DependsOn key otherKey)
    : ∃ other, graph.Place other otherKey ∧ graph.adjacency.Edge place other := by
  obtain ⟨other, h'⟩ := exists_place depends.2.1
  exact ⟨other, h', (edge_adjacency_iff h h').mpr depends⟩

theorem reflTransGen_adjacency_iff {place other : Nat} {key otherKey : κ}
    (h : graph.Place place key) (h' : graph.Place other otherKey)
    : ReflTransGen graph.adjacency.Edge place other
      ↔ ReflTransGen graph.DependsOn key otherKey := by
  constructor
  · intro path
    obtain ⟨reached, name, path⟩ := reflTransGen_image exists_dependsOn h path
    exact name.key_unique h' ▸ path
  · intro path
    obtain ⟨reached, name, path⟩ := reflTransGen_image exists_edge h path
    exact name.unique h' ▸ path

/-- Places lie on cycles exactly if their keys do. -/
theorem onCycle_adjacency_iff {place : Nat} {key : κ} (h : graph.Place place key)
    : graph.adjacency.OnCycle place ↔ TransGen graph.DependsOn key key := by
  constructor
  · intro cycle
    obtain ⟨reached, name, cycle⟩ := transGen_image exists_dependsOn h cycle
    exact name.key_unique h ▸ cycle
  · intro cycle
    obtain ⟨reached, name, cycle⟩ := transGen_image exists_edge h cycle
    exact name.unique h ▸ cycle

theorem mutual_adjacency_iff {place other : Nat} {key otherKey : κ} (h : graph.Place place key)
    (h' : graph.Place other otherKey)
    : Mutual graph.adjacency.Edge place other ↔ Mutual graph.DependsOn key otherKey :=
  and_congr (reflTransGen_adjacency_iff h h') (reflTransGen_adjacency_iff h' h)

end Rollout.Graph
