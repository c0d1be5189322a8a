import Rollout.DeploymentOrder
import Rollout.Proofs.Graph.Building
import Rollout.Proofs.Graph.Sort

/-!
What the orders of configurations and of projects promise: without an error they name everything
there is to deploy, each after what it refers to.
-/

namespace Rollout

-----------------------------------------------------------------------------------------
-- The graph of references
-----------------------------------------------------------------------------------------

/-- A graph of references as the nodes and edges it is made of. -/
theorem referenceGraph_eq (nodes sources : List Configuration)
    : referenceGraph nodes sources
      = (sources.flatMap fun c => c.references.map (c.coordinate, ·)).foldl
          (fun graph e => graph.addEdge e.1 e.2)
          ((nodes.map Configuration.coordinate).foldl Graph.addNode .empty) := by
  simp only [referenceGraph, List.foldl_flatMap, List.foldl_map]

/-- A graph of references does not depend on the order in which nodes and edges are added. -/
theorem referenceGraph_perm {nodes others sources turned : List Configuration}
    (perm : others.Perm nodes) (permSources : turned.Perm sources)
    : referenceGraph others turned = referenceGraph nodes sources := by
  rw [referenceGraph_eq, referenceGraph_eq, Graph.addNodes_perm (perm.map _)]
  exact Graph.addEdges_perm (permSources.flatMap_right _) _

theorem mem_keys_referenceGraph {nodes sources : List Configuration} {coordinate : Coordinate}
    : coordinate ∈ (referenceGraph nodes sources).nodes.keys
      ↔ coordinate ∈ nodes.map Configuration.coordinate := by
  simp [referenceGraph_eq, Graph.mem_keys_addNodes]

theorem mem_targets_referenceGraph {nodes sources : List Configuration} {source target : Coordinate}
    : target ∈ (referenceGraph nodes sources).targets source
      ↔ ∃ c ∈ sources, c.coordinate = source ∧ target ∈ c.references := by
  simp [referenceGraph_eq, Graph.mem_targets_addEdges, and_comm]

-----------------------------------------------------------------------------------------
-- Configurations
-----------------------------------------------------------------------------------------

/-- Nothing to deploy is always in order, since there is nothing that could be reported. -/
@[simp] theorem orderConfigurations_nil (environment : String)
    : orderConfigurations environment [] = ⟨environment, [], []⟩ := by
  have parts := (Graph.sort_perm (referenceGraph [] [])).eq_nil
  obtain ⟨order, cycles⟩ := List.append_eq_nil_iff.mp parts
  simp only [orderConfigurations, firstOccurrences, order, List.map_eq_nil_iff.mp cycles]
  rfl

theorem firstOccurrences_sublist (configurations : List Configuration)
    : (firstOccurrences configurations).Sublist configurations := by
  induction configurations with
  | nil => exact .slnil
  | cons c rest ih => exact (List.filter_sublist.trans ih).cons_cons c

/-- Configurations with different coordinates are all kept. -/
theorem firstOccurrences_eq_self {configurations : List Configuration}
    (unique : (configurations.map Configuration.coordinate).Nodup)
    : firstOccurrences configurations = configurations := by
  induction configurations with
  | nil => rfl
  | cons c rest ih =>
      rw [List.map_cons, List.nodup_cons, List.mem_map] at unique
      rw [firstOccurrences, ih unique.2, List.filter_eq_self.mpr]
      exact fun d member => by simpa using fun same => unique.1 ⟨d, member, same⟩

/-- A configuration is found by its coordinate, if no other has it. -/
theorem find?_coordinate {configurations : List Configuration}
    (unique : (configurations.map Configuration.coordinate).Nodup) {c : Configuration}
    (member : c ∈ configurations)
    : configurations.find? (fun d => d.coordinate = c.coordinate) = some c := by
  induction configurations with
  | nil => cases member
  | cons head rest ih =>
      rw [List.map_cons, List.nodup_cons, List.mem_map] at unique
      rcases List.mem_cons.mp member with rfl | member
      · simp
      · have different : head.coordinate ≠ c.coordinate := fun same =>
          unique.1 ⟨c, member, same.symm⟩
        simpa [different] using ih unique.2 member

section Configurations

variable {environment : String} {configurations : List Configuration}
variable (unique : (configurations.map Configuration.coordinate).Nodup)
variable (ordered : (orderConfigurations environment configurations).errors = [])

include unique ordered

/-- Without an error the order is that of all coordinates. -/
theorem orderConfigurations_order
    : (orderConfigurations environment configurations).order
        = (referenceGraph configurations configurations).sort.order.filterMap
            (fun coordinate => configurations.find? fun c => c.coordinate = coordinate)
      ∧ (referenceGraph configurations configurations).sort.order.Perm
          (configurations.map Configuration.coordinate) := by
  simp only [orderConfigurations, firstOccurrences_eq_self unique, List.map_eq_nil_iff] at ordered
  have parts := Graph.sort_perm (referenceGraph configurations configurations)
  rw [ordered, List.map_nil, List.append_nil] at parts
  refine ⟨by simp only [orderConfigurations, firstOccurrences_eq_self unique], parts.trans ?_⟩
  exact (List.perm_ext_iff_of_nodup (SortedMap.keys_nodup _) unique).mpr
    fun _ => mem_keys_referenceGraph

/-- Without an error every configuration is in order, and none is there twice. -/
theorem orderConfigurations_perm
    : (orderConfigurations environment configurations).order.Perm configurations := by
  obtain ⟨order, all⟩ := orderConfigurations_order unique ordered
  rw [order]
  refine (all.filterMap _).trans (.of_eq ?_)
  rw [List.filterMap_map]
  refine (List.filterMap_congr ?_).trans List.filterMap_some
  exact fun c member => find?_coordinate unique member

/-- A configuration stands after each one it refers to. -/
theorem orderConfigurations_before {c d : Configuration} (memberC : c ∈ configurations)
    (memberD : d ∈ configurations) (refers : d.coordinate ∈ c.references)
    : [d, c].Sublist (orderConfigurations environment configurations).order := by
  obtain ⟨order, all⟩ := orderConfigurations_order unique ordered
  have edge : d.coordinate ∈ (referenceGraph configurations configurations).targets c.coordinate :=
    mem_targets_referenceGraph.mpr ⟨c, memberC, rfl, refers⟩
  have before := Graph.sort_order_before edge
    (all.mem_iff.mpr (List.mem_map_of_mem memberC)) (all.mem_iff.mpr (List.mem_map_of_mem memberD))
  have found := before.filterMap fun coordinate =>
    configurations.find? fun c => c.coordinate = coordinate
  rw [order]
  simpa [find?_coordinate unique memberC, find?_coordinate unique memberD] using found

end Configurations

/-- Where no configuration refers to itself, each that is reported is reported for others only, all
of them among those to deploy, and there is one.
-/
theorem orderConfigurations_errors {environment : String} {configurations : List Configuration}
    (foreign : ∀ c ∈ configurations, c.coordinate ∉ c.references) {error : OrderError}
    (reported : error ∈ (orderConfigurations environment configurations).errors)
    : ∃ location dependsOn,
        error = .configurationCycle environment location dependsOn
        ∧ location ∈ configurations.map Configuration.coordinate
        ∧ dependsOn ≠ []
        ∧ ∀ other ∈ dependsOn,
            other ≠ location ∧ other ∈ configurations.map Configuration.coordinate := by
  have kept := firstOccurrences_sublist configurations
  obtain ⟨member, cyclic, rfl⟩ := List.mem_map.mp reported
  have loopless : member.node ∉ (referenceGraph (firstOccurrences configurations)
      (firstOccurrences configurations)).targets member.node := by
    intro loop
    obtain ⟨c, first, same, refers⟩ := mem_targets_referenceGraph.mp loop
    exact foreign c (kept.subset first) (same ▸ refers)
  obtain ⟨some, own⟩ := Graph.others_of_reported cyclic loopless
  have known := (Graph.mem_sort_cycles_iff.mp (List.mem_map_of_mem cyclic)).1
  refine ⟨member.node, member.dependsOn, rfl, ?_, some, fun other listed => ⟨?_, ?_⟩⟩
  · exact (kept.map _).subset (mem_keys_referenceGraph.mp known)
  · exact fun same => own (same ▸ listed)
  · have node := ((Graph.sort_cycles_dependsOn cyclic).2 other).mp listed
    exact (kept.map _).subset (mem_keys_referenceGraph.mp node.1)

-----------------------------------------------------------------------------------------
-- Projects
-----------------------------------------------------------------------------------------

/-- Declaring projects one after the other adds each as a node, with an edge to everything it
depends on; by induction on the projects.
-/
theorem declareProjects_spec (entries : List (String × SortedSet String)) (graph : Graph String)
    : let declared := entries.foldl (fun graph e =>
          e.2.keys.foldl (fun graph other => graph.addEdge e.1 other) (graph.addNode e.1)) graph
      (∀ key, key ∈ declared.nodes.keys ↔ key ∈ entries.map Prod.fst ∨ key ∈ graph.nodes.keys)
      ∧ ∀ key other,
          other ∈ declared.targets key
          ↔ (∃ e ∈ entries, e.1 = key ∧ other ∈ e.2.keys) ∨ other ∈ graph.targets key := by
  induction entries generalizing graph with
  | nil => simp
  | cons e rest ih =>
      have edges (graph : Graph String)
          : e.2.keys.foldl (fun graph other => graph.addEdge e.1 other) graph
            = (e.2.keys.map (e.1, ·)).foldl (fun graph e => graph.addEdge e.1 e.2) graph := by
        rw [List.foldl_map]
      obtain ⟨nodes, targets⟩ := ih (e.2.keys.foldl (fun graph other => graph.addEdge e.1 other)
        (graph.addNode e.1))
      refine ⟨fun key => (nodes key).trans ?_, fun key other => (targets key other).trans ?_⟩
      · rw [edges, Graph.nodes_addEdges, Graph.addNode, SortedMap.mem_keys_add, List.map_cons,
          List.mem_cons, or_left_comm, or_assoc]
      · simp only [edges, Graph.mem_targets_addEdges, Graph.targets_addNode, List.mem_map,
          Prod.mk.injEq, List.mem_cons, exists_eq_or_imp]
        grind

theorem mem_keys_projectGraph {dependencies : SortedMap String (SortedSet String)} {id : String}
    : id ∈ (projectGraph dependencies).nodes.keys ↔ id ∈ dependencies.keys := by
  apply ((declareProjects_spec dependencies.entries .empty).1 id).trans
  exact or_iff_left Graph.not_mem_keys_empty

theorem mem_targets_projectGraph {dependencies : SortedMap String (SortedSet String)}
    {id other : String}
    : other ∈ (projectGraph dependencies).targets id
      ↔ ∃ others, dependencies.get? id = some others ∧ other ∈ others.keys := by
  apply ((declareProjects_spec dependencies.entries .empty).2 id other).trans
  simp [SortedMap.get?_eq_some_iff]

section Projects

variable {environment : String} {dependencies : SortedMap String (SortedSet String)}
variable (ordered : (orderProjects environment dependencies).errors = [])

include ordered

/-- Without an error every project is in order, and none is there twice. -/
theorem orderProjects_perm
    : (orderProjects environment dependencies).order.Perm dependencies.keys := by
  rw [orderProjects, List.map_eq_nil_iff] at ordered
  have parts := Graph.sort_perm (projectGraph dependencies)
  rw [ordered, List.map_nil, List.append_nil] at parts
  exact parts.trans ((List.perm_ext_iff_of_nodup (SortedMap.keys_nodup _)
    (SortedMap.keys_nodup _)).mpr fun _ => mem_keys_projectGraph)

/-- A project stands after each project it depends on. -/
theorem orderProjects_before {id other : String} {others : SortedSet String}
    (held : dependencies.get? id = some others) (depends : other ∈ others.keys)
    (known : other ∈ dependencies.keys)
    : [other, id].Sublist (orderProjects environment dependencies).order := by
  have all := orderProjects_perm ordered
  have edge := mem_targets_projectGraph.mpr ⟨others, held, depends⟩
  exact Graph.sort_order_before edge (all.mem_iff.mpr (SortedMap.mem_keys_iff.mpr ⟨others, held⟩))
    (all.mem_iff.mpr known)

end Projects

-----------------------------------------------------------------------------------------
-- Dependencies between projects
-----------------------------------------------------------------------------------------

/-- The projects noted for a key are those of the references that were gone through, the key apart,
and those noted before; by induction on the references.
-/
theorem mem_keys_addReferences {project other : String} {references : List Coordinate}
    {others : SortedSet String}
    : other ∈ (references.foldl (fun others r =>
        if r.project = project then others else others.add r.project) others).keys
      ↔ (∃ r ∈ references, r.project ≠ project ∧ r.project = other) ∨ other ∈ others.keys := by
  induction references generalizing others with
  | nil => simp
  | cons r rest ih =>
      rw [List.foldl_cons, ih]
      by_cases same : r.project = project
      · simp [same]
      · simp [same, SortedMap.mem_keys_add]
        grind

/-- A project depends on exactly the other projects that its configurations refer to. -/
theorem mem_keys_projectDependencies {configurations : List Configuration} {project other : String}
    : other ∈ (((projectDependencies configurations).get? project).getD .empty).keys
      ↔ ∃ c ∈ configurations, c.coordinate.project = project
          ∧ ∃ r ∈ c.references, r.project ≠ project ∧ r.project = other := by
  have folded (dependencies : SortedMap String (SortedSet String))
      : other
          ∈ (((configurations.foldl addDependencies dependencies).get? project).getD .empty).keys
        ↔ (∃ c ∈ configurations, c.coordinate.project = project
            ∧ ∃ r ∈ c.references, r.project ≠ project ∧ r.project = other)
          ∨ other ∈ ((dependencies.get? project).getD .empty).keys := by
    induction configurations generalizing dependencies with
    | nil => simp
    | cons c rest ih =>
        rw [List.foldl_cons, ih, addDependencies, SortedMap.get?_update]
        by_cases same : c.coordinate.project = project
        · simp [same, mem_keys_addReferences, or_left_comm, or_assoc]
        · simp [same, Ne.symm same]
  rw [projectDependencies, folded]
  simp

end Rollout
