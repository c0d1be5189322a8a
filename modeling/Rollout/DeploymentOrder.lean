import Rollout.Configuration
import Rollout.Graph.Basic

/-!
The order in which the configurations of an environment, and its projects, are deployed.
-/

namespace Rollout

/-- Why something could not be put in order: it is part of a cycle. -/
inductive OrderError
  | configurationCycle (environment : String) (location : Coordinate)
      (dependsOn : List Coordinate)
  | projectCycle (environment project : String) (dependsOn : List String)
deriving DecidableEq, Repr

def OrderError.message : OrderError → String
  | .configurationCycle environment location dependsOn =>
      environment ++ ":" ++ location.canonical
        ++ ": is part of circular dependency.\n depends on: "
        ++ String.intercalate ", " (dependsOn.map Coordinate.canonical)
  | .projectCycle environment project dependsOn =>
      environment ++ ":" ++ project
        ++ ": circular dependency detected.\n check project dependencies: "
        ++ String.intercalate ", " dependsOn

/-- The configurations outside cycles, dependencies first, and an error for each inside one. -/
structure OrderedConfigurations where
  environment : String
  order : List Configuration
  errors : List OrderError
deriving Inhabited

/-- The configurations whose coordinate no earlier one has. -/
def firstOccurrences : List Configuration → List Configuration
  | [] => []
  | c :: rest => c :: (firstOccurrences rest).filter fun d => d.coordinate ≠ c.coordinate

/-- A graph with one node for each configuration and one edge for each reference. -/
def referenceGraph (nodes sources : List Configuration) : Graph Coordinate :=
  let graph := nodes.foldl (fun graph c => graph.addNode c.coordinate) Graph.empty
  sources.foldl (fun graph c =>
    c.references.foldl (fun graph r => graph.addEdge c.coordinate r) graph) graph

/-- Puts configurations after those they refer to. Of several with one coordinate the first
counts; references to coordinates that are not among them are taken as satisfied.
-/
def orderConfigurations (environment : String) (configurations : List Configuration)
    : OrderedConfigurations :=
  let kept := firstOccurrences configurations
  let sorted := (referenceGraph kept kept).sort
  { environment
    order := sorted.order.filterMap fun coordinate =>
      kept.find? fun c => c.coordinate = coordinate
    errors := sorted.cycles.map fun member =>
      .configurationCycle environment member.node member.dependsOn }

/-- A warning for each configuration whose coordinate an earlier one has. -/
def duplicateWarnings (environment : String) (configurations : List Configuration)
    : List Warning :=
  let rec go (seen : List Coordinate) : List Configuration → List Warning
    | [] => []
    | c :: rest =>
        if c.coordinate ∈ seen then
          .duplicateConfiguration environment c.coordinate :: go seen rest
        else go (c.coordinate :: seen) rest
  go [] configurations

/-- Orders every environment by itself. -/
def orderEnvironments (configurations : SortedMap String (List Configuration))
    : SortedMap String OrderedConfigurations :=
  configurations.mapValues orderConfigurations

/-- Adds the projects a configuration refers to, its own apart, to those of its project. -/
def addDependencies (dependencies : SortedMap String (SortedSet String)) (c : Configuration)
    : SortedMap String (SortedSet String) :=
  let project := c.coordinate.project
  dependencies.update project .empty fun others =>
    c.references.foldl (fun others r =>
      if r.project = project then others else others.add r.project) others

/-- For each project that owns a configuration, the other projects its configurations refer to. -/
def projectDependencies (configurations : List Configuration)
    : SortedMap String (SortedSet String) :=
  configurations.foldl addDependencies .empty

/-- The projects outside cycles, dependencies first, and an error for each inside one. -/
structure OrderedProjects where
  environment : String
  order : List String
  errors : List OrderError
deriving DecidableEq, Inhabited

/-- A graph with one node for each key and its dependencies as edges. -/
def projectGraph (dependencies : SortedMap String (SortedSet String)) : Graph String :=
  dependencies.entries.foldl (fun graph e =>
    e.2.keys.foldl (fun graph other => graph.addEdge e.1 other) (graph.addNode e.1)) Graph.empty

/-- Puts projects after those they depend on; a dependency that is no key is taken as satisfied. -/
def orderProjects (environment : String) (dependencies : SortedMap String (SortedSet String))
    : OrderedProjects :=
  let sorted := (projectGraph dependencies).sort
  { environment
    order := sorted.order
    errors := sorted.cycles.map fun member =>
      .projectCycle environment member.node member.dependsOn }

end Rollout
