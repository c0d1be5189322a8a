import Rollout.DeploymentOrder
import Rollout.Loading
import Rollout.Manifest

/-!
Projects: the configurations of one directory by environment, and the other projects that they refer
to.
-/

namespace Rollout

structure Project where
  id : String
  configurations : SortedMap String (List Configuration)
  dependencies : SortedMap String (SortedSet String)
deriving Inhabited

namespace Project

def configurationsFor (project : Project) (environment : String) : List Configuration :=
  (project.configurations.get? environment).getD []

def dependenciesIn (project : Project) (environment : String) : SortedSet String :=
  (project.dependencies.get? environment).getD .empty

def dependsOn (project : Project) (environment other : String) : Bool :=
  (project.dependenciesIn environment).contains other

/-- The ids of all projects it depends on, in whatever environment. -/
def allDependencies (project : Project) : List String :=
  project.dependencies.values.flatMap SortedMap.keys

/-- Configurations under the name of their environment. -/
def byEnvironment (environments : List Environment) (configurations : List Configuration)
    : SortedMap String (List Configuration) :=
  .ofList (environments.map fun e =>
    (e.name, configurations.filter (·.environment = e.name)))

/-- One error for each coordinate that occurs more than once in an environment. -/
def duplicateFaults (configurations : SortedMap String (List Configuration)) : List LoadError :=
  configurations.entries.flatMap fun (environment, cs) =>
    (repeated (cs.map Configuration.coordinate)).map (.duplicateCoordinate environment)

/-- The project made of these configurations. -/
def ofConfigurations (id : String) (environments : List Environment)
    (configurations : List Configuration) : Except (List LoadError) Project :=
  let configurations := byEnvironment environments configurations
  match duplicateFaults configurations with
  | [] =>
      let own (cs : List Configuration) : SortedSet String :=
        ((projectDependencies cs).get? id).getD .empty
      .ok ⟨id, configurations, configurations.mapValues fun _ cs => own cs⟩
  | faults => .error faults

end Project

/-- The project in the directory of a context. -/
def LoadContext.loadProject (context : LoadContext) : Except (List LoadError) Project :=
  match context.loadDirectory with
  | .error faults => .error faults
  | .ok configurations =>
      Project.ofConfigurations context.project context.environments configurations

/-- Restricts environments and projects to those named; no name stands for all. -/
structure ProjectFilter where
  environments : List String
  projects : List String
deriving DecidableEq, Repr, Inhabited

namespace Project

/-- The projects that one project depends on. Of two with one id the later counts. -/
def neighbours (projects : List Project) (id : String) : List String :=
  match projects.reverse.find? (·.id = id) with
  | some project => project.allDependencies
  | none => []

/-- A selection under way. -/
structure Selection where
  selected : SortedSet String
  /-- The ids that are still to be looked at, the latest first. One id may stand here many times. -/
  pending : List String

namespace Selection

/-- Selects the latest pending id, unless it is selected already, and puts off what it depends on.
-/
def step (projects : List Project) (s : Selection) : Selection :=
  match s.pending with
  | [] => s
  | id :: pending =>
      if s.selected.contains id then { s with pending }
      else
        let selected := s.selected.add id
        let further := (neighbours projects id).filter fun other => !selected.contains other
        { selected, pending := further.reverse ++ pending }

def start (requested : List String) : Selection where
  selected := .empty
  pending := requested.reverse

/-- A selection after so many steps. -/
def after (projects : List Project) (requested : List String) (steps : Nat) : Selection :=
  Nat.repeat (step projects) steps (start requested)

end Selection

/-- The steps of a whole selection: one for each id that is requested or depended on. -/
def selectionSteps (projects : List Project) (requested : List String) : Nat :=
  requested.length + (projects.flatMap allDependencies).length

/-- The ids requested and all that they depend on, directly or not. -/
def closure (projects : List Project) (requested : List String) : SortedSet String :=
  (Selection.after projects requested (selectionSteps projects requested)).selected

/-- The requested projects and all that they depend on; all projects if none is requested. -/
def select (projects : List Project) (requested : List String) : List Project :=
  if requested.isEmpty then projects
  else
    let selected := closure projects requested
    projects.filter fun project => selected.contains project.id

end Project

namespace Manifest

/-- The environments with these names, in the order of the manifest. -/
def selectEnvironments (manifest : Manifest) (names : List String)
    : Except (List LoadError) (List Environment) :=
  let all := manifest.environments
  if names.isEmpty then .ok all
  else
    match names.filter fun name => !all.any (·.name = name) with
    | [] => .ok (all.filter fun e => names.contains e.name)
    | unknown => .error (unknown.map .unknownEnvironment)

def unknownProjects (manifest : Manifest) (names : List String) : List LoadError :=
  (names.filter fun name => !manifest.projects.any (·.name = name)).map .unknownProject

/-- The context in which a project of the manifest is loaded. -/
def projectContext (root : Path) (base : LoadContext) (environments : List Environment)
    (project : ProjectEntry) : LoadContext :=
  { base with
    project := project.name
    directory := projectDirectory root project
    environments }

/-- The contexts in which the projects of the manifest are loaded, if the filter names nothing that
is unknown.
-/
def contexts (manifest : Manifest) (root : Path) (base : LoadContext) (filter : ProjectFilter)
    : Except (List LoadError) (List LoadContext) := do
  let environments ← manifest.selectEnvironments filter.environments
  match manifest.unknownProjects filter.projects with
  | [] => .ok (manifest.projects.map (projectContext root base environments))
  | unknown => .error unknown

/-- The projects that the filter selects, together with all that they depend on in an environment
that it selects. All projects of the manifest are loaded for this.
-/
def loadProjects (manifest : Manifest) (root : Path) (base : LoadContext) (filter : ProjectFilter)
    : Except (List LoadError) (List Project) := do
  let contexts ← manifest.contexts root base filter
  -- What a project depends on is known only once it is loaded.
  let projects ← Batch.collect (contexts.map LoadContext.loadProject)
  return Project.select projects filter.projects

def loadWarnings (manifest : Manifest) (root : Path) (base : LoadContext) (filter : ProjectFilter)
    : List Warning :=
  match manifest.contexts root base filter with
  | .error _ => []
  | .ok contexts => contexts.flatMap LoadContext.directoryWarnings

end Manifest

end Rollout
