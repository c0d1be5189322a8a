import Rollout.Project
import Rollout.Proofs.DeploymentOrder
import Rollout.Proofs.Faithful
import Rollout.Proofs.Loading
import Rollout.Proofs.Repetition

/-!
What holds of every project that is loaded: it owns its configurations, no two of an environment
share a coordinate, and it depends on exactly the other projects that they refer to.
-/

namespace Rollout

open Batch

-----------------------------------------------------------------------------------------
-- The configurations of a directory
-----------------------------------------------------------------------------------------

/-- A configuration that the context builds of a definition, for one of its environments. -/
def LoadContext.Builds (context : LoadContext) (c : Configuration) : Prop :=
  ∃ path definition, ∃ environment ∈ context.environments,
    (context.expansion path definition).build environment = .ok c

/-- A configuration belongs to the project and the environment it was loaded for. -/
structure LoadContext.Owns (context : LoadContext) (c : Configuration) : Prop where
  project : c.coordinate.project = context.project
  environment : ∃ environment ∈ context.environments, c.environment = environment.name

/-- A definition is expanded to a configuration with its coordinate, for the environment. -/
theorem Expansion.build_eq_ok {e : Expansion} {environment : Environment} {c : Configuration}
    (built : e.build environment = .ok c)
    : c.coordinate = e.coordinate ∧ c.environment = environment.name := by
  obtain ⟨_, _, _, _, _, rfl⟩ := build_eq_ok_iff.mp built
  exact ⟨rfl, rfl⟩

namespace LoadContext

variable {context : LoadContext} {configurations : List Configuration} {c : Configuration}

/-- All configurations of a directory are built of its definitions. -/
theorem builds_of_loadDirectory (loaded : context.loadDirectory = .ok configurations)
    (member : c ∈ configurations)
    : context.Builds c := by
  obtain ⟨path, definition, environment, known, built, _⟩ := built_of_loadDirectory loaded member
  exact ⟨path, definition, environment, known, built⟩

/-- What a context builds belongs to its project. -/
theorem Builds.owns (built : context.Builds c) : context.Owns c := by
  obtain ⟨path, definition, environment, known, done⟩ := built
  obtain ⟨coordinate, here⟩ := Expansion.build_eq_ok done
  exact ⟨congrArg Coordinate.project coordinate, environment, known, here⟩

/-- What a context builds with faithful decoders has faithful parameters. -/
theorem Builds.faithful (built : context.Builds c) (faithful : context.decoders.Faithful)
    : ∀ parameter ∈ c.parameters.values, parameter.Faithful := by
  obtain ⟨path, definition, environment, _, done⟩ := built
  exact Expansion.faithful_of_build faithful done

end LoadContext

-----------------------------------------------------------------------------------------
-- Coherent projects
-----------------------------------------------------------------------------------------

/-- A project as loading makes it. -/
structure Project.Coherent (project : Project) : Prop where
  owned : ∀ environment, ∀ c ∈ project.configurationsFor environment,
    c.coordinate.project = project.id
  assigned : ∀ environment, ∀ c ∈ project.configurationsFor environment,
    c.environment = environment
  unique : ∀ environment,
    ((project.configurationsFor environment).map Configuration.coordinate).Nodup
  rollup : ∀ environment other,
    other ∈ (project.dependenciesIn environment).keys
    ↔ ∃ c ∈ project.configurationsFor environment,
        ∃ r ∈ c.references, r.project ≠ project.id ∧ r.project = other

namespace Project

/-- Under the name of each environment its configurations are held, and nothing else is. -/
theorem get?_byEnvironment {environments : List Environment}
    {configurations held : List Configuration} {environment : String}
    : (byEnvironment environments configurations).get? environment = some held
      ↔ environment ∈ environments.map Environment.name
        ∧ held = configurations.filter (·.environment = environment) := by
  have named : byEnvironment environments configurations
      = .ofList ((environments.map Environment.name).map fun name =>
          (name, configurations.filter (·.environment = name))) := by
    rw [byEnvironment, List.map_map]
    rfl
  rw [named, SortedMap.get?_ofList_map]

/-- Without a fault no coordinate occurs twice in an environment. -/
theorem unique_of_duplicateFaults {configurations : SortedMap String (List Configuration)}
    (faultless : duplicateFaults configurations = []) {environment : String}
    {held : List Configuration} (found : configurations.get? environment = some held)
    : (held.map Configuration.coordinate).Nodup := by
  have entry := SortedMap.get?_eq_some_iff.mp found
  have none := List.flatMap_eq_nil_iff.mp faultless _ entry
  exact repeated_eq_nil_iff.mp (List.map_eq_nil_iff.mp none)

theorem mem_configurationsFor {project : Project} {environment : String} {c : Configuration}
    : c ∈ project.configurationsFor environment
      ↔ ∃ held, project.configurations.get? environment = some held ∧ c ∈ held := by
  rw [configurationsFor]
  cases project.configurations.get? environment <;> simp

/-- A project holds configurations that it is made of, under their environments. -/
theorem mem_of_ofConfigurations {id : String} {environments : List Environment}
    {configurations : List Configuration} {project : Project}
    (made : ofConfigurations id environments configurations = .ok project) {environment : String}
    {c : Configuration} (member : c ∈ project.configurationsFor environment)
    : c ∈ configurations ∧ c.environment = environment := by
  simp only [ofConfigurations] at made
  split at made
  · cases made
    obtain ⟨held, found, inside⟩ := mem_configurationsFor.mp member
    rw [(get?_byEnvironment.mp found).2, List.mem_filter, decide_eq_true_eq] at inside
    exact inside
  · cases made

/-- A project made of configurations that belong to it is coherent. -/
theorem coherent_of_ofConfigurations {id : String} {environments : List Environment}
    {configurations : List Configuration} {project : Project}
    (owned : ∀ c ∈ configurations, c.coordinate.project = id)
    (made : ofConfigurations id environments configurations = .ok project)
    : project.Coherent := by
  have listed {environment : String} {c : Configuration}
      (member : c ∈ project.configurationsFor environment)
      : c ∈ configurations ∧ c.environment = environment :=
    mem_of_ofConfigurations made member
  simp only [ofConfigurations] at made
  split at made
  next faultless =>
    cases made
    constructor
    case owned => exact fun environment c member => owned c (listed member).1
    case assigned => exact fun environment c member => (listed member).2
    case unique =>
      intro environment
      rw [configurationsFor]
      cases found : (byEnvironment environments configurations).get? environment with
      | none => exact .nil
      | some held => exact unique_of_duplicateFaults faultless found
    case rollup =>
      intro environment other
      rw [dependenciesIn, configurationsFor, SortedMap.get?_mapValues]
      cases found : (byEnvironment environments configurations).get? environment with
      | none => simp
      | some held =>
          apply mem_keys_projectDependencies.trans
          refine exists_congr fun c => and_congr_right fun member => ?_
          exact and_iff_right (owned c (listed (mem_configurationsFor.mpr ⟨held, found, member⟩)).1)
  next => cases made

end Project

-----------------------------------------------------------------------------------------
-- The projects of a manifest
-----------------------------------------------------------------------------------------

/-- A project that is loaded holds nothing but what its context builds. -/
theorem LoadContext.builds_of_loadProject {context : LoadContext} {project : Project}
    (loaded : context.loadProject = .ok project) {environment : String} {c : Configuration}
    (member : c ∈ project.configurationsFor environment)
    : context.Builds c := by
  unfold loadProject at loaded
  split at loaded
  · cases loaded
  next directory =>
    exact builds_of_loadDirectory directory (Project.mem_of_ofConfigurations loaded member).1

/-- A project that is loaded is coherent. -/
theorem LoadContext.coherent_of_loadProject {context : LoadContext} {project : Project}
    (loaded : context.loadProject = .ok project)
    : project.Coherent := by
  unfold loadProject at loaded
  split at loaded
  · cases loaded
  next configurations directory =>
    exact Project.coherent_of_ofConfigurations
      (fun c member => (builds_of_loadDirectory directory member).owns.project) loaded

/-- A project that is loaded is named as its context says. -/
theorem LoadContext.id_of_loadProject {context : LoadContext} {project : Project}
    (loaded : context.loadProject = .ok project)
    : project.id = context.project := by
  unfold loadProject at loaded
  split at loaded
  · cases loaded
  · simp only [Project.ofConfigurations] at loaded
    split at loaded
    · cases loaded
      rfl
    · cases loaded

/-- Selecting projects leaves others out and adds none. -/
theorem Project.select_sublist (projects : List Project) (requested : List String)
    : (Project.select projects requested).Sublist projects := by
  unfold select
  split
  · exact .refl _
  · exact List.filter_sublist

namespace Manifest

variable {manifest : Manifest} {root : Path} {base : LoadContext} {filter : ProjectFilter}
variable {projects : List Project}

/-- The contexts of a manifest are those of its projects, for the environments selected. -/
theorem contexts_eq_ok {contexts : List LoadContext}
    (known : manifest.contexts root base filter = .ok contexts)
    : ∃ environments, contexts = manifest.projects.map (projectContext root base environments) := by
  simp only [Manifest.contexts] at known
  cases selected : manifest.selectEnvironments filter.environments with
  | error faults => simp [selected, bind, Except.bind] at known
  | ok environments =>
      simp only [selected, bind, Except.bind] at known
      split at known
      · cases known
        exact ⟨environments, rfl⟩
      · cases known

/-- Nothing is loaded for a filter that names what is unknown. -/
theorem loadProjects_of_unknown {faults : List LoadError}
    (unknown : manifest.contexts root base filter = .error faults)
    : manifest.loadProjects root base filter = .error faults := by
  rw [loadProjects, unknown]
  rfl

/-- What is loaded is selected from the projects that load, if nothing is wrong with any project. -/
theorem loadProjects_of_contexts {contexts : List LoadContext}
    (known : manifest.contexts root base filter = .ok contexts)
    : manifest.loadProjects root base filter
      = (collect (contexts.map LoadContext.loadProject)).map
          (Project.select · filter.projects) := by
  simp only [loadProjects, known, bind, Except.bind, pure, Except.pure]
  cases collect (contexts.map LoadContext.loadProject) <;> rfl

/-- The projects that are loaded are those selected of all that the contexts give. -/
theorem loadProjects_eq_ok (loaded : manifest.loadProjects root base filter = .ok projects)
    : ∃ contexts all, manifest.contexts root base filter = .ok contexts
        ∧ collect (contexts.map LoadContext.loadProject) = .ok all
        ∧ projects = Project.select all filter.projects := by
  cases known : manifest.contexts root base filter with
  | error faults =>
      rw [loadProjects_of_unknown known] at loaded
      cases loaded
  | ok contexts =>
      rw [loadProjects_of_contexts known] at loaded
      cases collected : collect (contexts.map LoadContext.loadProject) with
      | error faults =>
          rw [collected] at loaded
          cases loaded
      | ok all =>
          rw [collected] at loaded
          cases loaded
          exact ⟨contexts, all, rfl, collected, rfl⟩

/-- Every project that is loaded is loaded in a context that has all but its place from the base. -/
theorem exists_projectContext (loaded : manifest.loadProjects root base filter = .ok projects)
    {project : Project} (member : project ∈ projects)
    : ∃ environments entry,
        (projectContext root base environments entry).loadProject = .ok project := by
  obtain ⟨contexts, all, known, collected, rfl⟩ := loadProjects_eq_ok loaded
  obtain ⟨environments, rfl⟩ := contexts_eq_ok known
  have inside := (Project.select_sublist all filter.projects).subset member
  obtain ⟨context, listed, done⟩ := List.mem_map.mp ((mem_of_collect_eq_ok collected).mp inside)
  obtain ⟨entry, _, rfl⟩ := List.mem_map.mp listed
  exact ⟨environments, entry, done⟩

/-- Every project of a manifest that is loaded is loaded from a directory. -/
theorem exists_loadProject (loaded : manifest.loadProjects root base filter = .ok projects)
    {project : Project} (member : project ∈ projects)
    : ∃ context : LoadContext, context.loadProject = .ok project := by
  obtain ⟨environments, entry, done⟩ := exists_projectContext loaded member
  exact ⟨_, done⟩

theorem coherent_of_loadProjects (loaded : manifest.loadProjects root base filter = .ok projects)
    : ∀ project ∈ projects, project.Coherent := by
  intro project member
  obtain ⟨context, done⟩ := exists_loadProject loaded member
  exact context.coherent_of_loadProject done

/-- With faithful decoders all parameters of the projects that are loaded are faithful. -/
theorem faithful_of_loadProjects (faithful : base.decoders.Faithful)
    (loaded : manifest.loadProjects root base filter = .ok projects)
    {project : Project} (member : project ∈ projects) {environment : String} {c : Configuration}
    (held : c ∈ project.configurationsFor environment)
    : ∀ parameter ∈ c.parameters.values, parameter.Faithful := by
  obtain ⟨environments, entry, done⟩ := exists_projectContext loaded member
  exact (LoadContext.builds_of_loadProject done held).faithful faithful

/-- The contexts that give a project give one of their name, by induction on the contexts. -/
theorem ids_filterMap_sublist (contexts : List LoadContext)
    : ((contexts.filterMap fun context => context.loadProject.toOption).map Project.id).Sublist
        (contexts.map LoadContext.project) := by
  induction contexts with
  | nil => exact .slnil
  | cons context rest ih =>
      cases loaded : context.loadProject with
      | error faults => simpa [loaded, Except.toOption] using ih.cons context.project
      | ok project =>
          have named := context.id_of_loadProject loaded
          simpa [loaded, Except.toOption, named] using ih

/-- The projects that are loaded stand in the order of the manifest, under the
names they have there.
-/
theorem ids_sublist (loaded : manifest.loadProjects root base filter = .ok projects)
    : (projects.map Project.id).Sublist (manifest.projects.map ProjectEntry.name) := by
  obtain ⟨contexts, all, known, collected, rfl⟩ := loadProjects_eq_ok loaded
  obtain ⟨environments, rfl⟩ := contexts_eq_ok known
  obtain ⟨_, rfl⟩ := collect_eq_ok_iff.mp collected
  apply ((Project.select_sublist _ filter.projects).map _).trans
  have named :=
    ids_filterMap_sublist (manifest.projects.map (projectContext root base environments))
  rw [List.map_map (f := projectContext root base environments)] at named
  rwa [List.filterMap_map]

end Manifest

end Rollout
