import Rollout.Proofs.Loading
import Rollout.Proofs.Plan.Order
import Rollout.Proofs.Selection

/-!
Loading for some of the environments of a manifest. What is loaded is what is loaded for all of
them, seen in those environments only, since every environment is expanded and checked by itself.
-/

namespace Rollout

open Batch

/-- A project as it is in the named environments. -/
def Project.within (project : Project) (names : List String) : Project :=
  { project with
    configurations := project.configurations.filterKeys names.contains
    dependencies := project.dependencies.filterKeys names.contains }

/-- A context with the named ones of its environments. -/
def LoadContext.within (context : LoadContext) (names : List String) : LoadContext :=
  { context with environments := context.environments.filter (names.contains ·.name) }

/-- The configurations for the named environments. -/
def Configuration.within (configurations : List Configuration) (names : List String)
    : List Configuration :=
  configurations.filter (names.contains ·.environment)

-----------------------------------------------------------------------------------------
-- One project
-----------------------------------------------------------------------------------------

namespace Project

variable {environments : List Environment} {configurations : List Configuration}
variable {names : List String}

/-- Under a kept name stands what stands there anyway, under any other nothing. -/
theorem byEnvironment_within
    : byEnvironment (environments.filter (names.contains ·.name))
        (Configuration.within configurations names)
      = (byEnvironment environments configurations).filterKeys names.contains := by
  apply SortedMap.ext_get?
  intro name
  apply Option.ext
  intro held
  rw [SortedMap.get?_filterKeys, get?_byEnvironment]
  have listed : name ∈ (environments.filter (names.contains ·.name)).map Environment.name
      ↔ names.contains name = true ∧ name ∈ environments.map Environment.name := by
    simp only [List.mem_map, List.mem_filter]
    grind
  rw [listed]
  cases named : names.contains name with
  | false => simp
  | true =>
      have same : (Configuration.within configurations names).filter (·.environment = name)
          = configurations.filter (·.environment = name) := by
        rw [Configuration.within, List.filter_filter]
        refine List.filter_congr fun c _ => ?_
        by_cases here : c.environment = name
        · rw [here, named, Bool.and_true]
        · simp only [here, decide_false, Bool.false_and]
      rw [same, if_pos rfl, get?_byEnvironment]
      simp

/-- What is wrong with no environment is wrong with none of those that are kept. -/
theorem duplicateFaults_filterKeys {held : SortedMap String (List Configuration)}
    (faultless : duplicateFaults held = []) (keep : String → Bool)
    : duplicateFaults (held.filterKeys keep) = [] := by
  rw [duplicateFaults, List.flatMap_eq_nil_iff] at faultless ⊢
  exact fun entry member => faultless entry (List.mem_of_mem_filter member)

/-- A project made for the named environments is the one made for all of them, seen in those. -/
theorem ofConfigurations_within {id : String} {project : Project}
    (made : ofConfigurations id environments configurations = .ok project)
    : ofConfigurations id (environments.filter (names.contains ·.name))
        (Configuration.within configurations names)
      = .ok (project.within names) := by
  simp only [ofConfigurations] at made ⊢
  rw [byEnvironment_within]
  split at made
  next faultless =>
    cases made
    rw [duplicateFaults_filterKeys faultless, SortedMap.mapValues_filterKeys]
    rfl
  next => cases made

theorem ne_nil_of_ofConfigurations {id : String} {faults : List LoadError}
    (failed : ofConfigurations id environments configurations = .error faults)
    : faults ≠ [] := by
  simp only [ofConfigurations] at failed
  split at failed
  · cases failed
  next some =>
    cases failed
    exact some

end Project

namespace LoadContext

variable {context : LoadContext} {names : List String}
variable {files : List (Path × List Definition)} {configurations : List Configuration}

/-- Whether a result is for one of the named environments. -/
def isWithin (names : List String) : Except (List LoadError) Configuration → Bool
  | .ok c => names.contains c.environment
  | .error _ => true

theorem expansions_within (expanded : context.expansions files = configurations.map .ok)
    : (context.within names).expansions files
      = (Configuration.within configurations names).map .ok := by
  have kept : (context.expansions files).filter (isWithin names)
      = (Configuration.within configurations names).map .ok := by
    rw [expanded, List.filter_map]
    rfl
  rw [← kept]
  simp only [expansions, List.filter_flatMap, List.filter_map]
  refine List.flatMap_congr fun file member => List.flatMap_congr fun definition written => ?_
  refine congrArg (List.map _) (List.filter_congr fun environment known => ?_)
  have attempted := mem_expansions.mpr ⟨file, member, definition, written, environment, known, rfl⟩
  rw [expanded] at attempted
  obtain ⟨c, _, built⟩ := List.mem_map.mp attempted
  rw [Function.comp_apply, ← built, isWithin, (Expansion.build_eq_ok built.symm).2]

theorem loadDirectory_within (loaded : context.loadDirectory = .ok configurations)
    : (context.within names).loadDirectory
      = .ok (Configuration.within configurations names) := by
  obtain ⟨files, holds, knows, expanded⟩ := loadDirectory_eq_ok_iff.mp loaded
  exact loadDirectory_eq_ok_iff.mpr
    ⟨files, ⟨holds.listed, holds.read, holds.nonempty⟩, knows, expansions_within expanded⟩

theorem loadProject_within {project : Project} (loaded : context.loadProject = .ok project)
    : (context.within names).loadProject = .ok (project.within names) := by
  unfold loadProject at loaded ⊢
  split at loaded
  · cases loaded
  next directory =>
    rw [loadDirectory_within directory]
    exact Project.ofConfigurations_within loaded

/-- A project that is not loaded says why. -/
theorem ne_nil_of_loadProject {faults : List LoadError}
    (failed : context.loadProject = .error faults)
    : faults ≠ [] := by
  unfold loadProject at failed
  split at failed
  next directory =>
    cases failed
    exact ne_nil_of_collect (context.loadDirectory_eq ▸ directory)
  · exact Project.ne_nil_of_ofConfigurations failed

end LoadContext

-----------------------------------------------------------------------------------------
-- All projects of a manifest
-----------------------------------------------------------------------------------------

namespace Manifest

variable {manifest : Manifest} {root : Path} {base : LoadContext} {names : List String}

theorem selectEnvironments_of_known (asked : names ≠ [])
    (known : ∀ name ∈ names, name ∈ manifest.environments.map Environment.name)
    : manifest.selectEnvironments names
      = .ok (manifest.environments.filter (names.contains ·.name)) := by
  have none : names.filter (fun name => !manifest.environments.any (·.name = name)) = [] := by
    simpa [List.filter_eq_nil_iff] using known
  rw [selectEnvironments, if_neg (by rwa [List.isEmpty_iff]), none]

/-- Naming environments changes nothing about the contexts but their environments. -/
theorem contexts_within (asked : names ≠ [])
    (known : ∀ name ∈ names, name ∈ manifest.environments.map Environment.name)
    {contexts : List LoadContext} (selected : manifest.contexts root base ⟨[], []⟩ = .ok contexts)
    : manifest.contexts root base ⟨names, []⟩ = .ok (contexts.map (·.within names)) := by
  have all : contexts = manifest.projects.map (projectContext root base manifest.environments) := by
    cases selected
    rfl
  rw [Manifest.contexts, selectEnvironments_of_known asked known, all, List.map_map]
  rfl

/-- Naming environments of the manifest cuts what is loaded and changes nothing else. Where all
projects load for all environments, they load for the named ones, in the same order, and each is
what it was without what it held for the other environments.
-/
theorem loadProjects_within {projects : List Project} (asked : names ≠ [])
    (known : ∀ name ∈ names, name ∈ manifest.environments.map Environment.name)
    (loaded : manifest.loadProjects root base ⟨[], []⟩ = .ok projects)
    : manifest.loadProjects root base ⟨names, []⟩ = .ok (projects.map (·.within names)) := by
  obtain ⟨contexts, _, selected, collected, rfl⟩ := loadProjects_eq_ok loaded
  rw [loadProjects_all (contexts_within asked known selected)]
  have reported : ∀ faults, .error faults ∈ contexts.map LoadContext.loadProject → faults ≠ [] := by
    intro faults failed
    obtain ⟨context, _, done⟩ := List.mem_map.mp failed
    exact context.ne_nil_of_loadProject done
  have each := eq_map_ok_of_collect reported collected
  have cut : (contexts.map (·.within names)).map LoadContext.loadProject
      = (contexts.map LoadContext.loadProject).map (Except.map (Project.within · names)) := by
    rw [List.map_map, List.map_map]
    refine List.map_congr_left fun context member => ?_
    have succeeds : context.loadProject ∈ projects.map .ok := each ▸ List.mem_map_of_mem member
    obtain ⟨project, _, done⟩ := List.mem_map.mp succeeds
    rw [Function.comp_apply, Function.comp_apply, ← done, context.loadProject_within done.symm]
    rfl
  rw [cut, each, ← collect_map_ok (projects.map (·.within names)), List.map_map, List.map_map]
  rfl

open EnvironmentPlan

/-- A manifest of the shop's projects, for two environments. -/
def stagedShop : Manifest :=
  ⟨[⟨"checkout", none⟩, ⟨"platform", none⟩], [⟨"first", ["dev"]⟩, ⟨"last", ["prod"]⟩]⟩

/-- For one environment of the shop both projects are loaded, with their configurations and what
they depend on in this environment alone.
-/
theorem loadProjects_within_prod
    : ∃ projects,
        stagedShop.loadProjects .empty (.new shopDisk "" .empty) ⟨["prod"], []⟩ = .ok projects
        ∧ projects.map Project.id = ["checkout", "platform"]
        ∧ (∀ project ∈ projects,
            project.configurations.keys = ["prod"] ∧ project.dependencies.keys = ["prod"]
            ∧ (project.configurationsFor "prod").length = 1)
        ∧ projects.map (·.dependsOn "prod" "platform") = [true, false] := by
  have facts : (stagedShop.loadProjects .empty (.new shopDisk "" .empty) ⟨[], []⟩).toOption.any
      (fun all =>
        let projects := all.map (·.within ["prod"])
        projects.map Project.id = ["checkout", "platform"]
        ∧ (∀ project ∈ projects,
            project.configurations.keys = ["prod"] ∧ project.dependencies.keys = ["prod"]
            ∧ (project.configurationsFor "prod").length = 1)
        ∧ projects.map (·.dependsOn "prod" "platform") = [true, false]) = true := by
    decide +kernel
  obtain ⟨all, loaded, fact⟩ := exists_ok_of_any facts
  have cut := loadProjects_within (List.cons_ne_nil "prod" []) (by decide) loaded
  exact ⟨_, cut, of_decide_eq_true fact⟩

end Manifest

end Rollout
