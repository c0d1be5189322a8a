import Mathlib.Data.List.Perm.Basic
import Rollout.Proofs.Project

/-!
How a project is made of the configurations of its directory. It is not made if two configurations
of one environment share a coordinate, and then every such coordinate is reported once. Otherwise
the configurations are grouped by environment, and so are the projects that they refer to.
-/

namespace Rollout

/-- Lists grouped by a key hold the same as the list that they are taken from, if every key that
occurs is among the keys; by induction on these.
-/
theorem perm_flatMap_filter {κ α : Type _} [DecidableEq κ] {key : α → κ} {keys : List κ}
    {xs : List α} (distinct : keys.Nodup) (covered : ∀ x ∈ xs, key x ∈ keys)
    : (keys.flatMap fun k => xs.filter (key · = k)).Perm xs := by
  induction keys generalizing xs with
  | nil =>
      obtain rfl : xs = [] := List.eq_nil_iff_forall_not_mem.mpr fun x member => by
        cases covered x member
      rfl
  | cons first rest ih =>
      obtain ⟨new, later⟩ := List.nodup_cons.mp distinct
      have others : (rest.flatMap fun k => xs.filter (key · = k))
          = rest.flatMap fun k =>
              (xs.filter fun x => !decide (key x = first)).filter (key · = k) := by
        refine List.flatMap_congr fun k member => ?_
        rw [List.filter_filter]
        refine List.filter_congr fun x _ => ?_
        have apart : k ≠ first := fun same => new (same ▸ member)
        by_cases same : key x = k <;> simp [same, apart]
      rw [List.flatMap_cons, others]
      refine ((ih later fun x member => ?_).append_left _).trans (List.filter_append_perm _ xs)
      obtain ⟨inside, apart⟩ := List.mem_filter.mp member
      exact (List.mem_cons.mp (covered x inside)).resolve_left (by simpa using apart)

-----------------------------------------------------------------------------------------
-- Clashes
-----------------------------------------------------------------------------------------

variable {configurations : List Configuration} {environments : List Environment}
variable {environment : String} {coordinate : Coordinate}

/-- Two configurations of one environment share a coordinate. -/
def Clash (configurations : List Configuration) (environment : String) (coordinate : Coordinate)
    : Prop :=
  ∃ c d, [c, d].Sublist configurations
    ∧ (c.environment = environment ∧ c.coordinate = coordinate)
    ∧ d.environment = environment ∧ d.coordinate = coordinate

/-- The coordinates of the configurations of one environment, in their order. -/
def coordinatesIn (configurations : List Configuration) (environment : String) : List Coordinate :=
  (configurations.filter (·.environment = environment)).map Configuration.coordinate

theorem clash_iff
    : Clash configurations environment coordinate
      ↔ 2 ≤ (coordinatesIn configurations environment).count coordinate := by
  rw [← List.replicate_sublist_iff, coordinatesIn, List.sublist_map_iff]
  constructor
  · rintro ⟨c, d, inside, ⟨here, rfl⟩, there, same⟩
    refine ⟨[c, d], ?_, by simp [List.replicate, same]⟩
    simpa [here, there] using inside.filter (·.environment = environment)
  · rintro ⟨pair, inside, two⟩
    obtain ⟨c, rest, rfl, first, more⟩ := List.map_eq_cons_iff.mp two.symm
    obtain ⟨d, rest, rfl, second, nothing⟩ := List.map_eq_cons_iff.mp more
    obtain rfl := List.map_eq_nil_iff.mp nothing
    have assigned (e : Configuration) (member : e ∈ [c, d]) : e.environment = environment := by
      simpa using List.of_mem_filter (inside.subset member)
    exact ⟨c, d, inside.trans List.filter_sublist, ⟨assigned c (by simp), first⟩,
      assigned d (by simp), second⟩

/-- Where every configuration belongs to one of the environments, so does what clashes. -/
theorem Clash.named (clash : Clash configurations environment coordinate)
    (assigned : ∀ c ∈ configurations, c.environment ∈ environments.map Environment.name)
    : environment ∈ environments.map Environment.name := by
  obtain ⟨c, d, inside, ⟨rfl, _⟩, _⟩ := clash
  exact assigned c (inside.subset List.mem_cons_self)

namespace Project

/-- The coordinates that clash in one of these environments, environment after environment. -/
def clashes (configurations : List Configuration) (names : List String)
    : List (String × Coordinate) :=
  names.flatMap fun name => (repeated (coordinatesIn configurations name)).map (Prod.mk name)

theorem mem_clashes {names : List String}
    : (environment, coordinate) ∈ clashes configurations names
      ↔ environment ∈ names ∧ Clash configurations environment coordinate := by
  simp only [clashes, List.mem_flatMap, List.mem_map, Prod.mk.injEq, mem_repeated, clash_iff]
  constructor
  · rintro ⟨name, listed, other, twice, rfl, rfl⟩
    exact ⟨listed, twice⟩
  · rintro ⟨listed, twice⟩
    exact ⟨environment, listed, coordinate, twice, rfl, rfl⟩

/-- What clashes in environments in ascending order, and in each environment in the order of the
second configurations.
-/
theorem clashes_ordered {names : List String}
    (ascending : names.Pairwise fun a b => compare a b = .lt)
    : (clashes configurations names).Pairwise fun a b =>
        compare a.1 b.1 = .lt
        ∨ a.1 = b.1 ∧ ∃ i j, i < j ∧ MetAgain (coordinatesIn configurations a.1) i a.2
            ∧ MetAgain (coordinatesIn configurations a.1) j b.2 := by
  refine List.pairwise_flatMap.mpr ⟨fun name _ => ?_, ascending.imp fun less => ?_⟩
  · exact List.pairwise_map.mpr ((repeated_ordered _).imp fun before => .inr ⟨rfl, before⟩)
  · intro a left b right
    obtain ⟨_, _, rfl⟩ := List.mem_map.mp left
    obtain ⟨_, _, rfl⟩ := List.mem_map.mp right
    exact .inl less

theorem nodup_clashes {names : List String} (distinct : names.Nodup)
    : (clashes configurations names).Nodup := by
  refine List.nodup_flatMap.mpr ⟨fun name _ => ?_, distinct.imp fun apart => ?_⟩
  · exact (nodup_repeated _).map fun _ _ same => (Prod.mk.inj same).2
  · intro a left right
    obtain ⟨_, _, rfl⟩ := List.mem_map.mp left
    obtain ⟨_, _, same⟩ := List.mem_map.mp right
    exact apart (Prod.mk.inj same).1.symm

/-- Under every name the configurations of that environment are held. -/
theorem entries_byEnvironment
    : (byEnvironment environments configurations).entries
      = (byEnvironment environments configurations).keys.map fun name =>
          (name, configurations.filter (·.environment = name)) := by
  rw [SortedMap.keys, List.map_map]
  refine ((List.map_congr_left fun e member => ?_).trans (List.map_id _)).symm
  have held := (get?_byEnvironment.mp (SortedMap.get?_eq_some_iff.mpr member)).2
  exact Prod.ext rfl held.symm

/-- One fault is reported for each clash. -/
theorem duplicateFaults_byEnvironment
    : duplicateFaults (byEnvironment environments configurations)
      = (clashes configurations (byEnvironment environments configurations).keys).map fun e =>
          .duplicateCoordinate e.1 e.2 := by
  rw [duplicateFaults, entries_byEnvironment, List.flatMap_map, clashes, List.map_flatMap]
  refine List.flatMap_congr fun name _ => ?_
  rw [List.map_map]
  rfl

theorem mem_keys_byEnvironment
    : environment ∈ (byEnvironment environments configurations).keys
      ↔ environment ∈ environments.map Environment.name := by
  simp only [SortedMap.mem_keys_iff, get?_byEnvironment, exists_and_left, exists_eq, and_true]

-----------------------------------------------------------------------------------------
-- Groups
-----------------------------------------------------------------------------------------

/-- A project that holds these configurations under the environments of a context. -/
structure Groups (project : Project) (context : LoadContext) (configurations : List Configuration)
    : Prop where
  id : project.id = context.project
  named : ∀ environment, environment ∈ project.configurations.keys
    ↔ environment ∈ context.environments.map Environment.name
  held : ∀ environment held, project.configurations.get? environment = some held →
    held = configurations.filter (·.environment = environment)
  complete : project.configurations.values.flatten.Perm configurations
  dependent : project.dependencies.keys = project.configurations.keys
  rollup : ∀ environment other,
    other ∈ (project.dependenciesIn environment).keys
    ↔ ∃ c ∈ configurations, c.environment = environment
        ∧ ∃ r ∈ c.references, r.project ≠ context.project ∧ r.project = other

/-- Nothing is lost or doubled under the names of the environments. -/
theorem perm_values_byEnvironment
    (assigned : ∀ c ∈ configurations, c.environment ∈ environments.map Environment.name)
    : (byEnvironment environments configurations).values.flatten.Perm configurations := by
  rw [SortedMap.values, entries_byEnvironment, List.map_map, ← List.flatMap_def]
  exact perm_flatMap_filter (SortedMap.keys_nodup _) fun c member =>
    mem_keys_byEnvironment.mpr (assigned c member)

/-- Without a clash the configurations make a project that holds them by environment. -/
theorem ofConfigurations_eq_ok {id : String} {project : Project}
    (made : ofConfigurations id environments configurations = .ok project)
    : duplicateFaults (byEnvironment environments configurations) = []
      ∧ project.id = id
      ∧ project.configurations = byEnvironment environments configurations
      ∧ project.dependencies.keys = project.configurations.keys := by
  simp only [ofConfigurations] at made
  split at made
  next faultless =>
    cases made
    exact ⟨faultless, rfl, rfl, by simp [SortedMap.keys, SortedMap.mapValues]⟩
  next => cases made

/-- Otherwise what is reported are the clashes, and there is one. -/
theorem ofConfigurations_eq_error_iff {id : String} {faults : List LoadError}
    : ofConfigurations id environments configurations = .error faults
      ↔ faults = duplicateFaults (byEnvironment environments configurations) ∧ faults ≠ [] := by
  simp only [ofConfigurations]
  split
  next faultless => simp [faultless]
  next some =>
    rw [Except.error.injEq]
    constructor
    · rintro rfl
      exact ⟨rfl, some⟩
    · exact fun both => both.1.symm

end Project

namespace LoadContext

variable {context : LoadContext}

theorem loadProject_of_loaded (loaded : context.loadDirectory = .ok configurations)
    : context.loadProject
      = Project.ofConfigurations context.project context.environments configurations := by
  rw [loadProject, loaded]

theorem assigned_of_loadDirectory (loaded : context.loadDirectory = .ok configurations)
    : ∀ c ∈ configurations, c.environment ∈ context.environments.map Environment.name := by
  intro c member
  obtain ⟨environment, known, named⟩ := (builds_of_loadDirectory loaded member).owns.environment
  exact List.mem_map.mpr ⟨environment, known, named.symm⟩

/-- A project that is made of loaded configurations groups them. -/
theorem groups_of_loadProject (loaded : context.loadDirectory = .ok configurations)
    {project : Project} (made : context.loadProject = .ok project)
    : project.Groups context configurations := by
  have coherent := context.coherent_of_loadProject made
  have assigned := assigned_of_loadDirectory loaded
  rw [loadProject_of_loaded loaded] at made
  obtain ⟨_, named, grouped, dependent⟩ := Project.ofConfigurations_eq_ok made
  have member (environment : String) (c : Configuration)
      : c ∈ project.configurationsFor environment
        ↔ c ∈ configurations ∧ c.environment = environment := by
    refine ⟨Project.mem_of_ofConfigurations made, ?_⟩
    rintro ⟨inside, rfl⟩
    rw [Project.mem_configurationsFor, grouped]
    exact ⟨_, Project.get?_byEnvironment.mpr ⟨assigned c inside, rfl⟩, by simp [inside]⟩
  constructor
  case id => exact named
  case named =>
    intro environment
    rw [grouped, Project.mem_keys_byEnvironment]
  case held =>
    intro environment held found
    exact (Project.get?_byEnvironment.mp (grouped ▸ found)).2
  case complete =>
    rw [grouped]
    exact Project.perm_values_byEnvironment assigned
  case dependent => exact dependent
  case rollup =>
    intro environment other
    rw [coherent.rollup, named]
    simp only [member, and_assoc]

/-- A directory that is loaded makes a project unless two configurations of one environment share a
coordinate. If some do, each such environment and coordinate is reported once, the environments in
ascending order and the coordinates of one environment in the order of the second configurations
with them. Otherwise the project has its configurations and dependencies grouped by environment.
-/
theorem loadProject_groups_or_clashes (loaded : context.loadDirectory = .ok configurations)
    : ((∃ faults, context.loadProject = .error faults)
        ↔ ∃ environment coordinate, Clash configurations environment coordinate)
      ∧ (∀ faults, context.loadProject = .error faults →
          ∃ clashes : List (String × Coordinate),
            faults = clashes.map (fun e => .duplicateCoordinate e.1 e.2)
            ∧ clashes.Nodup
            ∧ (∀ environment coordinate, (environment, coordinate) ∈ clashes
                ↔ Clash configurations environment coordinate)
            ∧ clashes.Pairwise fun a b =>
                compare a.1 b.1 = .lt
                ∨ a.1 = b.1 ∧ ∃ i j, i < j ∧ MetAgain (coordinatesIn configurations a.1) i a.2
                    ∧ MetAgain (coordinatesIn configurations a.1) j b.2)
      ∧ ∀ project, context.loadProject = .ok project → project.Groups context configurations := by
  let names := (Project.byEnvironment context.environments configurations).keys
  have clash_iff_mem (environment : String) (coordinate : Coordinate)
      : (environment, coordinate) ∈ Project.clashes configurations names
        ↔ Clash configurations environment coordinate := by
    rw [Project.mem_clashes, Project.mem_keys_byEnvironment]
    exact and_iff_right_of_imp fun clash => clash.named (assigned_of_loadDirectory loaded)
  have failed_iff (faults : List LoadError)
      : context.loadProject = .error faults
        ↔ faults = (Project.clashes configurations names).map
              (fun e => .duplicateCoordinate e.1 e.2)
          ∧ faults ≠ [] := by
    rw [loadProject_of_loaded loaded, Project.ofConfigurations_eq_error_iff,
      Project.duplicateFaults_byEnvironment]
  refine ⟨?fails, fun faults failed => ?reported, fun project => groups_of_loadProject loaded⟩
  case fails =>
    simp only [failed_iff, exists_eq_left, ne_eq, List.map_eq_nil_iff]
    simp only [List.eq_nil_iff_forall_not_mem, not_forall, not_not, Prod.exists, clash_iff_mem]
  case reported =>
    exact ⟨_, ((failed_iff faults).mp failed).1, Project.nodup_clashes (SortedMap.keys_nodup _),
      clash_iff_mem, Project.clashes_ordered (SortedMap.keys_ascending _)⟩

open Fixture

/-- A definition that stands in its file twice. -/
def repetitiveShop : LoadContext :=
  inShop [
    ("slo.yaml", .text (DefinitionText.file [.new "x" "slo", .new "x" "slo"])),
    ("x.json", .text "")]

/-- It clashes with itself in every environment. -/
theorem loadProject_repetitive
    : ∃ configurations faults, repetitiveShop.loadDirectory = .ok configurations
        ∧ repetitiveShop.loadProject = .error faults
        ∧ Clash configurations "prod" ⟨"shop", "slo", "x"⟩
        ∧ LoadError.duplicateCoordinate "prod" ⟨"shop", "slo", "x"⟩ ∈ faults := by
  have facts : repetitiveShop.loadDirectory.toOption.any (fun configurations =>
      2 ≤ (coordinatesIn configurations "prod").count ⟨"shop", "slo", "x"⟩) = true := by
    decide +kernel
  obtain ⟨configurations, loaded, twice⟩ := Batch.exists_ok_of_any facts
  have clash : Clash configurations "prod" ⟨"shop", "slo", "x"⟩ :=
    clash_iff.mpr (of_decide_eq_true twice)
  obtain ⟨fails, reported, _⟩ := loadProject_groups_or_clashes loaded
  obtain ⟨faults, failed⟩ := fails.mpr ⟨_, _, clash⟩
  obtain ⟨clashes, rfl, _, listed, _⟩ := reported faults failed
  exact ⟨configurations, _, loaded, failed, clash,
    List.mem_map.mpr ⟨_, (listed _ _).mpr clash, rfl⟩⟩

end LoadContext

end Rollout
