import Rollout.Proofs.Plan.Order

/-!
Which configurations a plan covers. It has one entry for each configuration of the projects that no
later one of the same id shadows, and none for the others.
-/

namespace Rollout.EnvironmentPlan

open Fixture Project ResolvedConfiguration

/-- A plan has exactly one entry for each of some configurations, and no other entry. -/
def Covers (plan : List ResolvedConfiguration) (configurations : List Configuration) : Prop :=
  ∃ listed, List.Forall₂ IsEntryOf plan listed ∧ listed.Perm configurations

/-- A plan is as long as what it covers. -/
theorem Covers.length {plan : List ResolvedConfiguration} {configurations : List Configuration}
    (covers : Covers plan configurations)
    : plan.length = configurations.length := by
  obtain ⟨listed, entries, same⟩ := covers
  exact entries.length_eq.trans same.length_eq

/-- A plan has the coordinates of what it covers. -/
theorem Covers.coordinates {plan : List ResolvedConfiguration} {configurations : List Configuration}
    (covers : Covers plan configurations)
    : (plan.map ResolvedConfiguration.coordinate).Perm
        (configurations.map Configuration.coordinate) := by
  obtain ⟨listed, entries, same⟩ := covers
  have equal : plan.map ResolvedConfiguration.coordinate = listed.map Configuration.coordinate := by
    rw [← List.forall₂_eq_eq_eq, List.forall₂_map_left_iff, List.forall₂_map_right_iff]
    exact entries.imp fun _ _ entry => entry.coordinate
  exact (List.Perm.of_eq equal).trans (same.map _)

-----------------------------------------------------------------------------------------
-- What shadowing hides
-----------------------------------------------------------------------------------------

/-- No project that a later one shadows holds anything for an environment. -/
def NothingShadowed (environment : String) (projects : List Project) : Prop :=
  projects.Pairwise fun earlier later =>
    earlier.id = later.id → earlier.configurationsFor environment = []

/-- If nothing is shadowed, the unshadowed projects hold all there is; by induction on the projects.
-/
theorem flatMap_unshadowed {environment : String} {projects : List Project}
    (nothing : NothingShadowed environment projects)
    : (unshadowed projects).flatMap (·.configurationsFor environment)
      = projects.flatMap (·.configurationsFor environment) := by
  induction projects with
  | nil => rfl
  | cons project rest ih =>
      obtain ⟨first, later⟩ := List.pairwise_cons.mp nothing
      rw [unshadowed, List.flatMap_cons, ← ih later]
      split
      next shadowed =>
        obtain ⟨other, member, same⟩ := List.mem_map.mp shadowed
        rw [first other member same.symm, List.nil_append]
      next => rw [List.flatMap_cons]

/-- If the unshadowed projects hold as much as all projects, nothing is shadowed; by induction on
the projects, since those that are left cannot make up for one that is hidden.
-/
theorem nothingShadowed_of_length {environment : String} {projects : List Project}
    (same : ((unshadowed projects).flatMap (·.configurationsFor environment)).length
      = (projects.flatMap (·.configurationsFor environment)).length)
    : NothingShadowed environment projects := by
  induction projects with
  | nil => exact .nil
  | cons project rest ih =>
      have atMost := ((unshadowed_sublist rest).flatMap (·.configurationsFor environment)).length_le
      rw [unshadowed, List.flatMap_cons, List.length_append] at same
      apply List.pairwise_cons.mpr
      split at same
      next shadowed =>
        have hidden : (project.configurationsFor environment).length = 0 := by omega
        exact ⟨fun _ _ _ => List.length_eq_zero_iff.mp hidden, ih (by omega)⟩
      next last =>
        rw [List.flatMap_cons, List.length_append] at same
        refine ⟨fun other member equal => ?_, ih (by omega)⟩
        exact absurd (List.mem_map.mpr ⟨other, member, equal.symm⟩) last

/-- Projects with different ids shadow nothing. -/
theorem nothingShadowed_of_distinct (environment : String) {projects : List Project}
    (distinct : (projects.map Project.id).Nodup)
    : NothingShadowed environment projects :=
  (List.pairwise_map.mp distinct).imp fun different same => absurd same different

-----------------------------------------------------------------------------------------
-- What a plan covers
-----------------------------------------------------------------------------------------

/-- A plan covers the configurations of the unshadowed projects: the dry run that makes it resolves
all that is handed over.
-/
theorem covers_unshadowed {environment : String} {projects : List Project}
    (coherent : ∀ project ∈ projects, project.Coherent) {vars : Variables}
    {plan : List ResolvedConfiguration}
    (planned : (ofProjects vars environment projects).result = .ok plan)
    : Covers plan ((unshadowed projects).flatMap (·.configurationsFor environment)) := by
  have ordered := ordered_of_result planned
  have shares := handedOver_perm ordered coherent
  refine ⟨handedOver environment projects, ?_, shares⟩
  have here : ∀ c ∈ handedOver environment projects,
      c.environment = (DryRun.new environment vars).environment := by
    intro c member
    obtain ⟨project, found, held⟩ := List.mem_flatMap.mp (shares.mem_iff.mp member)
    have known := coherent project ((unshadowed_sublist projects).subset found)
    exact known.assigned environment c held
  exact DryRun.forall₂_of_resolve here ((result_eq_ok_iff ordered).mp planned)

/-- Where the projects of a manifest have different names, every plan covers all configurations. -/
theorem covers_of_distinct_names {manifest : Manifest} {root : Path} {base : LoadContext}
    {filter : ProjectFilter} {projects : List Project}
    (loaded : manifest.loadProjects root base filter = .ok projects)
    (distinct : (manifest.projects.map ProjectEntry.name).Nodup)
    {vars : Variables} {environment : String} {plan : List ResolvedConfiguration}
    (planned : (ofProjects vars environment projects).result = .ok plan)
    : Covers plan (projects.flatMap (·.configurationsFor environment)) := by
  have covers := covers_unshadowed (manifest.coherent_of_loadProjects loaded) planned
  rwa [unshadowed_eq_self ((manifest.ids_sublist loaded).nodup distinct)] at covers

/-- What a plan makes of the projects of a manifest. It covers those that no later one of the same
name shadows and plans no coordinate twice. A configuration is in the plan exactly if the last
project of its name holds its coordinate, so that all are covered exactly if nothing is shadowed.
-/
theorem plan_covers_iff {manifest : Manifest} {root : Path} {base : LoadContext}
    {filter : ProjectFilter} {projects : List Project}
    (loaded : manifest.loadProjects root base filter = .ok projects)
    {vars : Variables} {environment : String} {plan : List ResolvedConfiguration}
    (planned : (ofProjects vars environment projects).result = .ok plan)
    : Covers plan ((unshadowed projects).flatMap (·.configurationsFor environment))
      ∧ (plan.map ResolvedConfiguration.coordinate).Nodup
      ∧ (∀ project ∈ projects, ∀ c ∈ project.configurationsFor environment,
          c.coordinate ∈ plan.map ResolvedConfiguration.coordinate
          ↔ ∃ last ∈ unshadowed projects, last.id = project.id
              ∧ c.coordinate ∈ (last.configurationsFor environment).map Configuration.coordinate)
      ∧ (Covers plan (projects.flatMap (·.configurationsFor environment))
          ↔ NothingShadowed environment projects) := by
  have coherent : ∀ project ∈ projects, project.Coherent := by
    intro project member
    obtain ⟨context, done⟩ := manifest.exists_loadProject loaded member
    exact context.coherent_of_loadProject done
  have ordered := ordered_of_result planned
  have covers := covers_unshadowed coherent planned
  refine ⟨covers, ?_, fun project member c held => ?_, fun all => ?_, fun nothing => ?_⟩
  · have same := covers.coordinates.trans ((handedOver_perm ordered coherent).map _).symm
    exact same.nodup_iff.mpr (nodup_coordinates_handedOver ordered coherent)
  · rw [covers.coordinates.mem_iff, List.map_flatMap, List.mem_flatMap]
    refine exists_congr fun last => and_congr_right fun found => ?_
    refine (and_iff_right_of_imp fun listed => ?_).symm
    -- A project that holds the coordinate owns it, as the project of the configuration does.
    obtain ⟨d, inside, same⟩ := List.mem_map.mp listed
    have ownerD := (coherent last ((unshadowed_sublist projects).subset found)).owned environment d
      inside
    have ownerC := (coherent project member).owned environment c held
    exact ownerD.symm.trans ((congrArg Coordinate.project same).trans ownerC)
  · exact nothingShadowed_of_length (covers.length.symm.trans all.length)
  · rwa [flatMap_unshadowed nothing] at covers

/-- A disk with two directories that define an objective each. -/
def twoDirectories : Disk :=
  ⟨.directory [("one", definitionDirectory (.new "x" "slo")),
    ("two", definitionDirectory (.new "y" "slo"))], []⟩

/-- A manifest that names a project for each directory. -/
def twoProjects : Manifest :=
  ⟨[⟨"one", none⟩, ⟨"two", none⟩], [⟨"all", ["dev"]⟩]⟩

/-- A manifest that has one name for both directories. -/
def oneName : Manifest :=
  ⟨[⟨"p", some "one"⟩, ⟨"p", some "two"⟩], [⟨"all", ["dev"]⟩]⟩

/-- The projects of a manifest and the plan of their environment, if there is one. -/
def planOf (manifest : Manifest) : Option (List Project × List ResolvedConfiguration) :=
  match manifest.loadProjects .empty (.new twoDirectories "" .empty) ⟨[], []⟩ with
  | .error _ => none
  | .ok projects =>
      match (ofProjects (fun _ => none) "dev" projects).result with
      | .error _ => none
      | .ok plan => some (projects, plan)

theorem planOf_eq_some {manifest : Manifest} {projects : List Project}
    {plan : List ResolvedConfiguration} (made : planOf manifest = some (projects, plan))
    : manifest.loadProjects .empty (.new twoDirectories "" .empty) ⟨[], []⟩ = .ok projects
      ∧ (ofProjects (fun _ => none) "dev" projects).result = .ok plan := by
  unfold planOf at made
  split at made
  · cases made
  next loaded =>
    split at made
    · cases made
    next planned =>
      cases made
      exact ⟨loaded, planned⟩

/-- Two projects of different names are planned with all their configurations. -/
theorem plan_covers_twoProjects
    : ∃ projects plan,
        planOf twoProjects = some (projects, plan) ∧ plan.length = 2
        ∧ Covers plan (projects.flatMap (·.configurationsFor "dev")) := by
  have facts : (planOf twoProjects).any (fun (projects, plan) =>
      plan.length = 2 ∧ (projects.map Project.id).Nodup) = true := by
    decide +kernel
  obtain ⟨⟨projects, plan⟩, made, fact⟩ := (Option.any_eq_true _ _).mp facts
  obtain ⟨long, distinct⟩ := of_decide_eq_true fact
  obtain ⟨loaded, planned⟩ := planOf_eq_some made
  obtain ⟨_, _, _, covers⟩ := plan_covers_iff loaded planned
  exact ⟨projects, plan, made, long, covers.mpr (nothingShadowed_of_distinct "dev" distinct)⟩

/-- Of two projects of one name the first is lost: there is a plan, and the configuration of the
first is not in it.
-/
theorem not_covers_oneName
    : ∃ projects plan,
        oneName.loadProjects .empty (.new twoDirectories "" .empty) ⟨[], []⟩ = .ok projects
        ∧ (ofProjects (fun _ => none) "dev" projects).result = .ok plan
        ∧ (∃ project ∈ projects, ∃ c ∈ project.configurationsFor "dev",
            c.coordinate ∉ plan.map ResolvedConfiguration.coordinate)
        ∧ ¬Covers plan (projects.flatMap (·.configurationsFor "dev")) := by
  have facts : (planOf oneName).any (fun (projects, plan) =>
      (∃ project ∈ projects, ∃ c ∈ project.configurationsFor "dev",
        c.coordinate ∉ plan.map ResolvedConfiguration.coordinate)
      ∧ plan.length ≠ (projects.flatMap (·.configurationsFor "dev")).length) = true := by
    decide +kernel
  obtain ⟨⟨projects, plan⟩, made, fact⟩ := (Option.any_eq_true _ _).mp facts
  obtain ⟨lost, shorter⟩ := of_decide_eq_true fact
  obtain ⟨loaded, planned⟩ := planOf_eq_some made
  exact ⟨projects, plan, loaded, planned, lost, fun covers => shorter covers.length⟩

end Rollout.EnvironmentPlan
