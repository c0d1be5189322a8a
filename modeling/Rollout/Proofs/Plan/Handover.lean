import Rollout.Plan
import Rollout.Proofs.DryRun
import Rollout.Proofs.Project

/-!
What the plan of an environment hands to its dry run: the configurations of each project in their
order, project by project. Of projects with one id only the last is looked up, so only the projects
that no later one shadows take part.
-/

namespace Rollout

namespace Project

/-- The projects that no later project of the same id shadows. -/
def unshadowed : List Project → List Project
  | [] => []
  | project :: rest =>
      if project.id ∈ rest.map Project.id then unshadowed rest else project :: unshadowed rest

theorem unshadowed_sublist (projects : List Project) : (unshadowed projects).Sublist projects := by
  induction projects with
  | nil => exact .slnil
  | cons project rest ih =>
      rw [unshadowed]
      split
      · exact ih.cons project
      · exact ih.cons_cons project

/-- Every id is that of an unshadowed project. -/
theorem mem_ids_unshadowed {projects : List Project} {id : String}
    : id ∈ (unshadowed projects).map Project.id ↔ id ∈ projects.map Project.id := by
  induction projects with
  | nil => rfl
  | cons project rest ih =>
      rw [unshadowed]
      split
      next shadowed =>
        rw [ih, List.map_cons, List.mem_cons]
        exact (or_iff_right_of_imp fun same => same ▸ shadowed).symm
      next => rw [List.map_cons, List.map_cons, List.mem_cons, List.mem_cons, ih]

/-- No two unshadowed projects have one id. -/
theorem nodup_ids_unshadowed (projects : List Project)
    : ((unshadowed projects).map Project.id).Nodup := by
  induction projects with
  | nil => exact .nil
  | cons project rest ih =>
      rw [unshadowed]
      split
      · exact ih
      next last =>
        rw [List.map_cons, List.nodup_cons, mem_ids_unshadowed]
        exact ⟨last, ih⟩

/-- Projects with different ids do not shadow each other. -/
theorem unshadowed_eq_self {projects : List Project} (distinct : (projects.map Project.id).Nodup)
    : unshadowed projects = projects := by
  induction projects with
  | nil => rfl
  | cons project rest ih =>
      rw [List.map_cons, List.nodup_cons] at distinct
      rw [unshadowed, if_neg distinct.1, ih distinct.2]

end Project

namespace EnvironmentPlan

open Project

-----------------------------------------------------------------------------------------
-- Looking projects up
-----------------------------------------------------------------------------------------

/-- Later projects are looked up first. -/
theorem project?_cons (head : Project) (rest : List Project) (id : String)
    : project? (head :: rest) id
      = (project? rest id).or (if head.id = id then some head else none) := by
  rw [project?, project?, List.reverse_cons, List.find?_append]
  congr 1
  by_cases same : head.id = id <;> simp [same]

theorem project?_eq_none_iff {projects : List Project} {id : String}
    : project? projects id = none ↔ id ∉ projects.map Project.id := by
  simp [project?]

/-- Only unshadowed projects are found, by induction on the projects: what is found further on stays
unshadowed, and the first project is found only if no later one has its id.
-/
theorem mem_unshadowed_of_project? {projects : List Project} {id : String} {project : Project}
    (found : project? projects id = some project)
    : project ∈ unshadowed projects ∧ project.id = id := by
  induction projects with
  | nil => cases found
  | cons head rest ih =>
      rw [project?_cons] at found
      rw [unshadowed]
      cases later : project? rest id with
      | some other =>
          rw [later, Option.some_or] at found
          obtain ⟨member, same⟩ := ih (later.trans found)
          refine ⟨?_, same⟩
          split
          · exact member
          · exact List.mem_cons_of_mem _ member
      | none =>
          rw [later, Option.none_or] at found
          split at found
          next same =>
            cases found
            have last := project?_eq_none_iff.mp later
            rw [if_neg (same ▸ last)]
            exact ⟨List.mem_cons_self, same⟩
          next => cases found

/-- What is found under an id is the unshadowed project that has it. There is one at most. -/
theorem project?_eq_some_iff {projects : List Project} {id : String} {project : Project}
    : project? projects id = some project ↔ project ∈ unshadowed projects ∧ project.id = id := by
  constructor
  · exact mem_unshadowed_of_project?
  · intro given
    obtain ⟨member, same⟩ := given
    cases found : project? projects id with
    | none =>
        have listed := mem_ids_unshadowed.mp (List.mem_map_of_mem (f := Project.id) member)
        exact absurd (same ▸ listed) (project?_eq_none_iff.mp found)
    | some other =>
        obtain ⟨memberOther, sameOther⟩ := mem_unshadowed_of_project? found
        have one := List.inj_on_of_nodup_map (nodup_ids_unshadowed projects) memberOther member
        exact congrArg some (one (sameOther.trans same.symm))

/-- What a project depends on is what the project found under its id depends on. -/
theorem get?_dependencies {environment : String} {projects : List Project} {id : String}
    : (dependencies environment projects).get? id
      = (project? projects id).map (·.dependenciesIn environment) := by
  have same (project : Project) : compare id project.id = .eq ↔ project.id = id :=
    Std.LawfulEqOrd.compare_eq_iff_eq.trans eq_comm
  rw [dependencies, SortedMap.get?_ofList, project?, ← List.map_reverse, List.find?_map,
    Option.map_map]
  simp only [Function.comp_def, same]

-----------------------------------------------------------------------------------------
-- What is handed over
-----------------------------------------------------------------------------------------

/-- The configurations of one project in their order, none if they have no order. -/
def share (environment : String) (projects : List Project) (id : String) : List Configuration :=
  match ordered? environment projects id with
  | none => []
  | some sorted => if sorted.errors.isEmpty then sorted.order else []

/-- The configurations that reach the dry run, in the order in which they reach it. -/
def handedOver (environment : String) (projects : List Project) : List Configuration :=
  (orderProjects environment (dependencies environment projects)).order.flatMap
    (share environment projects)

/-- Neither the projects nor the configurations of one that is looked up are on a cycle. -/
structure Ordered (environment : String) (projects : List Project) : Prop where
  between : (orderProjects environment (dependencies environment projects)).errors = []
  within : ∀ project ∈ unshadowed projects,
    (orderConfigurations environment (project.configurationsFor environment)).errors = []

/-- What is looked up in order under an id, for a project with configurations in the environment. -/
theorem ordered?_eq {environment : String} {projects : List Project} {project : Project}
    (found : project ∈ unshadowed projects)
    : ordered? environment projects project.id
      = (project.configurations.get? environment).map (orderConfigurations environment) := by
  simp only [ordered?, project?_eq_some_iff.mpr ⟨found, rfl⟩, Option.bind_eq_bind, Option.bind_some]
  cases project.configurations.get? environment <;> rfl

/-- A project without errors hands over the order of its configurations. -/
theorem share_eq {environment : String} {projects : List Project} {project : Project}
    (found : project ∈ unshadowed projects)
    (ordered
      : (orderConfigurations environment (project.configurationsFor environment)).errors = [])
    : share environment projects project.id
      = (orderConfigurations environment (project.configurationsFor environment)).order := by
  rw [share, ordered?_eq found]
  rw [Project.configurationsFor] at ordered ⊢
  cases held : project.configurations.get? environment with
  | none => simp
  | some configurations =>
      rw [held, Option.getD_some] at ordered
      simp [ordered]

/-- The order of the projects is one of the unshadowed projects. -/
theorem order_perm {environment : String} {projects : List Project}
    (between : (orderProjects environment (dependencies environment projects)).errors = [])
    : (orderProjects environment (dependencies environment projects)).order.Perm
        ((unshadowed projects).map Project.id) := by
  apply (orderProjects_perm between).trans
  apply (List.perm_ext_iff_of_nodup (SortedMap.keys_nodup _) (nodup_ids_unshadowed projects)).mpr
  intro id
  rw [mem_ids_unshadowed, dependencies, SortedMap.mem_keys_ofList, List.map_map]
  rfl

/-- In an environment in order a project hands over exactly its configurations, each once. -/
theorem share_perm {environment : String} {projects : List Project}
    (ordered : Ordered environment projects)
    (coherent : ∀ project ∈ projects, project.Coherent) {project : Project}
    (found : project ∈ unshadowed projects)
    : (share environment projects project.id).Perm (project.configurationsFor environment) := by
  have inOrder := ordered.within project found
  rw [share_eq found inOrder]
  exact orderConfigurations_perm
    ((coherent project ((unshadowed_sublist projects).subset found)).unique environment) inOrder

/-- Exactly the configurations of the unshadowed projects are handed over, each once. -/
theorem handedOver_perm {environment : String} {projects : List Project}
    (ordered : Ordered environment projects)
    (coherent : ∀ project ∈ projects, project.Coherent)
    : (handedOver environment projects).Perm
        ((unshadowed projects).flatMap (·.configurationsFor environment)) := by
  apply ((order_perm ordered.between).flatMap_right _).trans
  rw [List.flatMap_map]
  exact List.Perm.flatMap_left _ fun project found => share_perm ordered coherent found

-----------------------------------------------------------------------------------------
-- The dry run
-----------------------------------------------------------------------------------------

/-- In an environment in order no project that is reached has an error. -/
theorem Ordered.errors_eq_nil {environment : String} {projects : List Project}
    (ordered : Ordered environment projects) {id : String}
    (reached : id ∈ (orderProjects environment (dependencies environment projects)).order)
    (sorted : OrderedConfigurations) (found : ordered? environment projects id = some sorted)
    : sorted.errors = [] := by
  obtain ⟨project, unshadowed, rfl⟩ := List.mem_map.mp ((order_perm ordered.between).subset reached)
  rw [ordered?_eq unshadowed, Option.map_eq_some_iff] at found
  obtain ⟨held, known, rfl⟩ := found
  have free := ordered.within project unshadowed
  rwa [Project.configurationsFor, known] at free

/-- Resolving the projects one after the other is resolving all that they hand over as one list, if
none of them has an error; by induction on the projects.
-/
theorem outcomes_stepsFrom {environment : String} {projects : List Project} {ids : List String}
    (ordered : ∀ id ∈ ids, ∀ sorted, ordered? environment projects id = some sorted →
      sorted.errors = [])
    (run : DryRun)
    : ∃ parts : List (List (Except (List ResolutionError) ResolvedConfiguration)),
        (stepsFrom environment projects run ids).map PlanStep.outcome
          = parts.map (fun results => (Batch.collect results).mapError (List.map .resolution))
        ∧ parts.flatten = (run.outcomes (ids.flatMap (share environment projects))).1 := by
  induction ids generalizing run with
  | nil => exact ⟨[], rfl, rfl⟩
  | cons id rest ih =>
      have later := fun other member => ordered other (List.mem_cons_of_mem _ member)
      rw [stepsFrom, List.flatMap_cons, share]
      cases found : ordered? environment projects id with
      | none => simpa only [List.nil_append] using ih later run
      | some sorted =>
          have first : sorted.errors = [] := ordered id List.mem_cons_self sorted found
          obtain ⟨parts, steps, flat⟩ := ih later (run.outcomes sorted.order).2
          refine ⟨(run.outcomes sorted.order).1 :: parts, ?_, ?_⟩
          · simp [first, DryRun.resolve, steps]
          · simp [first, DryRun.outcomes_append, flat]

/-- A project whose configurations have no order is reported. -/
theorem mem_stepsFrom_of_errors {environment : String} {projects : List Project} {ids : List String}
    {id : String} (member : id ∈ ids) {sorted : OrderedConfigurations}
    (found : ordered? environment projects id = some sorted) (failed : sorted.errors ≠ [])
    (run : DryRun)
    : ⟨id, .error (sorted.errors.map .order)⟩ ∈ stepsFrom environment projects run ids := by
  induction ids generalizing run with
  | nil => cases member
  | cons head rest ih =>
      rw [stepsFrom]
      rcases List.mem_cons.mp member with rfl | member
      · simp [found, failed]
      · split
        · exact ih member run
        · split
          · exact List.mem_cons_of_mem _ (ih member _)
          · exact List.mem_cons_of_mem _ (ih member run)

/-- The plan of an environment in order is what one dry run makes of all that is handed over. -/
theorem result_eq_resolve {environment : String} {projects : List Project}
    (ordered : Ordered environment projects) (vars : Variables)
    : (ofProjects vars environment projects).result
      = ((DryRun.new environment vars).resolve (handedOver environment projects)).1.mapError
          (List.map .resolution) := by
  obtain ⟨parts, steps, flat⟩ :=
    outcomes_stepsFrom (fun _ => ordered.errors_eq_nil) (.new environment vars)
  have collected
      : parts.map (fun results => (Batch.collect results).mapError (List.map .resolution))
      = (parts.map (List.map (Except.mapError (List.map PlanError.resolution)))).map
          Batch.collect := by
    rw [List.map_map]
    exact List.map_congr_left fun results _ => (Batch.collect_map_mapError _ results).symm
  simp only [result, ofProjects, ordered.between, List.isEmpty_nil, if_true]
  rw [steps, collected, Batch.concat_map_collect, ← List.map_flatten, Batch.collect_map_mapError,
    flat, DryRun.fst_resolve, handedOver]

/-- An environment in order has the plan that this dry run gives, if it gives one. -/
theorem result_eq_ok_iff {environment : String} {projects : List Project}
    (ordered : Ordered environment projects) {vars : Variables} {plan : List ResolvedConfiguration}
    : (ofProjects vars environment projects).result = .ok plan
      ↔ ((DryRun.new environment vars).resolve (handedOver environment projects)).1 = .ok plan := by
  rw [result_eq_resolve ordered]
  cases ((DryRun.new environment vars).resolve (handedOver environment projects)).1 with
  | error errors => simp [Except.mapError]
  | ok entries => simp [Except.mapError]

/-- An environment with a plan is in order, since every error is reported. -/
theorem ordered_of_result {environment : String} {projects : List Project} {vars : Variables}
    {plan : List ResolvedConfiguration}
    (planned : (ofProjects vars environment projects).result = .ok plan)
    : Ordered environment projects := by
  simp only [result, List.isEmpty_iff] at planned
  split at planned
  next between =>
    refine ⟨between, fun project unshadowed => ?_⟩
    by_contra failed
    have listed := (order_perm between).mem_iff.mpr (List.mem_map_of_mem unshadowed)
    cases held : project.configurations.get? environment with
    | none => exact failed (by rw [Project.configurationsFor, held]; simp)
    | some configurations =>
        rw [Project.configurationsFor, held, Option.getD_some] at failed
        have found : ordered? environment projects project.id
            = some (orderConfigurations environment configurations) := by
          rw [ordered?_eq unshadowed, held, Option.map_some]
        have step := mem_stepsFrom_of_errors listed found failed (.new environment vars)
        have none := Batch.errorsOf_eq_nil_of_concat planned (List.mem_map_of_mem step)
        exact failed (List.map_eq_nil_iff.mp none)
  next => cases planned

end EnvironmentPlan

end Rollout
