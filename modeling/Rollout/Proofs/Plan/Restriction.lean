import Rollout.Proofs.DryRun.Restriction
import Rollout.Proofs.Graph.Part
import Rollout.Proofs.Plan.Handover

/-!
The plan of some projects that need no others. It is the plan of all projects with the others left
out: neither the order of those that are kept nor what they are resolved to depends on the others.
-/

namespace Rollout

/-- Parts that are kept or left out as a whole, put together. -/
theorem filter_flatMap_of_parts {α β : Type*} {ids : List α} {keep : α → Bool} {keepPart : β → Bool}
    {whole part : α → List β}
    (parts : ∀ id ∈ ids, (whole id).filter keepPart = if keep id = true then part id else [])
    : (ids.flatMap whole).filter keepPart = (ids.filter keep).flatMap part := by
  induction ids with
  | nil => rfl
  | cons id rest ih =>
      have first := parts id List.mem_cons_self
      have later := ih fun other member => parts other (List.mem_cons_of_mem id member)
      rw [List.flatMap_cons, List.filter_append, first, later, List.filter_cons]
      split <;> simp

namespace Project

/-- Leaving out all projects of an id does not touch which of the others are shadowed. -/
theorem unshadowed_filter (projects : List Project) (keep : String → Bool)
    : unshadowed (projects.filter (keep ·.id)) = (unshadowed projects).filter (keep ·.id) := by
  induction projects with
  | nil => rfl
  | cons project rest ih =>
      have shadowed (kept : keep project.id = true)
          : project.id ∈ (rest.filter (keep ·.id)).map Project.id
            ↔ project.id ∈ rest.map Project.id := by
        simp only [List.mem_map, List.mem_filter]
        constructor
        · rintro ⟨other, ⟨member, _⟩, named⟩
          exact ⟨other, member, named⟩
        · rintro ⟨other, member, named⟩
          exact ⟨other, ⟨member, named ▸ kept⟩, named⟩
      cases kept : keep project.id with
      | true =>
          simp only [List.filter_cons, kept, if_true, unshadowed, shadowed kept]
          split
          · exact ih
          · simp [kept, ih]
      | false =>
          simp only [List.filter_cons, kept, Bool.false_eq_true, if_false, unshadowed]
          split
          · exact ih
          · simp [kept, ih]

end Project

namespace EnvironmentPlan

open Project

variable {environment : String} {projects : List Project} {keep : String → Bool}

theorem project?_filter (projects : List Project) (keep : String → Bool) (id : String)
    : project? (projects.filter (keep ·.id)) id
      = if keep id = true then project? projects id else none := by
  apply Option.ext
  intro project
  rw [project?_eq_some_iff, unshadowed_filter, List.mem_filter]
  split
  next kept =>
    rw [project?_eq_some_iff]
    constructor
    · rintro ⟨⟨member, _⟩, named⟩
      exact ⟨member, named⟩
    · rintro ⟨member, named⟩
      exact ⟨⟨member, named ▸ kept⟩, named⟩
  next left =>
    refine iff_of_false ?_ (by simp)
    rintro ⟨⟨_, kept⟩, rfl⟩
    exact left kept

/-- What a project depends on is not touched by leaving others out. -/
theorem get?_dependencies_filter (environment : String) (projects : List Project)
    (keep : String → Bool) (id : String)
    : (dependencies environment (projects.filter (keep ·.id))).get? id
      = if keep id = true then (dependencies environment projects).get? id else none := by
  rw [get?_dependencies, get?_dependencies, project?_filter]
  split <;> rfl

/-- Nor is what it hands over. -/
theorem share_filter {id : String} (kept : keep id = true)
    : share environment (projects.filter (keep ·.id)) id = share environment projects id := by
  simp only [share, ordered?, project?_filter, kept, if_true]

theorem mem_keys_dependencies_filter {id : String}
    : id ∈ (dependencies environment (projects.filter (keep ·.id))).keys
      ↔ keep id = true ∧ id ∈ (dependencies environment projects).keys := by
  simp only [SortedMap.mem_keys_iff, get?_dependencies_filter]
  split
  next kept => simp [kept]
  next left => simp [left]

-----------------------------------------------------------------------------------------
-- The order of the projects
-----------------------------------------------------------------------------------------

/-- Nothing that is kept depends on what is left out. -/
def ClosedIn (environment : String) (projects : List Project) (keep : String → Bool) : Prop :=
  ∀ project ∈ unshadowed projects, keep project.id = true →
    ∀ other ∈ (project.dependenciesIn environment).keys, keep other = true

section Closed

variable (closed : ClosedIn environment projects keep)

include closed

theorem isPart_filter
    : (projectGraph (dependencies environment (projects.filter (keep ·.id)))).IsPart
        (projectGraph (dependencies environment projects)) := by
  have inPart {id : String}
      : id ∈ (projectGraph
          (dependencies environment (projects.filter (keep ·.id)))).nodes.keys
        ↔ keep id = true ∧ id ∈ (dependencies environment projects).keys :=
    mem_keys_projectGraph.trans mem_keys_dependencies_filter
  refine ⟨fun id inside => mem_keys_projectGraph.mpr (inPart.mp inside).2, ?_⟩
  intro source inside target
  have kept := (inPart.mp inside).1
  have same : target ∈ (projectGraph
        (dependencies environment (projects.filter (keep ·.id)))).targets source
      ↔ target ∈ (projectGraph (dependencies environment projects)).targets source := by
    simp only [mem_targets_projectGraph, get?_dependencies_filter, kept, if_true]
  simp only [Graph.DependsOn, inPart, mem_keys_projectGraph, same, kept, true_and]
  refine and_congr_right fun _ => and_congr_left fun depends => and_iff_right ?_
  -- What a kept project depends on is kept.
  obtain ⟨others, held, listed⟩ := mem_targets_projectGraph.mp depends
  rw [get?_dependencies, Option.map_eq_some_iff] at held
  obtain ⟨project, found, rfl⟩ := held
  obtain ⟨member, rfl⟩ := project?_eq_some_iff.mp found
  exact closed project member kept target listed

/-- The projects that are kept stand in the order in which they stand among all projects. -/
theorem order_filter
    : (orderProjects environment (dependencies environment (projects.filter (keep ·.id)))).order
      = (orderProjects environment (dependencies environment projects)).order.filter keep := by
  refine (isPart_filter closed).sort_order.trans (List.filter_congr fun id member => ?_)
  have known := mem_keys_projectGraph.mp (Graph.mem_sort_order_iff.mp member).1
  rw [Bool.eq_iff_iff, Graph.contains_iff, mem_keys_projectGraph, mem_keys_dependencies_filter,
    and_iff_left known]

/-- If all projects are in order, so are those that are kept. -/
theorem Ordered.filter (ordered : Ordered environment projects)
    : Ordered environment (projects.filter (keep ·.id)) where
  between := by
    have none := ordered.between
    simp only [orderProjects, List.map_eq_nil_iff] at none ⊢
    rw [(isPart_filter closed).sort_cycles, none, List.filter_nil]
  within project found := by
    rw [unshadowed_filter, List.mem_filter] at found
    exact ordered.within project found.1

-----------------------------------------------------------------------------------------
-- What is handed over
-----------------------------------------------------------------------------------------

/-- What is handed over is what is handed over of all projects, without the configurations of those
that are left out.
-/
theorem handedOver_filter (ordered : Ordered environment projects)
    (coherent : ∀ project ∈ projects, project.Coherent)
    : handedOver environment (projects.filter (keep ·.id))
      = (handedOver environment projects).filter (keep ·.coordinate.project) := by
  -- A project is kept or left out with all that it hands over.
  have part (id : String)
      (member : id ∈ (orderProjects environment (dependencies environment projects)).order)
      : (share environment projects id).filter (keep ·.coordinate.project)
        = if keep id = true then share environment (projects.filter (keep ·.id)) id else [] := by
    obtain ⟨project, found, rfl⟩ := List.mem_map.mp ((order_perm ordered.between).subset member)
    have owned (c : Configuration) (shared : c ∈ share environment projects project.id)
        : c.coordinate.project = project.id :=
      (coherent project ((unshadowed_sublist projects).subset found)).owned environment c
        ((share_perm ordered coherent found).subset shared)
    split
    next kept =>
      rw [share_filter kept, List.filter_eq_self]
      exact fun c shared => by rw [owned c shared, kept]
    next left =>
      rw [List.filter_eq_nil_iff]
      exact fun c shared => by rwa [owned c shared]
  rw [handedOver, order_filter closed, handedOver]
  exact (filter_flatMap_of_parts part).symm

-----------------------------------------------------------------------------------------
-- The plan
-----------------------------------------------------------------------------------------

/-- A configuration that is kept sees only what is kept: its project depends on the projects of all
that it refers to.
-/
theorem seesOnly_of_mem (coherent : ∀ project ∈ projects, project.Coherent)
    {project : Project} (found : project ∈ unshadowed projects) (kept : keep project.id = true)
    {c : Configuration} (held : c ∈ project.configurationsFor environment)
    (faithful : ∀ parameter ∈ c.parameters.values, parameter.Faithful)
    (complete : ∀ target ∈ c.targets, target ∈ c.references)
    : c.SeesOnly (keep ·.project) where
  faithful := faithful
  targets target refers := by
    rcases eq_or_ne target.project project.id with own | other
    · rw [own, kept]
    · have depends := ((coherent project ((unshadowed_sublist projects).subset found)).rollup
        environment target.project).mpr ⟨c, held, target, complete target refers, other, rfl⟩
      exact closed project found kept target.project depends

/-- Where all projects have a plan, those that are kept have one as well: the plan of all without
the entries of the others.
-/
theorem result_filter (coherent : ∀ project ∈ projects, project.Coherent)
    (faithful : ∀ project ∈ projects, ∀ c ∈ project.configurationsFor environment,
      ∀ parameter ∈ c.parameters.values, parameter.Faithful)
    (complete : ∀ project ∈ projects, ∀ c ∈ project.configurationsFor environment,
      ∀ target ∈ c.targets, target ∈ c.references)
    {vars : Variables} {plan : List ResolvedConfiguration}
    (planned : (ofProjects vars environment projects).result = .ok plan)
    : (ofProjects vars environment (projects.filter (keep ·.id))).result
      = .ok (plan.filter (keep ·.coordinate.project)) := by
  have ordered := ordered_of_result planned
  have sub := (unshadowed_sublist projects).subset
  have sees : ∀ c ∈ handedOver environment projects, keep c.coordinate.project = true →
      c.SeesOnly (keep ·.project) := by
    intro c shared kept
    obtain ⟨project, found, held⟩ :=
      List.mem_flatMap.mp ((handedOver_perm ordered coherent).subset shared)
    rw [(coherent project (sub found)).owned environment c held] at kept
    exact seesOnly_of_mem closed coherent found kept held (faithful project (sub found) c held)
      (complete project (sub found) c held)
  rw [result_eq_ok_iff (ordered.filter closed), handedOver_filter closed ordered coherent]
  exact @DryRun.resolve_filter (keep ·.project) _ sees _ _ _ ((result_eq_ok_iff ordered).mp planned)

end Closed

end EnvironmentPlan

end Rollout
