import Rollout.Fixture.DefinitionText
import Rollout.Proofs.Plan.Handover

/-!
The projects in order, each with its configurations in order, make up one order of all
configurations: every configuration comes after those it refers to, in whichever project they are.
-/

namespace Rollout.EnvironmentPlan

open Fixture Project

section Order

variable {environment : String} {projects : List Project}
variable (ordered : Ordered environment projects)
variable (coherent : ∀ project ∈ projects, project.Coherent)

include ordered coherent

/-- Within one project the order of its configurations decides. -/
theorem handedOver_before_within {project : Project} (found : project ∈ unshadowed projects)
    {c d : Configuration} (memberC : c ∈ project.configurationsFor environment)
    (memberD : d ∈ project.configurationsFor environment) (refers : d.coordinate ∈ c.references)
    : [d, c].Sublist (handedOver environment projects) := by
  have inOrder := ordered.within project found
  have known := coherent project ((unshadowed_sublist projects).subset found)
  have before :=
    orderConfigurations_before (known.unique environment) inOrder memberC memberD refers
  have listed := (order_perm ordered.between).mem_iff.mpr (List.mem_map_of_mem found)
  have part := (List.singleton_sublist.mpr listed).flatMap (share environment projects)
  rw [List.flatMap_singleton, share_eq found inOrder] at part
  exact before.trans part

/-- Between projects the order of the projects decides: the project of what is referred to is among
the dependencies of the other, so all of it comes first.
-/
theorem handedOver_before_between {p q : Project} (foundP : p ∈ unshadowed projects)
    (foundQ : q ∈ unshadowed projects) (different : q.id ≠ p.id) {c d : Configuration}
    (memberC : c ∈ p.configurationsFor environment) (memberD : d ∈ q.configurationsFor environment)
    (refers : d.coordinate ∈ c.references)
    : [d, c].Sublist (handedOver environment projects) := by
  have sub := (unshadowed_sublist projects).subset
  have owner := (coherent q (sub foundQ)).owned environment d memberD
  have depends : q.id ∈ (p.dependenciesIn environment).keys :=
    ((coherent p (sub foundP)).rollup environment q.id).mpr
      ⟨c, memberC, d.coordinate, refers, owner ▸ different, owner⟩
  have held : (dependencies environment projects).get? p.id
      = some (p.dependenciesIn environment) := by
    rw [get?_dependencies, project?_eq_some_iff.mpr ⟨foundP, rfl⟩, Option.map_some]
  have known : q.id ∈ (dependencies environment projects).keys := by
    refine SortedMap.mem_keys_iff.mpr ⟨q.dependenciesIn environment, ?_⟩
    rw [get?_dependencies, project?_eq_some_iff.mpr ⟨foundQ, rfl⟩, Option.map_some]
  have before := (orderProjects_before ordered.between held depends known).flatMap
    (share environment projects)
  have inShare {project : Project} (found : project ∈ unshadowed projects) {c : Configuration}
      (member : c ∈ project.configurationsFor environment)
      : c ∈ share environment projects project.id :=
    (share_perm ordered coherent found).mem_iff.mpr member
  have parts
      : [d, c].Sublist (share environment projects q.id ++ share environment projects p.id) :=
    (List.singleton_sublist.mpr (inShare foundQ memberD)).append
      (List.singleton_sublist.mpr (inShare foundP memberC))
  apply parts.trans
  simpa [handedOver] using before

/-- No two configurations of the unshadowed projects have one coordinate: within a project by
loading, between projects since each owns its own.
-/
theorem nodup_coordinates_handedOver
    : ((handedOver environment projects).map Configuration.coordinate).Nodup := by
  apply ((handedOver_perm ordered coherent).map Configuration.coordinate).nodup_iff.mpr
  rw [List.map_flatMap, List.nodup_flatMap]
  have sub := (unshadowed_sublist projects).subset
  refine ⟨fun project found => (coherent project (sub found)).unique environment, ?_⟩
  have different := List.pairwise_map.mp (nodup_ids_unshadowed projects)
  refine different.imp_of_mem fun {p q} foundP foundQ different coordinate => ?_
  intro memberP memberQ
  obtain ⟨c, inP, rfl⟩ := List.mem_map.mp memberP
  obtain ⟨d, inQ, same⟩ := List.mem_map.mp memberQ
  have ownerC := (coherent p (sub foundP)).owned environment c inP
  have ownerD := (coherent q (sub foundQ)).owned environment d inQ
  exact different (ownerC.symm.trans ((congrArg Coordinate.project same.symm).trans ownerD))

end Order

/-- Loaded projects with different ids whose environment is in order are handed over in one order
of deployment: all their configurations, each once, and each after every one that it refers to. The
dry run resolves exactly this order.
-/
theorem handedOver_respects_references {environment : String} {projects : List Project}
    (loaded : ∀ project ∈ projects, ∃ context : LoadContext, context.loadProject = .ok project)
    (distinct : (projects.map Project.id).Nodup)
    (between : (orderProjects environment (dependencies environment projects)).errors = [])
    (within : ∀ project ∈ projects,
      (orderConfigurations environment (project.configurationsFor environment)).errors = [])
    : (∀ vars,
        (ofProjects vars environment projects).result
          = ((DryRun.new environment vars).resolve (handedOver environment projects)).1.mapError
              (List.map .resolution))
      ∧ (handedOver environment projects).Perm
          (projects.flatMap (·.configurationsFor environment))
      ∧ ((handedOver environment projects).map Configuration.coordinate).Nodup
      ∧ ∀ p ∈ projects, ∀ c ∈ p.configurationsFor environment,
          ∀ q ∈ projects, ∀ d ∈ q.configurationsFor environment,
            d.coordinate ∈ c.references → [d, c].Sublist (handedOver environment projects) := by
  have coherent : ∀ project ∈ projects, project.Coherent := by
    intro project member
    obtain ⟨context, done⟩ := loaded project member
    exact context.coherent_of_loadProject done
  have all := unshadowed_eq_self distinct
  have ordered : Ordered environment projects := ⟨between, all.symm ▸ within⟩
  refine ⟨result_eq_resolve ordered, ?_, nodup_coordinates_handedOver ordered coherent, ?_⟩
  · have shares := handedOver_perm ordered coherent
    rwa [all] at shares
  · intro p memberP c memberC q memberQ d memberD refers
    rw [← all] at memberP memberQ
    by_cases same : q.id = p.id
    · have found := (project?_eq_some_iff.mpr ⟨memberQ, same⟩).symm.trans
        (project?_eq_some_iff.mpr ⟨memberP, rfl⟩)
      cases found
      exact handedOver_before_within ordered coherent memberP memberC memberD refers
    · exact handedOver_before_between ordered coherent memberP memberQ same memberC memberD refers

/-- A directory with one definition and its template. -/
def definitionDirectory (d : DefinitionText) : Entry :=
  .directory [("slo.yaml", .text (DefinitionText.file [d])), (d.id ++ ".json", .text "")]

/-- A disk with two projects; an alarm of the one refers to an objective of the other. -/
def shopDisk : Disk :=
  let alarm := (DefinitionText.new "alarm" "slo").withParameter "target"
    "[\"platform\", \"slo\", \"uptime\", \"id\"]"
  ⟨.directory [("checkout", definitionDirectory alarm),
    ("platform", definitionDirectory (.new "uptime" "slo"))], []⟩

/-- The projects of the disk, the dependent one first. -/
def shop : List Project :=
  ["checkout", "platform"].filterMap fun name =>
    LoadContext.loadProject
        { LoadContext.new shopDisk name (Path.ofText name) with environments := [⟨"dev", "all"⟩] }
      |>.toOption

/-- What the alarm refers to is deployed before it, though its project is loaded later. -/
theorem handedOver_shop
    : ∃ c d : Configuration,
        c.coordinate = ⟨"checkout", "slo", "alarm"⟩ ∧ d.coordinate = ⟨"platform", "slo", "uptime"⟩
        ∧ [d, c].Sublist (handedOver "dev" shop) := by
  have loaded : ∀ project ∈ shop, ∃ context : LoadContext, context.loadProject = .ok project := by
    intro project member
    obtain ⟨name, _, done⟩ := List.mem_filterMap.mp member
    exact ⟨_, Batch.toOption_eq_some_iff.mp done⟩
  have facts : (shop.map Project.id).Nodup
      ∧ (orderProjects "dev" (dependencies "dev" shop)).errors = []
      ∧ (∀ project ∈ shop,
          (orderConfigurations "dev" (project.configurationsFor "dev")).errors = [])
      ∧ ∃ p ∈ shop, ∃ c ∈ p.configurationsFor "dev",
          ∃ q ∈ shop, ∃ d ∈ q.configurationsFor "dev",
            c.coordinate = ⟨"checkout", "slo", "alarm"⟩
            ∧ d.coordinate = ⟨"platform", "slo", "uptime"⟩ ∧ d.coordinate ∈ c.references := by
    decide +kernel
  obtain ⟨distinct, between, within, held⟩ := facts
  obtain ⟨p, memberP, c, memberC, q, memberQ, d, memberD, nameC, nameD, refers⟩ := held
  obtain ⟨_, _, _, before⟩ := handedOver_respects_references loaded distinct between within
  exact ⟨c, d, nameC, nameD, before p memberP c memberC q memberQ d memberD refers⟩

end Rollout.EnvironmentPlan
