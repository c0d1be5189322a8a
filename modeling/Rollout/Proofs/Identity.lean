import Mathlib.Data.List.Nodup
import Rollout.Fixture.Workspace
import Rollout.Proofs.Project

/-!
When environment and coordinate name a configuration. Within a loaded project no two configurations
share both; projects of different ids have no coordinate in common. Only two projects of one id can
hold one coordinate for one environment.
-/

namespace Rollout

/-- What a configuration is known by. -/
def Configuration.identity (c : Configuration) : String × Coordinate :=
  (c.environment, c.coordinate)

namespace Project

/-- The configurations of a project, environment by environment. -/
def held (project : Project) : List Configuration :=
  project.configurations.values.flatten

/-- The identities that a project gives to configurations. -/
def identities (project : Project) : List (String × Coordinate) :=
  project.held.map Configuration.identity

theorem mem_held {project : Project} {c : Configuration}
    : c ∈ project.held ↔ ∃ environment, c ∈ project.configurationsFor environment := by
  simp only [held, SortedMap.values, List.mem_flatten, List.mem_map, Prod.exists, exists_eq_right,
    mem_configurationsFor, SortedMap.get?_eq_some_iff]
  constructor
  · rintro ⟨_, ⟨environment, entry⟩, member⟩
    exact ⟨environment, _, entry, member⟩
  · rintro ⟨environment, configurations, entry, member⟩
    exact ⟨configurations, ⟨environment, entry⟩, member⟩

theorem configurationsFor_of_mem {project : Project} {environment : String}
    {configurations : List Configuration}
    (entry : (environment, configurations) ∈ project.configurations.entries)
    : project.configurationsFor environment = configurations := by
  rw [configurationsFor, SortedMap.get?_eq_some_iff.mpr entry, Option.getD_some]

/-- A coherent project gives no identity twice: within an environment by its coordinates, between
environments by their names.
-/
theorem Coherent.identities_nodup {project : Project} (coherent : project.Coherent)
    : project.identities.Nodup := by
  have parts : project.identities
      = project.configurations.entries.flatMap (·.2.map Configuration.identity) := by
    rw [identities, held, SortedMap.values, ← List.flatMap_def, List.map_flatMap]
  rw [parts, List.nodup_flatMap]
  constructor
  · rintro ⟨environment, configurations⟩ entry
    have unique := coherent.unique environment
    rw [configurationsFor_of_mem entry] at unique
    apply List.Nodup.of_map Prod.snd
    rwa [List.map_map]
  · have apart := List.pairwise_map.mp project.configurations.keys_nodup
    refine apart.imp_of_mem fun {a b} entryA entryB different identity memberA memberB => ?_
    obtain ⟨c, inA, rfl⟩ := List.mem_map.mp memberA
    obtain ⟨d, inB, same⟩ := List.mem_map.mp memberB
    have here := coherent.assigned a.1 c (by rwa [configurationsFor_of_mem entryA])
    have there := coherent.assigned b.1 d (by rwa [configurationsFor_of_mem entryB])
    exact different (here.symm.trans ((congrArg Prod.fst same.symm).trans there))

/-- Coherent projects of different ids have no identity in common: each owns its coordinates. -/
theorem Coherent.identities_disjoint {p q : Project} (coherentP : p.Coherent)
    (coherentQ : q.Coherent) (different : p.id ≠ q.id)
    : p.identities.Disjoint q.identities := by
  intro identity memberP memberQ
  obtain ⟨c, heldP, rfl⟩ := List.mem_map.mp memberP
  obtain ⟨d, heldQ, same⟩ := List.mem_map.mp memberQ
  obtain ⟨_, inP⟩ := mem_held.mp heldP
  obtain ⟨_, inQ⟩ := mem_held.mp heldQ
  have equal : d.coordinate = c.coordinate := congrArg Prod.snd same
  have ownerC := coherentP.owned _ c inP
  have ownerD := coherentQ.owned _ d inQ
  exact different (ownerC.symm.trans ((congrArg Coordinate.project equal.symm).trans ownerD))

/-- Projects give no identity twice exactly if those of one id have none in common. -/
theorem identities_nodup_iff {projects : List Project}
    (coherent : ∀ project ∈ projects, project.Coherent)
    : (projects.flatMap identities).Nodup
      ↔ projects.Pairwise fun p q => p.id = q.id → p.identities.Disjoint q.identities := by
  rw [List.nodup_flatMap]
  constructor
  · intro given
    refine given.2.imp ?_
    exact fun disjoint _ => disjoint
  · intro shared
    refine ⟨fun project member => (coherent project member).identities_nodup, ?_⟩
    refine shared.imp_of_mem fun {p q} memberP memberQ disjoint => ?_
    by_cases same : p.id = q.id
    · exact disjoint same
    · exact (coherent p memberP).identities_disjoint (coherent q memberQ) same

end Project

namespace Manifest

open Fixture Project

/-- The identities in the projects of a manifest. None stands twice within a project, and projects
of different ids have none in common; so none stands twice at all exactly if the projects of one id
have none in common, and always if the manifest names its projects differently.
-/
theorem identities_unique_iff {manifest : Manifest} {root : Path} {base : LoadContext}
    {filter : ProjectFilter} {projects : List Project}
    (loaded : manifest.loadProjects root base filter = .ok projects)
    : (∀ project ∈ projects, project.identities.Nodup)
      ∧ (∀ p ∈ projects, ∀ q ∈ projects, p.id ≠ q.id → p.identities.Disjoint q.identities)
      ∧ ((projects.flatMap identities).Nodup
          ↔ projects.Pairwise fun p q => p.id = q.id → p.identities.Disjoint q.identities)
      ∧ ((manifest.projects.map ProjectEntry.name).Nodup →
          (projects.flatMap identities).Nodup) := by
  have coherent : ∀ project ∈ projects, project.Coherent := by
    intro project member
    obtain ⟨context, done⟩ := manifest.exists_loadProject loaded member
    exact context.coherent_of_loadProject done
  refine ⟨fun project member => (coherent project member).identities_nodup, ?_,
    identities_nodup_iff coherent, fun distinct => ?_⟩
  · exact fun p memberP q memberQ => (coherent p memberP).identities_disjoint (coherent q memberQ)
  · have different := List.pairwise_map.mp ((manifest.ids_sublist loaded).nodup distinct)
    exact (identities_nodup_iff coherent).mpr (different.imp fun apart same => absurd same apart)

/-- A disk with two directories that define one objective each, both under one id. -/
def twoObjectives : Disk :=
  let objective := DefinitionText.new "uptime" "slo"
  let workspace := (Workspace.empty.writeProject "one" "slo.yaml" [objective]).writeProject
    "two" "slo.yaml" [objective]
  ⟨workspace.tree, Workspace.root⟩

/-- A manifest that names a project for each directory. -/
def named (first second : String) : Manifest :=
  ⟨[⟨first, some "one"⟩, ⟨second, some "two"⟩], [⟨"all", ["dev"]⟩]⟩

/-- The projects of such a manifest. -/
def objectives (first second : String) : Except (List LoadError) (List Project) :=
  (named first second).loadProjects .empty (.new twoObjectives "" .empty) ⟨[], []⟩

/-- Under two names the objectives are told apart. -/
theorem identities_unique_objectives
    : ∃ projects, objectives "checkout" "platform" = .ok projects
        ∧ (projects.flatMap identities).length = 2 ∧ (projects.flatMap identities).Nodup := by
  have facts : (objectives "checkout" "platform").toOption.any (fun projects =>
      (projects.flatMap identities).length = 2) = true := by
    decide +kernel
  obtain ⟨projects, loaded, fact⟩ := (Option.any_eq_true _ _).mp facts
  have done := Batch.toOption_eq_some_iff.mp loaded
  obtain ⟨_, _, _, unique⟩ := identities_unique_iff done
  exact ⟨projects, done, of_decide_eq_true fact, unique (by decide)⟩

/-- Under one name both are loaded as one and the same. -/
theorem identities_collide_objectives
    : ∃ projects, objectives "platform" "platform" = .ok projects
        ∧ projects.flatMap identities
          = [("dev", ⟨"platform", "slo", "uptime"⟩), ("dev", ⟨"platform", "slo", "uptime"⟩)]
        ∧ ¬(projects.flatMap identities).Nodup := by
  have facts : (objectives "platform" "platform").toOption.any (fun projects =>
      projects.flatMap identities
        = [("dev", ⟨"platform", "slo", "uptime"⟩), ("dev", ⟨"platform", "slo", "uptime"⟩)])
      = true := by
    decide +kernel
  obtain ⟨projects, loaded, fact⟩ := (Option.any_eq_true _ _).mp facts
  have listed := of_decide_eq_true fact
  exact ⟨projects, Batch.toOption_eq_some_iff.mp loaded, listed, by simp [listed]⟩

end Manifest

end Rollout
