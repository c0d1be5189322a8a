import Rollout.Proofs.DeploymentOrder
import Rollout.Proofs.Expansion.Faults
import Rollout.Proofs.Loading

/-!
What holds of every configuration that is loaded, whatever the files, APIs, decoders and templates
are. Deployment relies on it: since none refers to itself, a cycle of references always has
more than one member.
-/

namespace Rollout

open Batch

-----------------------------------------------------------------------------------------
-- The configuration that is built
-----------------------------------------------------------------------------------------

namespace Expansion

variable {e : Expansion} {environment : Environment} {c : Configuration}

/-- A configuration is named: a body without a `name` of its own is at fault, even with a parameter
that is called so, and so is a body whose name cannot be typed.
-/
theorem name_mem_of_build (built : e.build environment = .ok c)
    : nameParameter ∈ c.parameters.keys :=
  (mem_parameters_of_build built).mpr (.inr rfl)

/-- No parameter of a configuration has the reserved name. -/
theorem id_not_mem_of_build (built : e.build environment = .ok c)
    : idParameter ∉ c.parameters.keys := by
  intro reserved
  obtain ⟨parameter, held⟩ := SortedMap.mem_keys_iff.mp reserved
  obtain ⟨raw, _, accepted⟩ := (get?_parameters_of_build built).mp held
  exact accepted.ne_id rfl

/-- Nothing is recorded that no parameter refers to. -/
theorem mem_targets_of_mem_references (built : e.build environment = .ok c) {target : Coordinate}
    (recorded : target ∈ c.references)
    : target ∈ c.targets := by
  rw [references_build built, Binder.mem_values_record] at recorded
  exact (mem_targets_build built).mpr (List.mem_of_find?_eq_some recorded)

/-- A configuration does not refer to itself, since no parameter that is typed refers to the
configuration it is typed for.
-/
theorem own_not_mem_of_build (built : e.build environment = .ok c)
    : c.coordinate ∉ c.references := by
  intro recorded
  obtain ⟨name, parameter, held, refers⟩ :=
    Configuration.mem_targets.mp (mem_targets_of_mem_references built recorded)
  obtain ⟨raw, _, accepted⟩ := (get?_parameters_of_build built).mp held
  obtain ⟨_, _, _, _, _, rfl⟩ := build_eq_ok_iff.mp built
  exact accepted.2 refers

end Expansion

-----------------------------------------------------------------------------------------
-- The configurations that are loaded
-----------------------------------------------------------------------------------------

namespace LoadContext

/-- A configuration that loading the directory gives. -/
def Loads (context : LoadContext) (c : Configuration) : Prop :=
  ∃ configurations, context.loadDirectory = .ok configurations ∧ c ∈ configurations

/-- What deployment relies on. The configuration is meant for a target that is asked for, belongs to
the project and to an API that is known, has a name but no parameter in place of its `id`, and does
not refer to itself.
-/
structure Deployable (context : LoadContext) (c : Configuration) : Prop where
  target : ⟨c.environment, c.group⟩ ∈ context.environments
  project : c.coordinate.project = context.project
  api : c.coordinate.api ≠ "" ∧ context.apis.contains c.coordinate.api = true
  named : nameParameter ∈ c.parameters.keys
  unreserved : idParameter ∉ c.parameters.keys
  foreign : c.coordinate ∉ c.references

variable {context : LoadContext} {c : Configuration}

theorem Loads.deployable (loaded : context.Loads c) : context.Deployable c := by
  obtain ⟨configurations, done, member⟩ := loaded
  obtain ⟨_, _, environment, asked, built, api⟩ := built_of_loadDirectory done member
  have named := Expansion.name_mem_of_build built
  have unreserved := Expansion.id_not_mem_of_build built
  have foreign := Expansion.own_not_mem_of_build built
  obtain ⟨_, _, _, _, _, rfl⟩ := Expansion.build_eq_ok_iff.mp built
  exact ⟨asked, rfl, api, named, unreserved, foreign⟩

/-- Whatever is loaded is deployable. So, whichever loaded configurations are put in order, each one
that is reported lies on a cycle with others of them and is never among those it is reported for.
-/
theorem loads_deployable
    : (∀ (context : LoadContext) (c : Configuration), context.Loads c → context.Deployable c)
      ∧ ∀ (environment : String) (part : List Configuration),
          (∀ c ∈ part, ∃ context : LoadContext, context.Loads c) →
            ∀ error ∈ (orderConfigurations environment part).errors,
              ∃ location dependsOn,
                error = .configurationCycle environment location dependsOn
                ∧ location ∈ part.map Configuration.coordinate
                ∧ dependsOn ≠ []
                ∧ ∀ other ∈ dependsOn,
                    other ≠ location ∧ other ∈ part.map Configuration.coordinate := by
  refine ⟨fun _ _ loaded => loaded.deployable, fun environment part loaded error reported => ?_⟩
  refine orderConfigurations_errors (fun c member => ?_) reported
  obtain ⟨_, done⟩ := loaded c member
  exact done.deployable.foreign

open Fixture

/-- Two definitions that refer to each other. -/
def mutualShop : LoadContext :=
  inShop [
    ("slo.yaml", .text (DefinitionText.file [
      (DefinitionText.new "x" "slo").withReference "other" "slo" "y",
      (DefinitionText.new "y" "slo").withReference "other" "slo" "x"])),
    ("x.json", .text ""), ("y.json", .text "")]

/-- Both are loaded as they should be, and what is loaded for one target is reported as a cycle of
two.
-/
theorem loads_deployable_mutual
    : ∃ part, part.map Configuration.coordinate = [⟨"shop", "slo", "x"⟩, ⟨"shop", "slo", "y"⟩]
        ∧ (∀ c ∈ part, mutualShop.Deployable c)
        ∧ (orderConfigurations "dev" part).errors.length = 2
        ∧ ∀ error ∈ (orderConfigurations "dev" part).errors,
            ∃ location dependsOn,
              error = .configurationCycle "dev" location dependsOn
              ∧ dependsOn ≠ [] ∧ location ∉ dependsOn := by
  have facts : mutualShop.loadDirectory.toOption.any (fun configurations =>
      let part := configurations.filter (·.environment = "dev")
      part.map Configuration.coordinate = [⟨"shop", "slo", "x"⟩, ⟨"shop", "slo", "y"⟩]
      ∧ (orderConfigurations "dev" part).errors.length = 2) = true := by
    decide +kernel
  obtain ⟨configurations, done, fact⟩ := exists_ok_of_any facts
  obtain ⟨coordinates, count⟩ := of_decide_eq_true fact
  have loaded : ∀ c ∈ configurations.filter (·.environment = "dev"), mutualShop.Loads c :=
    fun c member => ⟨configurations, done, List.mem_of_mem_filter member⟩
  obtain ⟨deployable, cycles⟩ := loads_deployable
  refine ⟨_, coordinates, fun c member => deployable _ c (loaded c member), count, ?_⟩
  intro error reported
  obtain ⟨location, dependsOn, same, _, some, others⟩ :=
    cycles "dev" _ (fun c member => ⟨_, loaded c member⟩) error reported
  exact ⟨location, dependsOn, same, some, fun own => (others location own).1 rfl⟩

end LoadContext

end Rollout
