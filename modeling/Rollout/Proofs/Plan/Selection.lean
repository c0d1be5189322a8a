import Rollout.Proofs.Plan.Order
import Rollout.Proofs.Plan.Restriction
import Rollout.Proofs.Selection

/-!
The plan of the projects that a filter selects. They need no others, so it is the plan of all
projects with the others left out.
-/

namespace Rollout.EnvironmentPlan

open Fixture Project

/-- What a needed project depends on in an environment is needed. -/
theorem closedIn_of_isNeeded (environment : String) (projects : List Project)
    (requested : List String)
    : ClosedIn environment projects (isNeeded projects requested) := by
  intro project found kept other listed
  rw [isNeeded_iff] at kept ⊢
  exact kept.dependsOn ⟨project, found, rfl, environment, listed⟩

/-- Requesting projects cuts the plan and changes nothing else. Where all projects load, their
configurations know what they refer to and there is a plan, exactly the needed projects are loaded
by the filter, and their plan is the whole plan without the entries of the others. The decoders may
be any that make faithful parameters, as the built-in ones do.
-/
theorem plan_select {manifest : Manifest} {root : Path} {base : LoadContext}
    {environments requested : List String} {all : List Project} {vars : Variables}
    {environment : String} {plan : List ResolvedConfiguration}
    (faithful : base.decoders.Faithful) (asked : requested ≠ [])
    (known : ∀ name ∈ requested, name ∈ manifest.projects.map ProjectEntry.name)
    (loaded : manifest.loadProjects root base ⟨environments, []⟩ = .ok all)
    (complete : ∀ project ∈ all, ∀ c ∈ project.configurationsFor environment,
      ∀ target ∈ c.targets, target ∈ c.references)
    (planned : (ofProjects vars environment all).result = .ok plan)
    : ∃ keep : String → Bool,
        (∀ id, keep id = true ↔ Needed all requested id)
        ∧ manifest.loadProjects root base ⟨environments, requested⟩ = .ok (all.filter (keep ·.id))
        ∧ (ofProjects vars environment (all.filter (keep ·.id))).result
            = .ok (plan.filter (keep ·.coordinate.project)) := by
  refine ⟨isNeeded all requested, fun id => isNeeded_iff, ?_, ?_⟩
  · rw [Manifest.loadProjects_of_known known, loaded, ← select_eq all asked]
    rfl
  · have coherent := manifest.coherent_of_loadProjects loaded
    have faithfulAll : ∀ project ∈ all, ∀ c ∈ project.configurationsFor environment,
        ∀ parameter ∈ c.parameters.values, parameter.Faithful :=
      fun project member c held => manifest.faithful_of_loadProjects faithful loaded member held
    exact result_filter (closedIn_of_isNeeded environment all requested) coherent faithfulAll
      complete planned

/-- The disk of the shop with a third project, which has nothing to do with the others. -/
def marketDisk : Disk :=
  let billing := definitionDirectory (.new "invoices" "slo")
  { shopDisk with root := shopDisk.root.write billing ["billing".toList] }

/-- A manifest that names all three. -/
def market : Manifest :=
  ⟨[⟨"billing", none⟩, ⟨"checkout", none⟩, ⟨"platform", none⟩], [⟨"all", ["dev"]⟩]⟩

/-- Requesting one project keeps the one that it depends on and leaves the third out. -/
theorem plan_select_checkout
    : ∃ projects plan,
        market.loadProjects .empty (.new marketDisk "" .empty) ⟨[], ["checkout"]⟩ = .ok projects
        ∧ (ofProjects (fun _ => none) "dev" projects).result = .ok plan
        ∧ projects.map Project.id = ["checkout", "platform"]
        ∧ plan.map ResolvedConfiguration.coordinate
            = [⟨"platform", "slo", "uptime"⟩, ⟨"checkout", "slo", "alarm"⟩] := by
  have facts : (market.loadProjects .empty (.new marketDisk "" .empty) ⟨[], []⟩).toOption.any
      (fun all => (ofProjects (fun _ => none) "dev" all).result.toOption.any fun plan =>
        (∀ project ∈ all, ∀ c ∈ project.configurationsFor "dev",
          ∀ target ∈ c.targets, target ∈ c.references)
        ∧ (all.map Project.id).filter (isNeeded all ["checkout"]) = ["checkout", "platform"]
        ∧ (plan.map ResolvedConfiguration.coordinate).filter
              (fun coordinate => isNeeded all ["checkout"] coordinate.project)
            = [⟨"platform", "slo", "uptime"⟩, ⟨"checkout", "slo", "alarm"⟩]) = true := by
    decide +kernel
  obtain ⟨all, done, more⟩ := (Option.any_eq_true _ _).mp facts
  obtain ⟨plan, made, fact⟩ := (Option.any_eq_true _ _).mp more
  obtain ⟨complete, ids, coordinates⟩ := of_decide_eq_true fact
  have known : ∀ name ∈ ["checkout"], name ∈ market.projects.map ProjectEntry.name := by decide
  obtain ⟨keep, needed, loaded, planned⟩ := plan_select DecoderRegistry.faithful_builtins (by simp)
    known (Batch.toOption_eq_some_iff.mp done) complete (Batch.toOption_eq_some_iff.mp made)
  obtain rfl : keep = isNeeded all ["checkout"] :=
    funext fun id => Bool.eq_iff_iff.mpr ((needed id).trans isNeeded_iff.symm)
  refine ⟨_, _, loaded, planned, ?_, ?_⟩
  · rw [← ids, List.filter_map]
    rfl
  · rw [← coordinates, List.filter_map]
    rfl

end Rollout.EnvironmentPlan
