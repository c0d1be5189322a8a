import Rollout.Proofs.DryRun.Store

/-!
A dry run without some of its configurations. What is left out is missed only by what refers to it,
so the others are resolved as before if none of them does.
-/

namespace Rollout

/-- A configuration refers only to coordinates that are kept, and sees nothing else. -/
structure Configuration.SeesOnly (c : Configuration) (keep : Coordinate → Bool) : Prop where
  faithful : ∀ parameter ∈ c.parameters.values, parameter.Faithful
  targets : ∀ target ∈ c.targets, keep target = true

namespace DryRun

/-- Two runs that cannot be told apart by the coordinates that are kept. -/
structure AgreesOn (keep : Coordinate → Bool) (run part : DryRun) : Prop where
  environment : run.environment = part.environment
  vars : run.vars = part.vars
  resolved : ∀ target, keep target = true → run.resolved.get? target = part.resolved.get? target

namespace AgreesOn

variable {keep : Coordinate → Bool} {run part : DryRun} (agrees : AgreesOn keep run part)
variable {c : Configuration}

include agrees

theorem outcome (sees : c.SeesOnly keep) : run.outcome c = part.outcome c :=
  outcome_congr_of_faithful agrees.environment agrees.vars sees.faithful fun target refers =>
    agrees.resolved target (sees.targets target refers)

/-- Runs still agree after both have resolved a configuration that sees only what they agree on. -/
theorem resolveOne (sees : c.SeesOnly keep)
    : AgreesOn keep (run.resolveOne c).2 (part.resolveOne c).2 where
  environment := by rw [environment_resolveOne, environment_resolveOne, agrees.environment]
  vars := by rw [vars_resolveOne, vars_resolveOne, agrees.vars]
  resolved target kept := by
    rw [get?_resolveOne, get?_resolveOne, agrees.outcome sees, agrees.resolved target kept]

/-- Runs still agree after one of them has resolved a configuration that is not kept. -/
theorem resolveOne_left (left : keep c.coordinate = false)
    : AgreesOn keep (run.resolveOne c).2 part where
  environment := by rw [environment_resolveOne, agrees.environment]
  vars := by rw [vars_resolveOne, agrees.vars]
  resolved target kept := by
    have different : target ≠ c.coordinate := fun same => by simp [← same, kept] at left
    rw [get?_resolveOne, if_neg different, agrees.resolved target kept]

end AgreesOn

variable {keep : Coordinate → Bool} {configurations : List Configuration}
variable (sees : ∀ c ∈ configurations, keep c.coordinate = true → c.SeesOnly keep)

include sees

/-- Where all configurations are resolved, those that are kept are resolved to the same without the
others; by induction on the configurations.
-/
theorem outcomes_filter {run part : DryRun} (agrees : AgreesOn keep run part)
    {entries : List ResolvedConfiguration}
    (resolved : (run.outcomes configurations).1 = entries.map .ok)
    : (part.outcomes (configurations.filter (keep ·.coordinate))).1
      = (entries.filter (keep ·.coordinate)).map .ok := by
  induction configurations generalizing run part entries with
  | nil =>
      obtain rfl := List.map_eq_nil_iff.mp resolved.symm
      rfl
  | cons c rest ih =>
      obtain ⟨entry, others, rfl, first, later⟩ := List.map_eq_cons_iff.mp resolved.symm
      have outcome : run.outcome c = .ok entry := (fst_resolveOne run c).symm.trans first.symm
      have named := coordinate_of_outcome outcome
      have seesRest := fun d member => sees d (List.mem_cons_of_mem c member)
      cases kept : keep c.coordinate with
      | true =>
          have seesFirst := sees c List.mem_cons_self kept
          simp only [List.filter_cons, named, kept, if_true, outcomes, List.map_cons,
            fst_resolveOne]
          rw [← agrees.outcome seesFirst, outcome]
          exact congrArg _ (ih seesRest (agrees.resolveOne seesFirst) later.symm)
      | false =>
          simp only [List.filter_cons, named, kept, Bool.false_eq_true, if_false]
          exact ih seesRest (agrees.resolveOne_left kept) later.symm

/-- A dry run that succeeds does so without the configurations that are not kept, with the same
entries for the others.
-/
theorem resolve_filter {environment : String} {vars : Variables}
    {entries : List ResolvedConfiguration}
    (resolved : ((DryRun.new environment vars).resolve configurations).1 = .ok entries)
    : ((DryRun.new environment vars).resolve (configurations.filter (keep ·.coordinate))).1
      = .ok (entries.filter (keep ·.coordinate)) := by
  have all := Batch.eq_map_ok_of_collect (fun _ => outcomes_errors_ne_nil) resolved
  rw [fst_resolve, outcomes_filter sees ⟨rfl, rfl, fun _ _ => rfl⟩ all, Batch.collect_map_ok]

end DryRun

end Rollout
