import Rollout.DryRun
import Rollout.Proofs.Batch

/-!
What a dry run leaves of the configurations it is given: one entry for each, in their order.
-/

namespace Rollout

/-- An entry of a plan tells what becomes of a configuration: it has its coordinate and environment,
and is skipped exactly if the configuration is.
-/
structure ResolvedConfiguration.IsEntryOf (entry : ResolvedConfiguration) (c : Configuration)
    : Prop where
  coordinate : entry.coordinate = c.coordinate
  environment : entry.environment = c.environment
  skip : entry.skip = c.skip

namespace DryRun

open ResolvedConfiguration

/-- What becomes of a configuration that is not skipped depends on the errors of its parameters. -/
theorem outcome_of_kept (run : DryRun) {c : Configuration} (kept : c.skip = false)
    : run.outcome c
      = if (run.resolveParameters c).2 = [] then
          .ok ⟨c.coordinate, run.environment, false, withId c (run.resolveParameters c).1⟩
        else .error (run.resolveParameters c).2 := by
  simp [outcome, kept]

theorem outcome_of_skipped (run : DryRun) {c : Configuration} (skipped : c.skip = true)
    : run.outcome c = .ok ⟨c.coordinate, run.environment, true, .empty⟩ := by
  simp [outcome, skipped]

/-- A configuration of the environment of the run that is resolved is resolved to its entry. -/
theorem outcome_isEntryOf {run : DryRun} {c : Configuration} {entry : ResolvedConfiguration}
    (here : c.environment = run.environment) (h : run.outcome c = .ok entry)
    : entry.IsEntryOf c := by
  cases skip : c.skip with
  | true =>
      rw [outcome_of_skipped run skip] at h
      cases h
      exact ⟨rfl, here.symm, skip.symm⟩
  | false =>
      rw [outcome_of_kept run skip] at h
      split at h
      · cases h
        exact ⟨rfl, here.symm, skip.symm⟩
      · cases h

/-- A configuration that fails has an error. -/
theorem outcome_errors_ne_nil {run : DryRun} {c : Configuration} {errors : List ResolutionError}
    (h : run.outcome c = .error errors)
    : errors ≠ [] := by
  cases skip : c.skip with
  | true =>
      rw [outcome_of_skipped run skip] at h
      cases h
  | false =>
      rw [outcome_of_kept run skip] at h
      split at h
      · cases h
      next failed =>
        cases h
        exact failed

theorem fst_resolveOne (run : DryRun) (c : Configuration)
    : (run.resolveOne c).1 = run.outcome c := by
  unfold resolveOne
  cases run.outcome c <;> rfl

theorem environment_resolveOne (run : DryRun) (c : Configuration)
    : (run.resolveOne c).2.environment = run.environment := by
  unfold resolveOne
  cases run.outcome c <;> rfl

/-- Resolving two lists one after the other is resolving both as one, by induction on the first. -/
theorem outcomes_append (run : DryRun) (first second : List Configuration)
    : run.outcomes (first ++ second)
      = ((run.outcomes first).1 ++ ((run.outcomes first).2.outcomes second).1,
          ((run.outcomes first).2.outcomes second).2) := by
  induction first generalizing run with
  | nil => rfl
  | cons c rest ih => simp [outcomes, ih]

/-- No configuration fails without an error, by induction on the configurations. -/
theorem outcomes_errors_ne_nil {run : DryRun} {configurations : List Configuration}
    {errors : List ResolutionError} (h : .error errors ∈ (run.outcomes configurations).1)
    : errors ≠ [] := by
  induction configurations generalizing run with
  | nil => cases h
  | cons c rest ih =>
      rcases List.mem_cons.mp h with first | later
      · exact outcome_errors_ne_nil ((fst_resolveOne run c).symm.trans first.symm)
      · exact ih later

/-- If all configurations are resolved, each has its entry in its place; by induction on the
configurations.
-/
theorem forall₂_of_outcomes {run : DryRun} {configurations : List Configuration}
    {entries : List ResolvedConfiguration}
    (here : ∀ c ∈ configurations, c.environment = run.environment)
    (h : (run.outcomes configurations).1 = entries.map .ok)
    : List.Forall₂ IsEntryOf entries configurations := by
  induction configurations generalizing run entries with
  | nil =>
      obtain rfl := List.map_eq_nil_iff.mp h.symm
      exact .nil
  | cons c rest ih =>
      obtain ⟨entry, others, rfl, first, later⟩ := List.map_eq_cons_iff.mp h.symm
      have resolved := (fst_resolveOne run c).symm.trans first.symm
      have entered := outcome_isEntryOf (here c (by simp)) resolved
      refine .cons entered (ih (fun d member => ?_) later.symm)
      exact (here d (by simp [member])).trans (environment_resolveOne run c).symm

theorem fst_resolve (run : DryRun) (configurations : List Configuration)
    : (run.resolve configurations).1 = Batch.collect (run.outcomes configurations).1 :=
  rfl

/-- A dry run that succeeds gives one entry for each configuration, in their order. -/
theorem forall₂_of_resolve {run : DryRun} {configurations : List Configuration}
    {entries : List ResolvedConfiguration}
    (here : ∀ c ∈ configurations, c.environment = run.environment)
    (h : (run.resolve configurations).1 = .ok entries)
    : List.Forall₂ IsEntryOf entries configurations :=
  forall₂_of_outcomes here (Batch.eq_map_ok_of_collect (fun _ => outcomes_errors_ne_nil) h)

end DryRun

end Rollout
