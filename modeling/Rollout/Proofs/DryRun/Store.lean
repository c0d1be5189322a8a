import Rollout.Proofs.DryRun.Outcome

/-!
What a dry run keeps. After it has gone through configurations of different coordinates, the store
holds what finally became of each; and where each comes after those it refers to, the store shows
them to it as it will hold them in the end.
-/

namespace Rollout

/-- What is kept of a resolved configuration. -/
def ResolvedConfiguration.entity (entry : ResolvedConfiguration) : Entity :=
  ⟨entry.coordinate, entry.properties, entry.skip⟩

namespace DryRun

-----------------------------------------------------------------------------------------
-- One configuration
-----------------------------------------------------------------------------------------

theorem coordinate_of_outcome {run : DryRun} {c : Configuration} {entry : ResolvedConfiguration}
    (resolved : run.outcome c = .ok entry)
    : entry.coordinate = c.coordinate := by
  cases skip : c.skip with
  | true =>
      rw [run.outcome_of_skipped skip] at resolved
      cases resolved
      rfl
  | false => exact ((run.follows_outcome c).properties skip entry resolved).1

theorem vars_resolveOne (run : DryRun) (c : Configuration)
    : (run.resolveOne c).2.vars = run.vars := by
  unfold resolveOne
  cases run.outcome c <;> rfl

/-- Resolving a configuration touches nothing but what is held under its coordinate, and this only
if it does not fail.
-/
theorem get?_resolveOne (run : DryRun) (c : Configuration) (target : Coordinate)
    : (run.resolveOne c).2.resolved.get? target
      = if target = c.coordinate then
          ((run.outcome c).toOption.map ResolvedConfiguration.entity).or (run.resolved.get? target)
        else run.resolved.get? target := by
  unfold resolveOne
  cases resolved : run.outcome c with
  | error errors => simp [Except.toOption]
  | ok entry =>
      have named := coordinate_of_outcome resolved
      simp only [keep, EntityStore.insert, EntityStore.get?, SortedMap.get?_insert, named,
        Std.LawfulEqCmp.compare_eq_iff_eq]
      split
      · simp [Except.toOption, ResolvedConfiguration.entity, named]
      · rfl

theorem environment_outcomes (run : DryRun) (configurations : List Configuration)
    : (run.outcomes configurations).2.environment = run.environment := by
  induction configurations generalizing run with
  | nil => rfl
  | cons c rest ih => exact (ih _).trans (environment_resolveOne run c)

theorem vars_outcomes (run : DryRun) (configurations : List Configuration)
    : (run.outcomes configurations).2.vars = run.vars := by
  induction configurations generalizing run with
  | nil => rfl
  | cons c rest ih => exact (ih _).trans (vars_resolveOne run c)

-----------------------------------------------------------------------------------------
-- Final outcomes
-----------------------------------------------------------------------------------------

/-- What finally became of the configuration with a coordinate, in a run over configurations. -/
def finalOutcome (run : DryRun) (order : List Configuration) (target : Coordinate)
    : Option (Except (List ResolutionError) ResolvedConfiguration) :=
  ((order.zip (run.outcomes order).1).find? fun e => e.1.coordinate = target).map Prod.snd

theorem finalOutcome_cons (run : DryRun) (c : Configuration) (rest : List Configuration)
    (target : Coordinate)
    : run.finalOutcome (c :: rest) target
      = if c.coordinate = target then some (run.outcome c)
        else (run.resolveOne c).2.finalOutcome rest target := by
  rw [finalOutcome, outcomes, List.zip_cons_cons, List.find?_cons]
  rcases eq_or_ne c.coordinate target with same | different
  · simp [same, fst_resolveOne]
  · simp [different, finalOutcome]

/-- Exactly the coordinates of the configurations have a final outcome. -/
theorem finalOutcome_eq_none_iff {run : DryRun} {order : List Configuration} {target : Coordinate}
    : run.finalOutcome order target = none ↔ target ∉ order.map Configuration.coordinate := by
  induction order generalizing run with
  | nil => simp [finalOutcome]
  | cons c rest ih =>
      rw [finalOutcome_cons, List.map_cons, List.mem_cons, not_or]
      rcases eq_or_ne c.coordinate target with same | different
      · simp [same]
      · simp [different, different.symm, ih]

theorem finalOutcome_append (run : DryRun) (first second : List Configuration) (target : Coordinate)
    : run.finalOutcome (first ++ second) target
      = (run.finalOutcome first target).or
          ((run.outcomes first).2.finalOutcome second target) := by
  induction first generalizing run with
  | nil => rfl
  | cons c rest ih =>
      rw [List.cons_append, finalOutcome_cons, finalOutcome_cons, ih]
      split <;> rfl

/-- The store of a run after configurations of different coordinates: what finally became of each,
unless it failed; by induction on the configurations.
-/
theorem get?_outcomes {order : List Configuration}
    (distinct : (order.map Configuration.coordinate).Nodup) (run : DryRun) (target : Coordinate)
    : (run.outcomes order).2.resolved.get? target
      = (((run.finalOutcome order target).bind Except.toOption).map
            ResolvedConfiguration.entity).or (run.resolved.get? target) := by
  induction order generalizing run with
  | nil => rfl
  | cons c rest ih =>
      obtain ⟨new, later⟩ := List.nodup_cons.mp distinct
      rw [outcomes, finalOutcome_cons]
      apply (ih later (run.resolveOne c).2).trans
      rw [get?_resolveOne]
      rcases eq_or_ne c.coordinate target with rfl | different
      · simp [finalOutcome_eq_none_iff.mpr new]
      · simp [different, different.symm]

end DryRun

end Rollout
