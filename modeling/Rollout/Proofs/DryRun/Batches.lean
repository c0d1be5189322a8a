import Rollout.Proofs.DryRun.Order

/-!
A dry run that is given configurations in several batches. It makes no difference where a batch
ends, a configuration that fails leaves nothing behind, and the store holds of every coordinate
what came of it last.
-/

namespace Rollout

/-- What became of configurations, one after the other. -/
abbrev DryRun.History :=
  List (Configuration × Except (List ResolutionError) ResolvedConfiguration)

namespace DryRun

variable {run : DryRun} {c : Configuration}

-----------------------------------------------------------------------------------------
-- One batch after another
-----------------------------------------------------------------------------------------

theorem snd_resolve (run : DryRun) (configurations : List Configuration)
    : (run.resolve configurations).2 = (run.outcomes configurations).2 :=
  rfl

/-- One batch is as good as two, wherever it is cut. -/
theorem resolve_append (run : DryRun) (first second : List Configuration)
    : run.resolve (first ++ second)
      = (Batch.append (run.resolve first).1 ((run.resolve first).2.resolve second).1,
          ((run.resolve first).2.resolve second).2) := by
  simp only [resolve, outcomes_append, Batch.collect_append]

/-- A configuration that fails leaves the run as it is. -/
theorem snd_resolve_of_error {errors : List ResolutionError}
    (failed : run.outcome c = .error errors) (later : List Configuration)
    : (run.resolve (c :: later)).2 = (run.resolve later).2 := by
  simp only [snd_resolve, outcomes, resolveOne, failed]

/-- A run after batches, one after the other. -/
def after (run : DryRun) (batches : List (List Configuration)) : DryRun :=
  batches.foldl (fun run batch => (run.resolve batch).2) run

/-- What becomes of the configurations of batches, one after the other. -/
def history (run : DryRun) : List (List Configuration) → History
  | [] => []
  | batch :: rest => batch.zip (run.outcomes batch).1 ++ (run.resolve batch).2.history rest

-----------------------------------------------------------------------------------------
-- The latest entries
-----------------------------------------------------------------------------------------

/-- The entry that came last of a configuration with this coordinate, apart from those that failed.
-/
def History.latest (history : History) (target : Coordinate) : Option ResolvedConfiguration :=
  (history.filterMap fun e =>
    if e.1.coordinate = target then e.2.toOption else none).getLast?

theorem History.latest_append (early late : History) (target : Coordinate)
    : (early ++ late).latest target = (late.latest target).or (early.latest target) := by
  rw [latest, List.filterMap_append, List.getLast?_append]
  rfl

theorem History.latest_cons
    (e : Configuration × Except (List ResolutionError) ResolvedConfiguration)
    (rest : History) (target : Coordinate)
    : History.latest (e :: rest) target
      = (rest.latest target).or
          (if e.1.coordinate = target then e.2.toOption else none) := by
  have split := latest_append [e] rest target
  rw [List.singleton_append] at split
  rw [split, latest, latest, List.filterMap_cons, List.filterMap_nil]
  split <;> simp_all

/-- The entry that came last came of a configuration with the coordinate. -/
theorem History.exists_of_latest {history : History} {target : Coordinate}
    {entry : ResolvedConfiguration} (last : history.latest target = some entry)
    : ∃ c, (c, .ok entry) ∈ history ∧ c.coordinate = target := by
  obtain ⟨e, member, kept⟩ := List.mem_filterMap.mp (List.mem_of_getLast? last)
  obtain ⟨named, succeeded⟩ := Option.ite_none_right_eq_some.mp kept
  have same := Batch.toOption_eq_some_iff.mp succeeded
  exact ⟨e.1, same ▸ member, named⟩

-----------------------------------------------------------------------------------------
-- The store
-----------------------------------------------------------------------------------------

/-- Every result is the outcome of its configuration at some point, by induction on the batch. -/
theorem exists_outcome_of_mem_zip {configurations : List Configuration}
    {result : Except (List ResolutionError) ResolvedConfiguration}
    (member : (c, result) ∈ configurations.zip (run.outcomes configurations).1)
    : ∃ reached : DryRun, reached.outcome c = result := by
  induction configurations generalizing run with
  | nil => cases member
  | cons d rest ih =>
      rw [outcomes, List.zip_cons_cons, List.mem_cons] at member
      obtain first | later := member
      · obtain ⟨rfl, rfl⟩ := Prod.mk.inj first
        exact ⟨run, (fst_resolveOne run c).symm⟩
      · exact ih later

theorem exists_outcome_of_mem_history {batches : List (List Configuration)}
    {result : Except (List ResolutionError) ResolvedConfiguration}
    (member : (c, result) ∈ run.history batches)
    : ∃ reached : DryRun, reached.outcome c = result := by
  induction batches generalizing run with
  | nil => cases member
  | cons batch rest ih =>
      obtain first | later := List.mem_append.mp member
      · exact exists_outcome_of_mem_zip first
      · exact ih later

/-- An entry that is not skipped has an `id`. -/
theorem contains_id_of_outcome {entry : ResolvedConfiguration}
    (resolved : run.outcome c = .ok entry) (kept : entry.skip = false)
    : entry.properties.contains idParameter = true := by
  cases skip : c.skip with
  | true =>
      rw [run.outcome_of_skipped skip] at resolved
      cases resolved
      cases kept
  | false =>
      rw [run.outcome_of_kept skip] at resolved
      split at resolved
      · cases resolved
        simp [SortedMap.contains, get?_withId]
      · cases resolved

/-- After a batch the store holds of every coordinate what came of it last in the batch, and what it
held before if nothing did; by induction on the batch.
-/
theorem get?_outcomes_latest (run : DryRun) (configurations : List Configuration)
    (target : Coordinate)
    : (run.outcomes configurations).2.resolved.get? target
      = ((History.latest (configurations.zip (run.outcomes configurations).1) target).map
            ResolvedConfiguration.entity).or (run.resolved.get? target) := by
  induction configurations generalizing run with
  | nil => rfl
  | cons c rest ih =>
      rw [outcomes, List.zip_cons_cons, History.latest_cons]
      apply (ih (run.resolveOne c).2).trans
      rw [get?_resolveOne, fst_resolveOne, Option.map_or, Option.or_assoc]
      rcases eq_or_ne c.coordinate target with rfl | different
      · simp
      · simp [different, different.symm]

/-- After batches the store holds of every coordinate what came of it last, by induction on them. -/
theorem get?_after (run : DryRun) (batches : List (List Configuration)) (target : Coordinate)
    : (run.after batches).resolved.get? target
      = (((run.history batches).latest target).map ResolvedConfiguration.entity).or
          (run.resolved.get? target) := by
  induction batches generalizing run with
  | nil => rfl
  | cons batch rest ih =>
      apply (ih (run.resolve batch).2).trans
      rw [snd_resolve, get?_outcomes_latest, history, History.latest_append, Option.map_or,
        Option.or_assoc]
      rfl

/-- Batches make no difference to a dry run, whatever it was given before. Two batches end in the
state in which both as one end, and result in the same, put together. A configuration that fails
changes nothing, whatever else its batch leaves behind. The store holds of every coordinate what
came last of a configuration with it, apart from failures, and nothing else; unless this was
skipped, it has an `id`.
-/
theorem resolve_in_batches (environment : String) (vars : Variables)
    (batches : List (List Configuration))
    : let start := DryRun.new environment vars
      let run := start.after batches
      (∀ first second,
        run.resolve (first ++ second)
        = (Batch.append (run.resolve first).1 ((run.resolve first).2.resolve second).1,
            ((run.resolve first).2.resolve second).2))
      ∧ (∀ before c later errors, (run.resolve before).2.outcome c = .error errors →
          (run.resolve (before ++ [c])).2 = (run.resolve before).2
          ∧ (run.resolve (before ++ c :: later)).2 = (run.resolve (before ++ later)).2)
      ∧ (∀ target,
          run.resolved.get? target
          = ((start.history batches).latest target).map ResolvedConfiguration.entity)
      ∧ ∀ target entity, run.resolved.get? target = some entity →
          entity.coordinate = target
          ∧ (entity.skip = false → entity.properties.contains idParameter = true) := by
  intro start run
  have stored (target : Coordinate)
      : run.resolved.get? target
        = ((start.history batches).latest target).map ResolvedConfiguration.entity := by
    rw [get?_after]
    exact Option.or_none
  refine ⟨run.resolve_append, fun before c later errors failed => ?_, stored,
    fun target entity held => ?_⟩
  · rw [resolve_append, resolve_append, resolve_append, snd_resolve_of_error failed,
      snd_resolve_of_error failed]
    exact ⟨rfl, rfl⟩
  · rw [stored] at held
    obtain ⟨entry, last, rfl⟩ := Option.map_eq_some_iff.mp held
    obtain ⟨c, member, named⟩ := History.exists_of_latest last
    obtain ⟨reached, resolved⟩ := exists_outcome_of_mem_history member
    exact ⟨(coordinate_of_outcome resolved).trans named, contains_id_of_outcome resolved⟩

/-- A dashboard that refers to a property which another does not have. -/
def outdated : Configuration :=
  dashboard "service" false [("part", shown "latency" "owner")]

/-- A dashboard that was skipped is there once it is given again, and one that fails afterwards
changes nothing, though its batch leaves another one behind.
-/
theorem resolve_in_batches_dashboards
    : let run := (DryRun.new "dev" fun _ => none).after [hidden, [dashboard "latency" false []]]
      let costs := dashboard "costs" false []
      (∃ errors, (run.resolve [costs]).2.outcome outdated = .error errors
        ∧ (run.resolve ([costs] ++ [outdated])).2 = (run.resolve [costs]).2)
      ∧ ∃ entity, run.resolved.get? ⟨"app", "dashboard", "latency"⟩ = some entity
        ∧ entity.coordinate = ⟨"app", "dashboard", "latency"⟩
        ∧ entity.skip = false
        ∧ entity.properties.contains idParameter = true := by
  intro run costs
  obtain ⟨_, unchanged, _, held⟩ :=
    resolve_in_batches "dev" (fun _ => none) [hidden, [dashboard "latency" false []]]
  constructor
  · have fails : Batch.errorsOf ((run.resolve [costs]).2.outcome outdated) ≠ [] := by
      decide +kernel
    cases outcome : (run.resolve [costs]).2.outcome outdated with
    | ok entry =>
        rw [outcome] at fails
        exact absurd rfl fails
    | error errors => exact ⟨errors, rfl, (unchanged [costs] outdated [] errors outcome).1⟩
  · have there : (run.resolved.get? ⟨"app", "dashboard", "latency"⟩).any (!·.skip) = true := by
      decide +kernel
    obtain ⟨entity, found, kept⟩ := (Option.any_eq_true _ _).mp there
    rw [Bool.not_eq_true'] at kept
    obtain ⟨named, identified⟩ := held _ entity found
    exact ⟨entity, found, named, kept, identified kept⟩

end DryRun

end Rollout
