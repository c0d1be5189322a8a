import Mathlib.Data.List.Basic
import Rollout.Proofs.DryRun
import Rollout.Proofs.Faithful

/-!
What becomes of a configuration, told by what becomes of its parameters: it fails with the errors of
those that fail, and otherwise has a property for each of them and an `id`. Of what is resolved
before it only the configurations that its parameters refer to count.
-/

namespace Rollout.DryRun

-----------------------------------------------------------------------------------------
-- The parameters of a configuration
-----------------------------------------------------------------------------------------

theorem mem_resolutionOrder {c : Configuration} {e : String × Parameter}
    : e ∈ resolutionOrder c ↔ e ∈ c.parameters.entries := by
  simp only [resolutionOrder, List.mem_append, List.mem_filter, decide_eq_true_eq, ← and_or_left]
  exact and_iff_left (Classical.em _)

/-- Every parameter is resolved once. -/
theorem names_resolutionOrder_nodup (c : Configuration)
    : ((resolutionOrder c).map Prod.fst).Nodup := by
  have all : (c.parameters.entries.map Prod.fst).Nodup := c.parameters.keys_nodup
  rw [resolutionOrder, List.map_append, List.nodup_append]
  refine ⟨all.sublist (List.filter_sublist.map _), all.sublist (List.filter_sublist.map _), ?_⟩
  intro name first other later same
  obtain ⟨e, kept, rfl⟩ := List.mem_map.mp first
  obtain ⟨f, dropped, rfl⟩ := List.mem_map.mp later
  simp only [List.mem_filter, decide_eq_true_eq] at kept dropped
  exact dropped.2 (same.symm.trans kept.2)

/-- What is known of the parameters of a configuration, after one more of them. -/
def addParameter (run : DryRun) (c : Configuration)
    (known : SortedMap String Value × List ResolutionError) (e : String × Parameter)
    : SortedMap String Value × List ResolutionError :=
  match run.resolveParameter c e.1 e.2 with
  | .ok value => (known.1.insert e.1 value, known.2)
  | .error error => (known.1, known.2 ++ [error])

theorem resolveParameters_eq (run : DryRun) (c : Configuration)
    : run.resolveParameters c = (resolutionOrder c).foldl (run.addParameter c) (.empty, []) :=
  rfl

variable {run : DryRun} {c : Configuration}

/-- The errors are those of the parameters that fail, by induction on the parameters. -/
theorem mem_snd_addParameters {parameters : List (String × Parameter)}
    {known : SortedMap String Value × List ResolutionError} {error : ResolutionError}
    : error ∈ (parameters.foldl (run.addParameter c) known).2
      ↔ error ∈ known.2
        ∨ ∃ e ∈ parameters, run.resolveParameter c e.1 e.2 = .error error := by
  induction parameters generalizing known with
  | nil => simp
  | cons e rest ih =>
      rw [List.foldl_cons, ih, addParameter]
      cases resolved : run.resolveParameter c e.1 e.2 with
      | ok value => simp [resolved]
      | error cause => simp [resolved, or_assoc, eq_comm]

/-- The properties are those of the parameters that do not fail, by induction on the parameters. -/
theorem fst_addParameters (parameters : List (String × Parameter))
    (known : SortedMap String Value × List ResolutionError)
    : (parameters.foldl (run.addParameter c) known).1
      = SortedMap.insertEach (fun e => (run.resolveParameter c e.1 e.2).toOption) known.1
          parameters := by
  induction parameters generalizing known with
  | nil => rfl
  | cons e rest ih =>
      rw [List.foldl_cons, ih, addParameter, SortedMap.insertEach_cons]
      cases run.resolveParameter c e.1 e.2 <;> rfl

/-- A configuration has the errors of those of its parameters that fail. -/
theorem mem_snd_resolveParameters {error : ResolutionError}
    : error ∈ (run.resolveParameters c).2
      ↔ ∃ name parameter, c.parameters.get? name = some parameter
          ∧ run.resolveParameter c name parameter = .error error := by
  rw [resolveParameters_eq, mem_snd_addParameters]
  simp [mem_resolutionOrder, SortedMap.get?_eq_some_iff]

/-- A configuration has the values of those parameters that do not fail, under their names. -/
theorem get?_fst_resolveParameters {name : String}
    : (run.resolveParameters c).1.get? name
      = (c.parameters.get? name).bind fun parameter =>
          (run.resolveParameter c name parameter).toOption := by
  apply Option.ext
  intro value
  rw [resolveParameters_eq, fst_addParameters,
    SortedMap.get?_insertEach (names_resolutionOrder_nodup c) (by simp)]
  simp [mem_resolutionOrder, SortedMap.get?_eq_some_iff, Option.bind_eq_some_iff]

/-- An `id` is there in any case, the one a parameter gives before the one that stands in for it. -/
theorem get?_withId (c : Configuration) (properties : SortedMap String Value) (name : String)
    : (withId c properties).get? name
      = (properties.get? name).or
          (if name = idParameter then some (.text c.coordinate.canonical) else none) := by
  unfold withId
  rcases eq_or_ne name idParameter with rfl | different
  · cases held : properties.get? idParameter <;> simp [SortedMap.contains, held]
  · split
    · simp
    · simp [SortedMap.get?_insert, different]

-----------------------------------------------------------------------------------------
-- The outcome of a configuration
-----------------------------------------------------------------------------------------

/-- A parameter of a configuration that cannot be resolved, and why. -/
def Fails (run : DryRun) (c : Configuration) (error : ResolutionError) : Prop :=
  ∃ name parameter, c.parameters.get? name = some parameter
    ∧ run.resolveParameter c name parameter = .error error

/-- What becomes of a configuration follows from its parameters: if it is not skipped, it fails
exactly if one of them does, with their errors; otherwise it has exactly their values and an `id`.
-/
structure Follows (run : DryRun) (c : Configuration)
    (result : Except (List ResolutionError) ResolvedConfiguration) : Prop where
  skipped : c.skip = true → result = .ok ⟨c.coordinate, run.environment, true, .empty⟩
  fails_iff : c.skip = false → ((∃ errors, result = .error errors) ↔ ∃ error, run.Fails c error)
  errors : c.skip = false → ∀ errors, result = .error errors →
    ∀ error, error ∈ errors ↔ run.Fails c error
  properties : c.skip = false → ∀ entry, result = .ok entry →
    entry.coordinate = c.coordinate ∧ entry.skip = false
    ∧ ∀ name,
        entry.properties.get? name
        = match c.parameters.get? name with
          | some parameter => (run.resolveParameter c name parameter).toOption
          | none => if name = idParameter then some (.text c.coordinate.canonical) else none

theorem follows_outcome (run : DryRun) (c : Configuration) : run.Follows c (run.outcome c) := by
  have failures (error : ResolutionError)
      : error ∈ (run.resolveParameters c).2 ↔ run.Fails c error :=
    mem_snd_resolveParameters
  constructor
  case skipped => exact run.outcome_of_skipped
  case fails_iff =>
    intro kept
    rw [run.outcome_of_kept kept]
    by_cases none : (run.resolveParameters c).2 = []
    · simp [← failures, none]
    · simpa [← failures, none] using List.exists_mem_of_ne_nil _ none
  case errors =>
    intro kept errors failed error
    rw [run.outcome_of_kept kept] at failed
    split at failed
    · cases failed
    · cases failed
      exact failures error
  case properties =>
    intro kept entry resolved
    rw [run.outcome_of_kept kept] at resolved
    split at resolved
    next none =>
      cases resolved
      refine ⟨rfl, rfl, fun name => ?_⟩
      rw [get?_withId, get?_fst_resolveParameters]
      cases held : c.parameters.get? name with
      | none => simp
      | some parameter =>
          cases value : run.resolveParameter c name parameter with
          | ok value => simp [value, Except.toOption]
          | error error =>
              have member := (failures error).mpr ⟨name, parameter, held, value⟩
              simp [none] at member
    next => cases resolved

-----------------------------------------------------------------------------------------
-- What an outcome depends on
-----------------------------------------------------------------------------------------

variable {other : DryRun}

/-- A faithful parameter sees nothing but the variables and what it refers to. -/
theorem resolveParameter_congr (environment : run.environment = other.environment)
    (vars : run.vars = other.vars) {name : String} {parameter : Parameter}
    (faithful : parameter.Faithful)
    (seen : ∀ target ∈ parameter.targets, run.resolved.get? target = other.resolved.get? target)
    : run.resolveParameter c name parameter = other.resolveParameter c name parameter := by
  have same := faithful c.coordinate name run.vars run.resolved other.resolved seen
  rw [resolveParameter, resolveParameter, same, vars, environment]

/-- What becomes of a configuration with faithful parameters depends on nothing but the variables
and what they refer to.
-/
theorem outcome_congr_of_faithful (environment : run.environment = other.environment)
    (vars : run.vars = other.vars)
    (faithful : ∀ parameter ∈ c.parameters.values, parameter.Faithful)
    (seen : ∀ target ∈ c.targets, run.resolved.get? target = other.resolved.get? target)
    : run.outcome c = other.outcome c := by
  have step (known : SortedMap String Value × List ResolutionError) (e : String × Parameter)
      (member : e ∈ resolutionOrder c)
      : run.addParameter c known e = other.addParameter c known e := by
    have held : e.2 ∈ c.parameters.values := List.mem_map_of_mem (mem_resolutionOrder.mp member)
    have inside (target : Coordinate) (refers : target ∈ e.2.targets) : target ∈ c.targets :=
      List.mem_flatMap.mpr ⟨e.2, held, refers⟩
    rw [addParameter, addParameter, resolveParameter_congr environment vars (faithful e.2 held)
      fun target refers => seen target (inside target refers)]
  have all : run.resolveParameters c = other.resolveParameters c := by
    rw [resolveParameters_eq, resolveParameters_eq]
    exact List.foldl_ext _ _ _ step
  rw [outcome, outcome, all, environment]

/-- So it is with parameters of built-in kinds. -/
theorem outcome_congr (environment : run.environment = other.environment)
    (vars : run.vars = other.vars)
    (builtin : ∀ parameter ∈ c.parameters.values, parameter.isBuiltin = true)
    (seen : ∀ target ∈ c.targets, run.resolved.get? target = other.resolved.get? target)
    : run.outcome c = other.outcome c :=
  outcome_congr_of_faithful environment vars
    (fun parameter member => Parameter.faithful_of_isBuiltin (builtin parameter member)) seen

end Rollout.DryRun
