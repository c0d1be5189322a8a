import Mathlib.Data.List.Basic
import Mathlib.Data.List.Perm.Basic
import Mathlib.Data.Set.List
import Rollout.Batch

/-!
What the result of a batch says of its members, and how batches put together behave.
-/

namespace Rollout.Batch

variable {ε δ α : Type _}

/-- The errors of a batch are those of its members. -/
@[simp] theorem errorsOf_collect (results : List (Except (List ε) α))
    : errorsOf (collect results) = results.flatMap errorsOf := by
  unfold collect
  cases errors : results.flatMap errorsOf with
  | nil => rfl
  | cons => rfl

/-- A batch that succeeds has no errors, and its values are those of its members. -/
theorem collect_eq_ok_iff {results : List (Except (List ε) α)} {values : List α}
    : collect results = .ok values
      ↔ results.flatMap errorsOf = [] ∧ values = results.filterMap Except.toOption := by
  unfold collect
  cases errors : results.flatMap errorsOf with
  | nil => simp [eq_comm]
  | cons => simp

/-- A batch of values succeeds with them. -/
theorem collect_map_ok (values : List α)
    : collect (values.map fun value => (.ok value : Except (List ε) α)) = .ok values := by
  rw [collect_eq_ok_iff]
  simp [errorsOf, Except.toOption, List.filterMap_map, List.flatMap_map, Function.comp_def]

theorem toOption_eq_some_iff {result : Except ε α} {value : α}
    : result.toOption = some value ↔ result = .ok value := by
  cases result <;> simp [Except.toOption]

/-- A result that has a value with some property is that value. -/
theorem exists_ok_of_any {result : Except ε α} {holds : α → Bool}
    (some : result.toOption.any holds = true)
    : ∃ value, result = .ok value ∧ holds value = true := by
  obtain ⟨value, done, fact⟩ := (Option.any_eq_true _ _).mp some
  exact ⟨value, toOption_eq_some_iff.mp done, fact⟩

/-- The values of a batch that succeeds are those its members have. -/
theorem mem_of_collect_eq_ok {results : List (Except (List ε) α)} {values : List α}
    (h : collect results = .ok values) {value : α}
    : value ∈ values ↔ .ok value ∈ results := by
  obtain ⟨_, rfl⟩ := collect_eq_ok_iff.mp h
  simp only [List.mem_filterMap, toOption_eq_some_iff, exists_eq_right]

/-- A batch that succeeds has no member with an error. -/
theorem errorsOf_eq_nil_of_concat {results : List (Except (List ε) (List α))} {values : List α}
    (h : concat results = .ok values) {result : Except (List ε) (List α)}
    (member : result ∈ results)
    : errorsOf result = [] := by
  cases collected : collect results with
  | error errors => simp [concat, collected, Except.map] at h
  | ok parts => exact List.flatMap_eq_nil_iff.mp (collect_eq_ok_iff.mp collected).1 result member

/-- Every member of a batch has a value if the batch has one and no member fails without an error.
-/
theorem eq_map_ok_of_collect {results : List (Except (List ε) α)} {values : List α}
    (reported : ∀ errors, .error errors ∈ results → errors ≠ [])
    (h : collect results = .ok values)
    : results = values.map .ok := by
  obtain ⟨none, rfl⟩ := collect_eq_ok_iff.mp h
  rw [List.flatMap_eq_nil_iff] at none
  rw [List.map_filterMap]
  symm
  refine (List.filterMap_congr fun result member => ?_).trans List.filterMap_some
  cases result with
  | ok value => rfl
  | error errors => exact absurd (none _ member) (reported errors member)

/-- A batch fails with the errors of its members, if there are any. -/
theorem collect_eq_error {results : List (Except (List ε) α)}
    (failed : results.flatMap errorsOf ≠ [])
    : collect results = .error (results.flatMap errorsOf) := by
  simp [collect, List.isEmpty_iff, failed]

/-- A batch does not fail without an error. -/
theorem ne_nil_of_collect {results : List (Except (List ε) α)} {errors : List ε}
    (h : collect results = .error errors)
    : errors ≠ [] := by
  by_cases none : results.flatMap errorsOf = []
  · rw [collect_eq_ok_iff.mpr ⟨none, rfl⟩] at h
    cases h
  · rw [collect_eq_error none] at h
    cases h
    exact none

/-- A batch fails with the errors of its members, never with none. -/
theorem collect_eq_error_iff {results : List (Except (List ε) α)} {errors : List ε}
    : collect results = .error errors ↔ errors = results.flatMap errorsOf ∧ errors ≠ [] := by
  constructor
  · intro failed
    refine ⟨?_, ne_nil_of_collect failed⟩
    rw [← errorsOf_collect, failed]
    rfl
  · rintro ⟨rfl, some⟩
    exact collect_eq_error some

/-- Where no member fails without an error, a batch succeeds exactly if all of its members do. -/
theorem collect_eq_ok_iff_eq_map {results : List (Except (List ε) α)} {values : List α}
    (reported : ∀ errors, .error errors ∈ results → errors ≠ [])
    : collect results = .ok values ↔ results = values.map .ok := by
  refine ⟨eq_map_ok_of_collect reported, ?_⟩
  rintro rfl
  exact collect_map_ok values

/-- All members succeed exactly if they are values in order. -/
theorem exists_eq_map_ok_iff {results : List (Except (List ε) α)}
    : (∃ values : List α, results = values.map .ok)
      ↔ ∀ result ∈ results, ∃ value, result = .ok value := by
  have ranges := Set.ext_iff.mp (Set.range_list_map (Except.ok : α → Except (List ε) α)) results
  simpa only [Set.mem_range, Set.mem_ofPred_eq, eq_comm] using ranges

/-- What is made of two results is the same exactly if they have the same errors, where it is the
same of all values that they have.
-/
theorem map_eq_map_iff {β : Type _} {left right : Except (List ε) α} {f : α → β}
    (reportedLeft : ∀ errors, left = .error errors → errors ≠ [])
    (reportedRight : ∀ errors, right = .error errors → errors ≠ [])
    (same : ∀ a b, left = .ok a → right = .ok b → f a = f b)
    : left.map f = right.map f ↔ errorsOf left = errorsOf right := by
  cases left with
  | ok a =>
      cases right with
      | ok b => simp [Except.map, errorsOf, same a b rfl rfl]
      | error errors => simpa [Except.map, errorsOf] using (reportedRight errors rfl).symm
  | error errors =>
      cases right with
      | ok b => simpa [Except.map, errorsOf] using reportedLeft errors rfl
      | error others => simp [Except.map, errorsOf]

/-- Two results of a batch that differ in nothing but the order of their values or errors. -/
inductive Reordered : Except (List ε) (List α) → Except (List ε) (List α) → Prop
  | ok {values others : List α} (perm : values.Perm others) : Reordered (.ok values) (.ok others)
  | error {errors others : List ε} (perm : errors.Perm others)
    : Reordered (.error errors) (.error others)

/-- The order of its members decides about nothing but the order of what a batch results in. -/
theorem reordered_collect {left right : List (Except (List ε) α)} (perm : left.Perm right)
    : Reordered (collect left) (collect right) := by
  have errors : (left.flatMap errorsOf).Perm (right.flatMap errorsOf) := perm.flatMap_right errorsOf
  by_cases none : right.flatMap errorsOf = []
  · have noneLeft : left.flatMap errorsOf = [] := (none ▸ errors).eq_nil
    rw [collect_eq_ok_iff.mpr ⟨noneLeft, rfl⟩, collect_eq_ok_iff.mpr ⟨none, rfl⟩]
    exact .ok (perm.filterMap _)
  · have someLeft : left.flatMap errorsOf ≠ [] := fun empty => none (empty ▸ errors).symm.eq_nil
    rw [collect_eq_error someLeft, collect_eq_error none]
    exact .error errors

/-- Batches put together succeed or fail like the one batch of all their members: they have the same
errors, and without any the same values.
-/
theorem concat_map_collect (parts : List (List (Except (List ε) α)))
    : concat (parts.map collect) = collect parts.flatten := by
  have errors : (parts.map collect).flatMap errorsOf = parts.flatten.flatMap errorsOf := by
    rw [List.flatMap_map, List.flatMap_def, List.flatMap_def, List.map_flatten,
      List.flatten_flatten, List.map_map]
    exact congrArg List.flatten (List.map_congr_left fun part _ => errorsOf_collect part)
  by_cases none : parts.flatten.flatMap errorsOf = []
  · rw [concat, collect_eq_ok_iff.mpr ⟨errors.trans none, rfl⟩, collect_eq_ok_iff.mpr ⟨none, rfl⟩]
    have values : (parts.map collect).filterMap Except.toOption
        = parts.map (List.filterMap Except.toOption) := by
      rw [List.filterMap_map, ← List.filterMap_eq_map]
      apply List.filterMap_congr
      intro part member
      have partNone : part.flatMap errorsOf = [] := by
        rw [List.flatMap_eq_nil_iff] at none ⊢
        exact fun result inside => none result (List.mem_flatten.mpr ⟨part, member, inside⟩)
      simp [collect_eq_ok_iff.mpr ⟨partNone, rfl⟩, Except.toOption]
    rw [values]
    simp [Except.map, List.filterMap_flatten]
  · rw [concat, collect_eq_error (errors ▸ none), collect_eq_error none, errors]
    rfl

/-- Two results put together: both lists of values, or the errors of either, one after the other. -/
def append : Except (List ε) (List α) → Except (List ε) (List α) → Except (List ε) (List α)
  | .ok values, .ok others => .ok (values ++ others)
  | left, right => .error (errorsOf left ++ errorsOf right)

theorem append_of_errors {left right : Except (List ε) (List α)}
    (failed : errorsOf left ++ errorsOf right ≠ [])
    : append left right = .error (errorsOf left ++ errorsOf right) := by
  cases left with
  | error => rfl
  | ok =>
      cases right with
      | error => rfl
      | ok => exact absurd rfl failed

/-- A batch results in what its two parts result in, put together. -/
theorem collect_append (first second : List (Except (List ε) α))
    : collect (first ++ second) = append (collect first) (collect second) := by
  by_cases none : first.flatMap errorsOf ++ second.flatMap errorsOf = []
  · obtain ⟨noneFirst, noneSecond⟩ := List.append_eq_nil_iff.mp none
    rw [collect_eq_ok_iff.mpr ⟨noneFirst, rfl⟩, collect_eq_ok_iff.mpr ⟨noneSecond, rfl⟩,
      collect_eq_ok_iff.mpr ⟨List.flatMap_append.trans none, rfl⟩, append, List.filterMap_append]
  · have failed : (first ++ second).flatMap errorsOf ≠ [] := List.flatMap_append.trans_ne none
    rw [← errorsOf_collect first, ← errorsOf_collect second] at none
    rw [append_of_errors none, collect_eq_error failed, List.flatMap_append, errorsOf_collect,
      errorsOf_collect]

/-- Rewording the errors of the members rewords those of the batch. -/
theorem collect_map_mapError (f : ε → δ) (results : List (Except (List ε) α))
    : collect (results.map (Except.mapError (List.map f)))
      = (collect results).mapError (List.map f) := by
  have errors : (results.map (Except.mapError (List.map f))).flatMap errorsOf
      = (results.flatMap errorsOf).map f := by
    rw [List.flatMap_map, List.map_flatMap]
    apply List.flatMap_congr
    intro result _
    cases result <;> rfl
  by_cases none : results.flatMap errorsOf = []
  · have values : (results.map (Except.mapError (List.map f))).filterMap Except.toOption
        = results.filterMap Except.toOption := by
      rw [List.filterMap_map]
      apply List.filterMap_congr
      intro result _
      cases result <;> rfl
    rw [collect_eq_ok_iff.mpr ⟨none, rfl⟩, collect_eq_ok_iff.mpr ⟨by rw [errors, none]; rfl, rfl⟩,
      values]
    rfl
  · rw [collect_eq_error none, collect_eq_error (by simpa [errors] using none), errors]
    rfl

end Rollout.Batch
