/-!
Results of a batch: all values if nothing failed, otherwise all errors.
-/

namespace Rollout.Batch

variable {ε α : Type _}

/-- The errors of one member of a batch. -/
def errorsOf : Except (List ε) α → List ε
  | .ok _ => []
  | .error errors => errors

/-- All values, or all errors, in the order of the members. -/
def collect (results : List (Except (List ε) α)) : Except (List ε) (List α) :=
  let errors := results.flatMap errorsOf
  if errors.isEmpty then .ok (results.filterMap Except.toOption) else .error errors

/-- Like `collect`, the values of the members put together. -/
def concat (results : List (Except (List ε) (List α))) : Except (List ε) (List α) :=
  (collect results).map List.flatten

end Rollout.Batch
