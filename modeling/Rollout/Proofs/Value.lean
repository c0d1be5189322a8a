import Mathlib.Data.List.Basic
import Rollout.Value

/-!
Values beneath their tags, and what a mapping holds under a text.
-/

namespace Rollout.Value

-----------------------------------------------------------------------------------------
-- Tags
-----------------------------------------------------------------------------------------

/-- A value without its tags, however many stand on top of one another. -/
def untagged : Value → Value
  | .tagged _ value => value.untagged
  | value => value

/-- An untagged value that is no collection. -/
def IsScalar : Value → Prop
  | .sequence _ | .mapping _ | .tagged _ _ => False
  | _ => True

/-- Exactly a scalar has a text, whatever its tags; by induction on the tags. -/
theorem isSome_scalarText_iff (value : Value)
    : value.scalarText.isSome ↔ value.untagged.IsScalar := by
  fun_induction untagged value with
  | case1 tag value ih => rw [scalarText, ih]
  | case2 value bare =>
      cases value with
      | tagged tag value => exact absurd rfl (bare tag value)
      | _ => simp [scalarText, IsScalar]

-----------------------------------------------------------------------------------------
-- Mappings
-----------------------------------------------------------------------------------------

/-- No text is the key of two entries. -/
def DistinctTexts (entries : List (Value × Value)) : Prop :=
  entries.Pairwise fun first second => ∀ key, first.1 = .text key → second.1 ≠ .text key

/-- A mapping holds exactly its entries, in whatever order they stand; by induction on them. -/
theorem field_eq_some_iff {entries : List (Value × Value)} (distinct : DistinctTexts entries)
    {key : String} {value : Value}
    : field key entries = some value ↔ (.text key, value) ∈ entries := by
  induction entries with
  | nil => simp [field]
  | cons entry rest ih =>
      obtain ⟨above, below⟩ := List.pairwise_cons.mp distinct
      obtain ⟨head, held⟩ := entry
      have absent (same : head = .text key) : (.text key, value) ∉ rest := fun member =>
        above _ member key same rfl
      cases head with
      | text name =>
          rw [field]
          by_cases same : name = key
          · subst same
            simp [absent rfl, eq_comm]
          · simp [same, ih below, Ne.symm same]
      | _ => simp [field, ih below]

end Rollout.Value
