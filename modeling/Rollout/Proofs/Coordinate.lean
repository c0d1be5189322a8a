import Mathlib.Tactic.Common
import Rollout.Coordinate

/-!
The order of coordinates. The bytes that are compared are those of the canonical text, and the
fields decide only between coordinates that share a text, so the order is total, follows the text
wherever texts differ, and tells any two coordinates apart.
-/

namespace Rollout.Coordinate

variable {a b : Coordinate}

-----------------------------------------------------------------------------------------
-- The canonical bytes
-----------------------------------------------------------------------------------------

/-- What is compared first are the bytes of the text that users see. -/
theorem canonicalBytes_eq (c : Coordinate)
    : c.canonicalBytes = c.canonical.toUTF8.data.toList := by
  have colon : (":" : String).toByteArray.data.toList = [':'.toUInt8] := rfl
  simp only [canonicalBytes, canonical, String.toUTF8, String.toByteArray_append,
    ByteArray.data_append, Array.toList_append, colon, List.append_assoc, List.singleton_append]

/-- Texts differ in their bytes, so coordinates share the bytes only where they share the text. -/
theorem canonicalBytes_inj : a.canonicalBytes = b.canonicalBytes ↔ a.canonical = b.canonical := by
  rw [canonicalBytes_eq, canonicalBytes_eq, Array.toList_inj, ← ByteArray.ext_iff]
  exact String.toByteArray_inj

-----------------------------------------------------------------------------------------
-- The order
-----------------------------------------------------------------------------------------

instance : Std.TransCmp order :=
  inferInstanceAs (Std.TransOrd Coordinate)

instance : Std.LawfulEqCmp order :=
  inferInstanceAs (Std.LawfulEqOrd Coordinate)

/-- Where the texts differ the fields are not asked. -/
theorem order_of_canonical_ne (differ : a.canonical ≠ b.canonical)
    : a.order b = compare a.canonicalBytes b.canonicalBytes := by
  have decided : compare a.canonicalBytes b.canonicalBytes ≠ .eq := fun same =>
    differ (canonicalBytes_inj.mp (Std.LawfulEqOrd.eq_of_compare same))
  rw [order, compareLex, compareOn]
  cases first : compare a.canonicalBytes b.canonicalBytes with
  | eq => exact absurd first decided
  | lt => rfl
  | gt => rfl

/-- Coordinates are totally ordered, whatever their fields hold: the order is antisymmetric and
transitive, and only coordinates with the same three fields are equal in it. Where canonical texts
differ it is the order of their bytes.
-/
theorem order_lawful (a b c : Coordinate)
    : a.order b = (b.order a).swap
      ∧ ((a.order b).isLE → (b.order c).isLE → (a.order c).isLE)
      ∧ (a.order b = .lt → b.order c = .lt → a.order c = .lt)
      ∧ (a.order b = .eq ↔ a.project = b.project ∧ a.api = b.api ∧ a.configId = b.configId)
      ∧ (a.canonical ≠ b.canonical
        → a.order b = compare a.canonical.toUTF8.data.toList b.canonical.toUTF8.data.toList) := by
  refine ⟨Std.OrientedCmp.eq_swap, Std.TransCmp.isLE_trans, Std.TransCmp.lt_trans, ?fields, ?text⟩
  case fields => rw [Std.LawfulEqCmp.compare_eq_iff_eq, Coordinate.mk.injEq]
  case text =>
    intro differ
    rw [order_of_canonical_ne differ, canonicalBytes_eq, canonicalBytes_eq]

/-- A hyphen comes before a colon, so the first text does; the other two coordinates share a text.
-/
theorem order_lawful_shared
    : canonical ⟨"a-b", "c", "d"⟩ ≠ canonical ⟨"a", "b:c", "d"⟩
      ∧ canonical ⟨"a", "b:c", "d"⟩ = canonical ⟨"a:b", "c", "d"⟩
      ∧ compare (canonical ⟨"a-b", "c", "d"⟩).toUTF8.data.toList
          (canonical ⟨"a", "b:c", "d"⟩).toUTF8.data.toList = .lt
      ∧ order ⟨"a", "b:c", "d"⟩ ⟨"a:b", "c", "d"⟩ = .lt
      ∧ order ⟨"a-b", "c", "d"⟩ ⟨"a:b", "c", "d"⟩ = .lt := by
  have differ : canonical ⟨"a-b", "c", "d"⟩ ≠ canonical ⟨"a", "b:c", "d"⟩ := by decide
  have first : order ⟨"a-b", "c", "d"⟩ ⟨"a", "b:c", "d"⟩ = .lt := by decide
  have second : order ⟨"a", "b:c", "d"⟩ ⟨"a:b", "c", "d"⟩ = .lt := by decide
  obtain ⟨_, _, transitive, _, follows⟩ :=
    order_lawful ⟨"a-b", "c", "d"⟩ ⟨"a", "b:c", "d"⟩ ⟨"a:b", "c", "d"⟩
  exact ⟨differ, by decide, (follows differ).symm.trans first, second, transitive first second⟩

end Rollout.Coordinate
