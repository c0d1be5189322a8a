/-!
The identity of a configuration, its canonical text `project:api:id`, and the order by that text.
-/

namespace Rollout

/-- Names one configuration object. -/
structure Coordinate where
  project : String
  api : String
  configId : String
deriving DecidableEq, Repr, Inhabited

namespace Coordinate

/-- The text users see. Different coordinates can share it, since a field may hold a colon. -/
def canonical (c : Coordinate) : String :=
  c.project ++ ":" ++ c.api ++ ":" ++ c.configId

/-- The bytes of the canonical text. -/
def canonicalBytes (c : Coordinate) : List UInt8 :=
  c.project.toUTF8.data.toList ++ ':'.toUInt8 :: c.api.toUTF8.data.toList
    ++ ':'.toUInt8 :: c.configId.toUTF8.data.toList

/-- The order of the canonical bytes; the fields decide between coordinates that share them. -/
def order : Coordinate → Coordinate → Ordering :=
  compareLex (compareOn canonicalBytes)
    (compareLex (compareOn project) (compareLex (compareOn api) (compareOn configId)))

instance : Ord Coordinate :=
  ⟨order⟩

instance : Std.TransOrd Coordinate :=
  inferInstanceAs (Std.TransCmp (compareLex (compareOn canonicalBytes)
    (compareLex (compareOn project) (compareLex (compareOn api) (compareOn configId)))))

instance : Std.LawfulEqOrd Coordinate where
  eq_of_compare {a b} h := by
    have h : order a b = .eq := h
    simp only [order, compareLex_eq_eq, compareOn, Std.LawfulEqCmp.compare_eq_iff_eq] at h
    obtain ⟨-, hp, ha, hi⟩ := h
    cases a
    cases b
    simp_all

end Coordinate

end Rollout
