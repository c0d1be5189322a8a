/-!
The targets a definition is expanded for.
-/

namespace Rollout

/-- A deployment target. Group overrides are chosen by its group, environment overrides by its
name.
-/
structure Environment where
  name : String
  group : String
deriving DecidableEq, Repr, Inhabited

/-- The group of an environment that declares none. -/
def Environment.defaultGroup : String :=
  "default"

end Rollout
