import Rollout.Disk
import Rollout.Parameter.Basic

/-!
The unit of deployment: one definition expanded for one environment.
-/

namespace Rollout

/-- A configuration. `references` holds the coordinates its parameters refer to, never its own. -/
structure Configuration where
  template : Template
  coordinate : Coordinate
  group : String
  environment : String
  parameters : SortedMap String Parameter
  references : List Coordinate
  skip : Bool
deriving Inhabited

/-- What a run reports beside its result. -/
inductive Warning
  | deprecatedApi (api replacement : String)
  | duplicateConfiguration (environment : String) (coordinate : Coordinate)
deriving DecidableEq, Repr

def Warning.message : Warning → String
  | .deprecatedApi api replacement =>
      "API '" ++ api ++ "' is deprecated. Please migrate to '" ++ replacement ++ "'."
  | .duplicateConfiguration environment coordinate =>
      "Ignoring duplicate configuration while sorting environment=" ++ environment
        ++ " coordinate=" ++ coordinate.canonical

end Rollout
