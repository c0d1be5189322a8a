import Rollout.Definition.Reading
import Rollout.LoadError
import Rollout.Text.Blank

/-!
Definition files as a whole: which are empty, which are in the legacy format and which are broken.
-/

namespace Rollout.Definition

/-- Has the text nothing but blank lines and comments? -/
def isBlankFile (text : List Char) : Bool :=
  (Text.lines text).all fun line =>
    match Text.trim line with
    | [] => true
    | c :: _ => c = '#'

/-- The field that files in the legacy format begin with. -/
def legacyField : String :=
  "config"

/-- Is the legacy field, at the top of the file, what is wrong with it? -/
def isLegacy : Yaml.Problem → Bool
  | .complaint .root (.unknownField name _) => name = legacyField
  | _ => false

/-- The definitions of a file with at least one. -/
def ofFile (path : Path) (text : String) : Except LoadError (List Definition) :=
  -- A file of comments alone is no document, which would read as a list of no definitions too.
  if isBlankFile text.toList then .error (.noConfigurations path)
  else
    match readFile text.toList with
    | .error failure =>
        if isLegacy failure.problem then .error (.legacyFormat path failure.message)
        else .error (.malformed path failure.message)
    | .ok [] => .error (.noConfigurations path)
    | .ok definitions => .ok definitions

end Rollout.Definition
