import Rollout.Coordinate
import Rollout.Environment
import Rollout.FileFormat

/-!
Why definitions could not be loaded.
-/

namespace Rollout

/-- A definition that could not be expanded for an environment; `parameter` is set where one
parameter alone is the cause.
-/
structure DefinitionError where
  location : Coordinate
  path : Path
  environment : Environment
  parameter : Option String
  reason : String
deriving DecidableEq, Repr

def DefinitionError.message (e : DefinitionError) : String :=
  let place :=
    e.location.canonical ++ " [" ++ e.environment.group ++ "/" ++ e.environment.name ++ "]"
  match e.parameter with
  | some parameter =>
      place ++ ": " ++ parameter ++ ": cannot parse parameter definition in `" ++ e.path.text
        ++ "`: " ++ e.reason
  | none => place ++ ": cannot parse definition in `" ++ e.path.text ++ "`: " ++ e.reason

/-- What a manifest must have. -/
inductive ManifestPart
  | projects
  | environments
deriving DecidableEq, Repr

def ManifestPart.name : ManifestPart → String
  | .projects => "projects"
  | .environments => "environments"

inductive LoadError
  | file (cause : FileError)
  | legacyFormat (path : Path) (detail : String)
  | malformed (path : Path) (detail : String)
  | noConfigurations (path : Path)
  | missingApi (path : Path) (configId : String)
  | unknownApi (api : String) (path : Path)
  | definition (cause : DefinitionError)
  | duplicateCoordinate (environment : String) (coordinate : Coordinate)
  | unknownEnvironment (name : String)
  | unknownProject (name : String)
  | emptyManifest (path : Path) (missing : ManifestPart)
deriving DecidableEq, Repr

def LoadError.message : LoadError → String
  | .file cause => cause.message
  | .legacyFormat path detail =>
      "config '" ++ path.text ++ "' is not a valid configuration definition - it looks like the "
        ++ "legacy format, please convert it first:\n" ++ detail
  | .malformed path detail => "failed to load config '" ++ path.text ++ "':\n" ++ detail
  | .noConfigurations path => "no configurations found in file '" ++ path.text ++ "'"
  | .missingApi path configId =>
      "missing config-property type.api for `" ++ configId ++ "` in " ++ path.text
  | .unknownApi api path => "unknown API: '" ++ api ++ "' in " ++ path.text
  | .definition cause => cause.message
  | .duplicateCoordinate environment coordinate =>
      environment ++ ":" ++ coordinate.canonical ++ ": duplicate configuration coordinate"
  | .unknownEnvironment name => "environment `" ++ name ++ "` is not defined in the manifest"
  | .unknownProject name => "project `" ++ name ++ "` is not defined in the manifest"
  | .emptyManifest path missing =>
      "manifest '" ++ path.text ++ "' defines no " ++ missing.name

end Rollout
