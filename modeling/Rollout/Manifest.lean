import Rollout.Disk
import Rollout.Environment
import Rollout.Json.Reading
import Rollout.LoadError
import Rollout.Yaml.Reading

/-!
The manifest: which projects there are and which environments they are deployed to.
-/

namespace Rollout

open Schema (Format Record defaulted required)

/-- Reads a file by its format. -/
def Disk.readFormatted (disk : Disk) (yaml : Yaml.Reader α) (json : Json.Reader α) (path : Path)
    : Except FileError α := do
  let format ← FileFormat.ofPath path
  let text ← disk.readText path
  let refuse (detail : String) : Except FileError α := .error (.unreadable path format detail)
  match format with
  | .yaml =>
      match Yaml.read yaml text.toList with
      | .ok result => .ok result
      | .error failure => refuse failure.message
  | .json =>
      match Json.read json text.toList with
      | .ok result => .ok result
      | .error problem => refuse problem.message

/-- A project of the manifest and the directory of its definition files, where it is not named like
the project.
-/
structure ProjectEntry where
  name : String
  path : Option String
deriving DecidableEq, Repr, Inhabited

structure EnvironmentGroup where
  name : String
  environments : List String
deriving DecidableEq, Repr, Inhabited

structure Manifest where
  projects : List ProjectEntry
  groups : List EnvironmentGroup
deriving DecidableEq, Repr, Inhabited

namespace Manifest

variable {ρ : Type → Type} [Format ρ]

def projectSchema : Record ρ ProjectEntry where
  name := "ProjectDefinition"
  isClosed := false
  start := ⟨"", none⟩
  fields := [
    required "name" Format.text fun name project => { project with name },
    defaulted "path" (Format.optional Format.text) fun path project => { project with path }]

def environmentSchema : Record ρ String where
  name := "EnvironmentEntry"
  isClosed := false
  start := ""
  fields := [required "name" Format.text fun name _ => name]

def groupSchema : Record ρ EnvironmentGroup where
  name := "EnvironmentGroup"
  isClosed := false
  start := ⟨"", []⟩
  fields := [
    required "name" Format.text fun name group => { group with name },
    defaulted "environments" (Format.list (Format.record environmentSchema))
      fun environments group => { group with environments }]

/-- Other fields than these are ignored in a manifest. -/
def schema : Record ρ Manifest where
  name := "Manifest"
  isClosed := false
  start := ⟨[], []⟩
  fields := [
    defaulted "projects" (Format.list (Format.record projectSchema))
      fun projects manifest => { manifest with projects },
    defaulted "environmentGroups" (Format.list (Format.record groupSchema))
      fun groups manifest => { manifest with groups }]

def reader : ρ Manifest :=
  Format.record schema

/-- Every environment of every group, in the order of the manifest. -/
def environments (manifest : Manifest) : List Environment :=
  manifest.groups.flatMap fun group => group.environments.map fun name => ⟨name, group.name⟩

/-- The directory of a project, for a manifest whose paths are relative to `root`. -/
def projectDirectory (root : Path) (project : ProjectEntry) : Path :=
  root.join (project.path.getD project.name)

/-- The manifest of a file, with at least one project and one environment. -/
def load (disk : Disk) (path : Path) : Except LoadError Manifest :=
  match disk.readFormatted reader reader path with
  | .error cause => .error (.file cause)
  | .ok manifest =>
      if manifest.projects.isEmpty then .error (.emptyManifest path .projects)
      else if manifest.environments.isEmpty then .error (.emptyManifest path .environments)
      else .ok manifest

end Manifest

end Rollout
