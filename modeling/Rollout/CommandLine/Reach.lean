import Rollout.CommandLine.Arguments
import Rollout.Plan

/-!
What a plan depends on outside the program: the files that it reads and the variables that it asks
for. Each is known from what was read before it.
-/

namespace Rollout.CommandLine

/-- The context in which the projects of a manifest are loaded from a disk. -/
def baseContext (disk : Disk) (path : Path) : LoadContext :=
  .new disk "" path.folder

/-- The contexts of all projects of the manifest, whatever is selected. -/
def allContexts (disk : Disk) (path : Path) : List LoadContext :=
  match Manifest.load disk path with
  | .error _ => []
  | .ok manifest =>
      manifest.projects.map
        (Manifest.projectContext path.folder (baseContext disk path) manifest.environments)

/-- The directories of all projects. -/
def directories (disk : Disk) (path : Path) : List Path :=
  (allContexts disk path).map LoadContext.directory

/-- The templates of the definitions of a file. -/
def templatesOfFile (context : LoadContext) (path : Path) : List Path :=
  match context.readDefinitions path with
  | .error _ => []
  | .ok definitions =>
      definitions.flatMap fun definition =>
        context.environments.filterMap fun environment =>
          let merged := (context.expansion path definition).merged environment
          merged.template.map fun template => path.folder.join template

/-- The templates of all definitions. -/
def templatePaths (disk : Disk) (path : Path) : List Path :=
  (allContexts disk path).flatMap fun context =>
    match disk.definitionFiles context.directory with
    | .error _ => []
    | .ok paths => paths.flatMap (templatesOfFile context)

/-- The variables that parameters ask for. -/
def variableNames (disk : Disk) (path : Path) : List String :=
  let configurations := (allContexts disk path).flatMap fun context =>
    (context.loadDirectory.toOption).getD []
  configurations.flatMap fun c =>
    c.parameters.values.filterMap fun
      | .environment name _ => some name
      | _ => none

end Rollout.CommandLine
