import Rollout.ApiCatalogue
import Rollout.Batch
import Rollout.Definition.File
import Rollout.Expansion

/-!
Loading the definition files of a directory. Every file is read and every definition expanded for
every environment, so that one run reports all that is wrong; then nothing else is returned.
-/

namespace Rollout

/-- What loading needs beside the files themselves. -/
structure LoadContext where
  project : String
  directory : Path
  environments : List Environment
  apis : ApiCatalogue
  decoders : DecoderRegistry
  disk : Disk
  templates : TemplateSource

namespace LoadContext

/-- The built-in APIs and decoders, no environment, and templates from the disk. -/
def new (disk : Disk) (project : String) (directory : Path) : LoadContext where
  project
  directory
  environments := []
  apis := .builtins
  decoders := .builtins
  disk
  templates := disk.templates

def expansion (context : LoadContext) (path : Path) (definition : Definition) : Expansion :=
  ⟨context.project, path, definition, context.decoders, context.templates⟩

/-- What is wrong with the API that a definition belongs to. -/
def apiFault? (context : LoadContext) (path : Path) (definition : Definition) : Option LoadError :=
  if definition.api = "" then some (.missingApi path definition.id)
  else if context.apis.contains definition.api then none
  else some (.unknownApi definition.api path)

/-- One definition for all environments. -/
def expand (context : LoadContext) (path : Path) (definition : Definition)
    : Except (List LoadError) (List Configuration) :=
  match context.apiFault? path definition with
  | some fault => .error [fault]
  | none => Batch.collect (context.environments.map (context.expansion path definition).build)

def readDefinitions (context : LoadContext) (path : Path) : Except LoadError (List Definition) :=
  match context.disk.readText path with
  | .error cause => .error (.file cause)
  | .ok text => Definition.ofFile path text

/-- One definition file. -/
def loadFile (context : LoadContext) (path : Path)
    : Except (List LoadError) (List Configuration) :=
  match context.readDefinitions path with
  | .error fault => .error [fault]
  | .ok definitions => Batch.concat (definitions.map (context.expand path))

/-- Every definition file directly inside the directory. -/
def loadDirectory (context : LoadContext) : Except (List LoadError) (List Configuration) :=
  match context.disk.definitionFiles context.directory with
  | .error cause => .error [.file cause]
  | .ok paths => Batch.concat (paths.map context.loadFile)

/-- A warning for a definition that belongs to an API which is to be given up. -/
def definitionWarnings (context : LoadContext) (definition : Definition) : List Warning :=
  if definition.api = "" then []
  else
    ((context.apis.deprecatedBy? definition.api).map (.deprecatedApi definition.api)).toList

def fileWarnings (context : LoadContext) (path : Path) : List Warning :=
  match context.readDefinitions path with
  | .error _ => []
  | .ok definitions => definitions.flatMap context.definitionWarnings

def directoryWarnings (context : LoadContext) : List Warning :=
  match context.disk.definitionFiles context.directory with
  | .error _ => []
  | .ok paths => paths.flatMap context.fileWarnings

end LoadContext

end Rollout
