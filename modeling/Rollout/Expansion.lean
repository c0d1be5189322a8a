import Rollout.Binder
import Rollout.Configuration
import Rollout.Definition.Merge
import Rollout.LoadError

/-!
Expanding one definition for one environment. All that is wrong with it is reported at once, but
for a missing template, which is reported alone.
-/

namespace Rollout

/-- A definition with all that its expansion needs. -/
structure Expansion where
  project : String
  path : Path
  definition : Definition
  decoders : DecoderRegistry
  templates : TemplateSource

namespace Expansion

def coordinate (e : Expansion) : Coordinate :=
  ⟨e.project, e.definition.api, e.definition.id⟩

/-- The body of the definition with the overrides for an environment. -/
def merged (e : Expansion) (environment : Environment) : Merged :=
  (OverrideIndex.ofDefinition e.definition).merge e.definition.body environment

def fault (e : Expansion) (environment : Environment) (reason : String) : LoadError :=
  .definition ⟨e.coordinate, e.path, environment, none, reason⟩

def parameterFault (e : Expansion) (environment : Environment) (name : String) (cause : BindError)
    : LoadError :=
  .definition ⟨e.coordinate, e.path, environment, some name, cause.message⟩

/-- Parameters that are typed, those that could not be, and the binder after all of them. -/
structure Bound where
  parameters : SortedMap String Parameter
  failures : List (String × BindError)
  binder : Binder

/-- Types one more parameter. -/
def Bound.add (bound : Bound) (name : String) (raw : RawParameter) : Bound :=
  match bound.binder.add name raw with
  | (.ok parameter, binder) =>
      { bound with parameters := bound.parameters.insert name parameter, binder }
  | (.error cause, binder) =>
      { bound with failures := bound.failures ++ [(name, cause)], binder }

/-- The parameters that are typed under their own name: neither written twice nor hidden by the
`name` of the body.
-/
def plainParameters (merged : Merged) : List (String × RawParameter) :=
  merged.parameters.entries.filter fun (name, _) =>
    !merged.duplicates.contains name && !(name = nameParameter && merged.name.isSome)

/-- Types the parameters and then the `name` of the body. -/
def bind (e : Expansion) (merged : Merged) : Bound :=
  -- The order decides in which order failures are reported.
  let start : Bound := ⟨.empty, [], .new e.decoders e.coordinate⟩
  let bound := (plainParameters merged).foldl (fun bound (name, raw) => bound.add name raw) start
  match merged.name with
  | some raw => bound.add nameParameter raw
  | none => bound

/-- The template at a path relative to the file. -/
def template (e : Expansion) (path : String) : Except FileError Template :=
  e.templates (e.path.folder.join path)

def templateFaults (e : Expansion) (environment : Environment) (path : String) : List LoadError :=
  match e.template path with
  | .ok _ => []
  | .error cause =>
      [e.fault environment ("error while loading template: `" ++ cause.message ++ "`")]

def duplicateFaults (e : Expansion) (environment : Environment) (merged : Merged)
    : List LoadError :=
  merged.duplicates.keys.map fun name =>
    e.fault environment ("duplicate parameter `" ++ name ++ "`")

def parameterFaults (e : Expansion) (environment : Environment) (merged : Merged)
    : List LoadError :=
  (e.bind merged).failures.map (fun (name, cause) => e.parameterFault environment name cause)
    ++ if merged.name.isSome then [] else [e.fault environment "missing parameter `name`"]

def skipFaults (e : Expansion) (environment : Environment) (merged : Merged) : List LoadError :=
  match merged.skip.map parseSkip with
  | some (.error reason) => [e.fault environment reason]
  | _ => []

/-- All that is wrong beside the template. -/
def bodyFaults (e : Expansion) (environment : Environment) (merged : Merged) : List LoadError :=
  e.duplicateFaults environment merged ++ e.parameterFaults environment merged
    ++ e.skipFaults environment merged

def isSkipped (merged : Merged) : Bool :=
  match merged.skip.map parseSkip with
  | some (.ok skip) => skip
  | _ => false

/-- The configuration for an environment, or all that is wrong with it. -/
def build (e : Expansion) (environment : Environment) : Except (List LoadError) Configuration :=
  let merged := e.merged environment
  match merged.template with
  | none => .error [e.fault environment "missing property `template`"]
  | some path =>
      let faults := e.templateFaults environment path ++ e.bodyFaults environment merged
      match e.template path, faults with
      | .ok template, [] =>
          let bound := e.bind merged
          .ok {
            template
            coordinate := e.coordinate
            group := environment.group
            environment := environment.name
            parameters := bound.parameters
            references := bound.binder.references
            skip := isSkipped merged }
      | _, faults => .error faults

end Expansion

end Rollout
