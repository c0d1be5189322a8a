import Rollout.Batch
import Rollout.Binder
import Rollout.Configuration

/-!
Resolving every parameter to its final value in deployment order, without deploying. The `id` a
deployment would receive is stood in for by the canonical text of the coordinate.
-/

namespace Rollout

/-- A parameter that could not be resolved. -/
structure ResolutionError where
  coordinate : Coordinate
  environment : String
  parameter : String
  cause : ParameterError
deriving DecidableEq, Repr

def ResolutionError.message (e : ResolutionError) : String :=
  e.environment ++ ":" ++ e.coordinate.canonical ++ ": cannot resolve parameter `" ++ e.parameter
    ++ "`: " ++ e.cause.message

/-- The final values of one configuration. -/
structure ResolvedConfiguration where
  coordinate : Coordinate
  environment : String
  skip : Bool
  properties : SortedMap String Value
deriving Inhabited

/-- A dry run of one environment. What is resolved stays visible to what is resolved later. -/
structure DryRun where
  environment : String
  vars : Variables
  resolved : EntityStore

namespace DryRun

def new (environment : String) (vars : Variables) : DryRun :=
  ⟨environment, vars, .empty⟩

/-- The parameters in the order in which they are resolved: `name`, then the others by name. -/
def resolutionOrder (c : Configuration) : List (String × Parameter) :=
  c.parameters.entries.filter (·.1 = nameParameter)
    ++ c.parameters.entries.filter (·.1 ≠ nameParameter)

/-- The outcome of one parameter. -/
def resolveParameter (run : DryRun) (c : Configuration) (name : String) (parameter : Parameter)
    : Except ResolutionError Value :=
  match parameter.resolve ⟨c.coordinate, name, run.resolved, run.vars⟩ with
  | .ok value => .ok value
  | .error cause => .error ⟨c.coordinate, run.environment, name, cause⟩

/-- The resolved parameters and the errors of those that fail, in resolution order. -/
def resolveParameters (run : DryRun) (c : Configuration)
    : SortedMap String Value × List ResolutionError :=
  (resolutionOrder c).foldl (fun (properties, errors) (name, parameter) =>
    match run.resolveParameter c name parameter with
    | .ok value => (properties.insert name value, errors)
    | .error error => (properties, errors ++ [error])) (.empty, [])

/-- The properties with the stand-in for `id`, unless a parameter gives it. -/
def withId (c : Configuration) (properties : SortedMap String Value) : SortedMap String Value :=
  if properties.contains idParameter then properties
  else properties.insert idParameter (.text c.coordinate.canonical)

/-- The outcome of one configuration, given what is resolved before it. A skipped configuration has
no properties.
-/
def outcome (run : DryRun) (c : Configuration)
    : Except (List ResolutionError) ResolvedConfiguration :=
  if c.skip then .ok ⟨c.coordinate, run.environment, true, .empty⟩
  else
    let (properties, errors) := run.resolveParameters c
    if errors.isEmpty then
      .ok ⟨c.coordinate, run.environment, false, withId c properties⟩
    else .error errors

/-- Keeps a resolved configuration visible. -/
def keep (run : DryRun) (r : ResolvedConfiguration) : DryRun :=
  { run with resolved := run.resolved.insert ⟨r.coordinate, r.properties, r.skip⟩ }

/-- Resolves one configuration; one that fails leaves the run as it is. -/
def resolveOne (run : DryRun) (c : Configuration)
    : Except (List ResolutionError) ResolvedConfiguration × DryRun :=
  match run.outcome c with
  | .ok resolved => (.ok resolved, run.keep resolved)
  | .error errors => (.error errors, run)

/-- The outcomes of configurations one after the other. -/
def outcomes (run : DryRun) : List Configuration
    → List (Except (List ResolutionError) ResolvedConfiguration) × DryRun
  | [] => ([], run)
  | c :: rest =>
      let (first, run) := run.resolveOne c
      let (others, run) := run.outcomes rest
      (first :: others, run)

/-- Resolves configurations that are in deployment order. Each is attempted. -/
def resolve (run : DryRun) (configurations : List Configuration)
    : Except (List ResolutionError) (List ResolvedConfiguration) × DryRun :=
  let (results, run) := run.outcomes configurations
  (Batch.collect results, run)

end DryRun

end Rollout
