import Rollout.CommandLine.Arguments
import Rollout.Plan

/-!
What the program prints: the plan of every environment, or what stands in its way.
-/

namespace Rollout.CommandLine

/-- The output of the program and its exit status. -/
structure Report where
  status : Nat
  output : String
  errors : String
  warnings : List Warning
deriving Repr

namespace Report

def errorLine (message : String) : String :=
  "error: " ++ message ++ "\n"

/-- The errors of a stage one by one, and how many there are. -/
def failure (stage : String) (messages : List String) : String :=
  String.join (messages.map errorLine)
    ++ errorLine (messages.length.repr ++ " error(s) while " ++ stage)

def padLeft (width : Nat) (text : String) : String :=
  String.ofList (List.replicate (width - text.length) ' ') ++ text

def stepLine (position : Nat) (resolved : ResolvedConfiguration) : String :=
  "  " ++ padLeft 3 position.repr ++ ". " ++ resolved.coordinate.canonical
    ++ (if resolved.skip then " (skipped)" else "") ++ "\n"

/-- The plan of an environment, each configuration on a line of its own. -/
def planText (environment : Environment) (plan : List ResolvedConfiguration) : String :=
  "Environment " ++ environment.name ++ " (" ++ environment.group ++ ")\n"
    ++ (if plan.isEmpty then "  nothing to deploy\n" else "")
    ++ String.join (plan.zipIdx.map fun (resolved, i) => stepLine (i + 1) resolved)
    ++ "\n"

/-- The plans of the environments, and the errors of those without one. -/
def ofPlans (plans : List (Environment × Except (List PlanError) (List ResolvedConfiguration)))
    (warnings : List Warning) : Report :=
  let output := plans.map fun (environment, result) =>
    match result with
    | .ok plan => planText environment plan
    | .error _ => ""
  let messages := plans.flatMap fun (_, result) => (Batch.errorsOf result).map PlanError.message
  { status := if messages.isEmpty then 0 else 1
    output := String.join output
    errors := if messages.isEmpty then "" else failure "planning deployment" messages
    warnings }

def loadFailure (warnings : List Warning) (faults : List LoadError) : Report :=
  ⟨1, "", failure "loading projects" (faults.map LoadError.message), warnings⟩

/-- Plans what the arguments ask for. Without a usable manifest there is one error and no stage. -/
def ofPlan (disk : Disk) (vars : Variables) (request : PlanRequest) : Report :=
  let path := Path.ofText request.manifest
  match Manifest.load disk path with
  | .error fault => ⟨1, "", errorLine fault.message, []⟩
  | .ok manifest =>
      let root := path.folder
      let base := LoadContext.new disk "" root
      let filter : ProjectFilter := ⟨request.environments, request.projects⟩
      let warnings := manifest.loadWarnings root base filter
      match manifest.selectEnvironments filter.environments,
          manifest.loadProjects root base filter with
      | .error faults, _ | .ok _, .error faults => loadFailure warnings faults
      | .ok environments, .ok projects =>
          let plan (environment : Environment) :=
            (environment, (EnvironmentPlan.ofProjects vars environment.name projects).result)
          ofPlans (environments.map plan) warnings

def helpText : String :=
  "Usage: cascade [-v] plan MANIFEST [-e ENVIRONMENT]... [-p PROJECT]...\n"

def versionText : String :=
  "cascade 0.1.0\n"

/-- The whole program, on the files and variables that it is given. -/
def ofRequest (disk : Disk) (vars : Variables) : Request → Report
  | .plan request => ofPlan disk vars request
  | .help => ⟨0, helpText, "", []⟩
  | .version => ⟨0, versionText, "", []⟩
  | .misuse => ⟨2, "", helpText, []⟩

end Report

end Rollout.CommandLine
