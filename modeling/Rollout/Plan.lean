import Rollout.DryRun
import Rollout.Project

/-!
The plan of an environment: its projects in order, and what a deployment would do for each of them.
-/

namespace Rollout

/-- Why an environment cannot be planned. -/
inductive PlanError
  | order (cause : OrderError)
  | resolution (cause : ResolutionError)
deriving DecidableEq, Repr

def PlanError.message : PlanError → String
  | .order cause => cause.message
  | .resolution cause => cause.message

/-- What becomes of one project in an environment. -/
structure PlanStep where
  project : String
  outcome : Except (List PlanError) (List ResolvedConfiguration)
deriving Inhabited

structure EnvironmentPlan where
  environment : String
  projects : OrderedProjects
  steps : List PlanStep
deriving Inhabited

namespace EnvironmentPlan

/-- What each project depends on in an environment. Of two with one id the later counts. -/
def dependencies (environment : String) (projects : List Project)
    : SortedMap String (SortedSet String) :=
  .ofList (projects.map fun project => (project.id, project.dependenciesIn environment))

def project? (projects : List Project) (id : String) : Option Project :=
  projects.reverse.find? (·.id = id)

/-- The configurations of a project in an environment, in order. -/
def ordered? (environment : String) (projects : List Project) (id : String)
    : Option OrderedConfigurations := do
  let project ← project? projects id
  let configurations ← project.configurations.get? environment
  some (orderConfigurations environment configurations)

/-- The projects one after the other in one dry run. One whose configurations have no order is not
resolved.
-/
def stepsFrom (environment : String) (projects : List Project)
    : DryRun → List String → List PlanStep
  | _, [] => []
  | run, id :: rest =>
      match ordered? environment projects id with
      | none => stepsFrom environment projects run rest
      | some sorted =>
          if sorted.errors.isEmpty then
            let (result, run) := run.resolve sorted.order
            ⟨id, result.mapError (List.map .resolution)⟩ :: stepsFrom environment projects run rest
          else
            ⟨id, .error (sorted.errors.map .order)⟩ :: stepsFrom environment projects run rest

/-- The plan of an environment, as far as there is one. -/
def ofProjects (vars : Variables) (environment : String) (projects : List Project)
    : EnvironmentPlan :=
  let order := orderProjects environment (dependencies environment projects)
  { environment
    projects := order
    steps := stepsFrom environment projects (.new environment vars) order.order }

/-- The configurations in the order of deployment, or all errors. Projects without an order have no
plan at all.
-/
def result (plan : EnvironmentPlan) : Except (List PlanError) (List ResolvedConfiguration) :=
  if plan.projects.errors.isEmpty then Batch.concat (plan.steps.map PlanStep.outcome)
  else .error (plan.projects.errors.map .order)

end EnvironmentPlan

end Rollout
