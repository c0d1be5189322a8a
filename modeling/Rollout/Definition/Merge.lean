import Rollout.Definition.Basic
import Rollout.Environment
import Rollout.SortedMap

/-!
Layered overrides: a base body, then at most one override for the group, then at most one for the
environment. Scalar fields are replaced when an override sets them, parameters name by name.
-/

namespace Rollout

/-- A body after all overrides that apply to it. -/
structure Merged where
  name : Option RawParameter
  template : Option String
  skip : Option Value
  parameters : SortedMap String RawParameter
  /-- Names written twice within a single body. -/
  duplicates : SortedSet String
deriving Inhabited

namespace Merged

def empty : Merged :=
  ⟨none, none, none, .empty, .empty⟩

/-- A template that is written but empty sets nothing. -/
def usableTemplate (body : Body) : Option String :=
  body.template.filter (· ≠ "")

/-- Puts a body on top of what is merged so far. -/
def apply (merged : Merged) (body : Body) : Merged where
  name := body.name.or merged.name
  template := (usableTemplate body).or merged.template
  skip := body.skip.or merged.skip
  parameters := body.parameters.entries.foldl (fun m e => m.insert e.1 e.2) merged.parameters
  duplicates := body.parameters.duplicates.foldl SortedMap.add merged.duplicates

/-- The bodies one on top of the other, the first at the bottom. -/
def ofBodies (bodies : List Body) : Merged :=
  bodies.foldl apply empty

end Merged

/-- The overrides of a definition by the group or environment they are for. -/
structure OverrideIndex where
  groups : SortedMap String Body
  environments : SortedMap String Body
deriving Inhabited

namespace OverrideIndex

/-- Of two overrides with one selector the later stays. -/
def collect (overrides : List Override) : SortedMap String Body :=
  .ofList (overrides.map fun o => (o.selector, o.body))

def ofDefinition (definition : Definition) : OverrideIndex where
  groups := collect definition.groupOverrides
  environments := collect definition.environmentOverrides

def group? (index : OverrideIndex) (name : String) : Option Body :=
  index.groups.get? name

def environment? (index : OverrideIndex) (name : String) : Option Body :=
  index.environments.get? name

/-- The base with the overrides for exactly this group and exactly this environment name. -/
def merge (index : OverrideIndex) (base : Body) (environment : Environment) : Merged :=
  let merged := Merged.empty.apply base
  let merged :=
    match index.group? environment.group with
    | some body => merged.apply body
    | none => merged
  match index.environment? environment.name with
  | some body => merged.apply body
  | none => merged

end OverrideIndex

end Rollout
