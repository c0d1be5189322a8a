import Rollout.Coordinate
import Rollout.SortedMap
import Rollout.Value

/-!
Typed parameters of a configuration, the configurations they refer to, and the values they resolve
to once those configurations are resolved.
-/

namespace Rollout

/-- Why a single parameter could not be decoded or resolved. -/
inductive ParameterError
  | unknownType (kind : String)
  | missingField (field : String)
  | invalidField (field reason : String)
  | unresolvedReference (coordinate : Coordinate) (property reason : String)
  | missingEnvironmentVariable (name : String)
deriving DecidableEq, Repr

def ParameterError.message : ParameterError → String
  | .unknownType kind => "unknown parameter type `" ++ kind ++ "`"
  | .missingField field => "missing field `" ++ field ++ "`"
  | .invalidField field reason => "invalid value for field `" ++ field ++ "`: " ++ reason
  | .unresolvedReference coordinate property reason =>
      "cannot resolve property `" ++ property ++ "` of `" ++ coordinate.canonical ++ "`: " ++ reason
  | .missingEnvironmentVariable name => "environment variable `" ++ name ++ "` is not set"

/-- A dependency on one property of a configuration. -/
structure ParameterReference where
  target : Coordinate
  property : String
deriving DecidableEq, Repr

def ParameterReference.display (r : ParameterReference) : String :=
  r.target.canonical ++ ":" ++ r.property

/-- A configuration whose properties are known. -/
structure Entity where
  coordinate : Coordinate
  properties : SortedMap String Value
  skip : Bool

/-- The configurations resolved so far, by coordinate. -/
structure EntityStore where
  entities : SortedMap Coordinate Entity
deriving Inhabited

namespace EntityStore

def empty : EntityStore :=
  ⟨.empty⟩

def insert (store : EntityStore) (entity : Entity) : EntityStore :=
  ⟨store.entities.insert entity.coordinate entity⟩

def get? (store : EntityStore) (coordinate : Coordinate) : Option Entity :=
  store.entities.get? coordinate

def size (store : EntityStore) : Nat :=
  store.entities.size

end EntityStore

/-- The values of environment variables. -/
abbrev Variables := String → Option String

/-- What a parameter sees when it is resolved. -/
structure ResolveContext where
  coordinate : Coordinate
  parameterName : String
  resolved : EntityStore
  vars : Variables

/-- A typed parameter. Kinds beyond the built-in ones bring their own references and resolution. -/
inductive Parameter
  | value (v : Value)
  | reference (target : ParameterReference)
  | environment (name : String) (default : Option String)
  | list (values : List Value)
  | custom (kind : String) (references : List ParameterReference)
      (resolve : ResolveContext → Except ParameterError Value)

namespace Parameter

def kind : Parameter → String
  | .value _ => "value"
  | .reference _ => "reference"
  | .environment .. => "environment"
  | .list _ => "list"
  | .custom kind .. => kind

/-- The configuration properties a parameter depends on. -/
def references : Parameter → List ParameterReference
  | .reference target => [target]
  | .custom _ references _ => references
  | _ => []

def isBuiltin : Parameter → Bool
  | .custom .. => false
  | _ => true

/-- The value of a property of a resolved configuration. -/
def lookup (store : EntityStore) (r : ParameterReference) : Except ParameterError Value :=
  let unresolved (reason : String) : ParameterError :=
    .unresolvedReference r.target r.property reason
  match store.get? r.target with
  | none => .error (unresolved "configuration has not been resolved")
  | some entity =>
      if entity.skip then .error (unresolved "configuration is skipped")
      else
        match entity.properties.get? r.property with
        | none => .error (unresolved "property does not exist")
        | some found => .ok found

/-- The final value of a parameter. -/
def resolve (context : ResolveContext) : Parameter → Except ParameterError Value
  | .value v => .ok v
  | .reference target => lookup context.resolved target
  | .environment name default =>
      match (context.vars name).or default with
      | some text => .ok (.text text)
      | none => .error (.missingEnvironmentVariable name)
  | .list values => .ok (.sequence values)
  | .custom _ _ resolve => resolve context

end Parameter

end Rollout
