import Rollout.Repetition
import Rollout.Value

/-!
Definitions as they are written, before overrides are applied and parameters are typed.
-/

namespace Rollout

/-- A parameter by its written shape: a sequence refers to a property of a configuration, a mapping
names its kind, anything else stands for itself.
-/
inductive RawParameter
  | shortReference (elements : List Value)
  | typed (entries : List (Value × Value))
  | literal (value : Value)
deriving Inhabited, Repr

def RawParameter.ofValue : Value → RawParameter
  | .sequence elements => .shortReference elements
  | .mapping entries => .typed entries
  | value => .literal value

/-- The parameters of one body as written: in file order, repeated names kept. -/
structure ParameterBlock where
  entries : List (String × RawParameter)
deriving Inhabited, Repr

namespace ParameterBlock

def empty : ParameterBlock :=
  ⟨[]⟩

def names (block : ParameterBlock) : List String :=
  block.entries.map Prod.fst

/-- The names written more than once, each once, in the order of their first repetition. -/
def duplicates (block : ParameterBlock) : List String :=
  repeated block.names

end ParameterBlock

/-- The overridable part of a definition, as a base or as an override of it. -/
structure Body where
  name : Option RawParameter
  template : Option String
  skip : Option Value
  parameters : ParameterBlock
deriving Inhabited, Repr

def Body.empty : Body :=
  ⟨none, none, none, .empty⟩

/-- A body that applies to one group or one environment only. -/
structure Override where
  selector : String
  body : Body
deriving Inhabited, Repr

/-- One definition of a definition file. -/
structure Definition where
  id : String
  api : String
  body : Body
  groupOverrides : List Override
  environmentOverrides : List Override
deriving Inhabited, Repr

/-- Reads a `skip` value: a truth value, or its name in any case of letters. No letter outside
ASCII has one of these letters as its lower case.
-/
def parseSkip : Value → Except String Bool
  | .bool skip => .ok skip
  | .text s =>
      let lower := s.toList.map Char.toLower
      if lower = "true".toList then .ok true
      else if lower = "false".toList then .ok false
      else
        .error ("invalid value for `skip`: `" ++ s ++ "`. only `true` and `false` are allowed")
  | _ => .error "invalid value for `skip`: only bool or string types are allowed"

end Rollout
