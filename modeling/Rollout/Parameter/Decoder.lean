import Rollout.Parameter.Basic

/-!
Decoders turn a parameter written as a mapping into a typed one. The registry knows a decoder for
each `type` a mapping may name.
-/

namespace Rollout

/-- What a decoder sees: the configuration the parameter belongs to, its name and its mapping. -/
structure DecodeContext where
  coordinate : Coordinate
  parameterName : String
  entries : List (Value × Value)

abbrev Decoder := DecodeContext → Except ParameterError Parameter

namespace DecodeContext

def field (context : DecodeContext) (key : String) : Option Value :=
  Value.field key context.entries

/-- A scalar field as text; absent and null fields are not there. -/
def textField (context : DecodeContext) (key : String)
    : Except ParameterError (Option String) :=
  match context.field key with
  | none | some .null => .ok none
  | some value =>
      match value.scalarText with
      | some text => .ok (some text)
      | none => .error (.invalidField key "expected a scalar value")

end DecodeContext

namespace Decoder

def value : Decoder := fun context =>
  match context.field "value" with
  | some v => .ok (.value v)
  | none => .error (.missingField "value")

/-- Fields of the target that are left out are those of the configuration itself. -/
def reference : Decoder := fun context => do
  let some property ← context.textField "property" | .error (.missingField "property")
  let project ← context.textField "project"
  let api ← context.textField "api"
  let configId ← context.textField "configId"
  let own := context.coordinate
  return .reference {
    target := {
      project := project.getD own.project
      api := api.getD own.api
      configId := configId.getD own.configId
    }
    property
  }

/-- An empty variable name counts as none. -/
def environment : Decoder := fun context => do
  let some name := (← context.textField "name").filter (· ≠ "") | .error (.missingField "name")
  let default ← context.textField "default"
  return .environment name default

def list : Decoder := fun context =>
  match context.field "values" with
  | some (.sequence values) => .ok (.list values)
  | some _ => .error (.invalidField "values" "expected a list")
  | none => .error (.missingField "values")

end Decoder

/-- The decoders by the kind they are known under. -/
structure DecoderRegistry where
  decoders : SortedMap String Decoder
deriving Inhabited

namespace DecoderRegistry

def empty : DecoderRegistry :=
  ⟨.empty⟩

/-- Adds a decoder, in place of any earlier one of that kind. -/
def register (registry : DecoderRegistry) (kind : String) (decoder : Decoder)
    : DecoderRegistry :=
  ⟨registry.decoders.insert kind decoder⟩

def builtins : DecoderRegistry :=
  (((empty.register "value" Decoder.value).register "reference" Decoder.reference).register
    "environment" Decoder.environment).register "list" Decoder.list

def get? (registry : DecoderRegistry) (kind : String) : Option Decoder :=
  registry.decoders.get? kind

def contains (registry : DecoderRegistry) (kind : String) : Bool :=
  registry.decoders.contains kind

def kinds (registry : DecoderRegistry) : List String :=
  registry.decoders.keys

def size (registry : DecoderRegistry) : Nat :=
  registry.decoders.size

/-- Decodes a mapping by the decoder its `type` names; no `type` is the empty kind. -/
def decode (registry : DecoderRegistry) (context : DecodeContext)
    : Except ParameterError Parameter :=
  let kind := ((context.field "type").bind Value.scalarText).getD ""
  match registry.get? kind with
  | some decoder => decoder context
  | none => .error (.unknownType kind)

end DecoderRegistry

end Rollout
