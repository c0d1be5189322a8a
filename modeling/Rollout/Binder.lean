import Rollout.Definition.Basic
import Rollout.Parameter.Decoder

/-!
Turns the raw parameters of one configuration into typed ones and keeps the coordinates they refer
to.
-/

namespace Rollout

/-- Why a raw parameter could not be typed. -/
inductive BindError
  | reservedName
  | shortReferenceLength (length : Nat)
  | shortReferenceElement
  | selfReference (coordinate : Coordinate)
  | decode (error : ParameterError)
deriving DecidableEq, Repr

def BindError.message : BindError → String
  | .reservedName => "parameter name `id` is not allowed (reserved)"
  | .shortReferenceLength length =>
      "short references must have between 1 and 4 elements. you provided `" ++ length.repr ++ "`"
  | .shortReferenceElement => "short reference elements must be non-null scalar values"
  | .selfReference coordinate =>
      "references its own configuration `" ++ coordinate.canonical ++ "`"
  | .decode error => error.message

/-- The parameter users may not define: it names the deployed object. -/
def idParameter : String := "id"

/-- The parameter every configuration carries. -/
def nameParameter : String := "name"

/-- The parameters of the configuration `own` are being typed. The coordinates they refer to are
kept by canonical text.
-/
structure Binder where
  registry : DecoderRegistry
  own : Coordinate
  recorded : SortedMap String Coordinate

namespace Binder

def new (registry : DecoderRegistry) (own : Coordinate) : Binder :=
  ⟨registry, own, .empty⟩

/-- The text of a short reference's element. -/
def elementText : Value → Except BindError String
  | .null => .error .shortReferenceElement
  | value =>
      match value.scalarText with
      | some text => .ok text
      | none => .error .shortReferenceElement

/-- `[property]` up to `[project, api, id, property]`: leading fields left out are the
configuration's own.
-/
def shortReference (own : Coordinate) (elements : List Value) : Except BindError Parameter :=
  if elements.isEmpty || elements.length > 4 then
    .error (.shortReferenceLength elements.length)
  else do
    let written ← elements.mapM elementText
    let fields := [own.project, own.api, own.configId].take (4 - written.length) ++ written
    match fields with
    | [project, api, configId, property] => .ok (.reference ⟨⟨project, api, configId⟩, property⟩)
    | _ => .error (.shortReferenceLength elements.length)

/-- Types one raw parameter without recording its references. -/
def resolve (binder : Binder) (name : String) (raw : RawParameter)
    : Except BindError Parameter :=
  if name = idParameter then .error .reservedName
  else
    match raw with
    | .shortReference elements => shortReference binder.own elements
    | .typed entries =>
        match binder.registry.decode ⟨binder.own, name, entries⟩ with
        | .ok parameter => .ok parameter
        | .error error => .error (.decode error)
    | .literal value => .ok (.value value)

/-- Records a coordinate unless its canonical text is recorded already. -/
def record (recorded : SortedMap String Coordinate) (coordinate : Coordinate)
    : SortedMap String Coordinate :=
  if recorded.contains coordinate.canonical then recorded
  else recorded.insert coordinate.canonical coordinate

/-- Types one raw parameter and records what it refers to. A parameter that refers to its own
configuration is refused as a whole.
-/
def add (binder : Binder) (name : String) (raw : RawParameter)
    : Except BindError Parameter × Binder :=
  match binder.resolve name raw with
  | .error error => (.error error, binder)
  | .ok parameter =>
      let targets := parameter.references.map ParameterReference.target
      if binder.own ∈ targets then (.error (.selfReference binder.own), binder)
      else (.ok parameter, { binder with recorded := targets.foldl record binder.recorded })

/-- The coordinates recorded so far, in the order of their canonical texts. -/
def references (binder : Binder) : List Coordinate :=
  binder.recorded.values

end Binder

end Rollout
