import Rollout.Schema.Record
import Rollout.Yaml.Document
import Rollout.Yaml.Scalar

/-!
Reading a document by a schema, in the order of its text: the first problem is the one reported.
Aliases are followed where they are met, so reading counts them, and collections may be nested only
so deep.
-/

namespace Rollout.Yaml

/-- Where in a document a node stands. -/
inductive Location
  | root
  | item (outer : Location) (index : Nat)
  | field (outer : Location) (name : String)
  | unnamed (outer : Location)
deriving DecidableEq, Repr

namespace Location

def text : Location → String
  | root => "."
  | item outer index => outer.text ++ "[" ++ index.repr ++ "]"
  | field root name => name
  | field outer name => outer.text ++ "." ++ name
  | unnamed root => "?"
  | unnamed outer => outer.text ++ ".?"

/-- The location of the collection around. -/
def outer : Location → Location
  | root => root
  | item outer _ | field outer _ | unnamed outer => outer

/-- The location of what a key leads to. -/
def under (outer : Location) (key : Node) : Location :=
  match key with
  | .scalar _ _ name => outer.field name
  | _ => outer.unnamed

end Location

/-- Why reading stopped. -/
inductive Problem
  | complaint (location : Location) (what : Complaint)
  | broken
  | tooDeep
  | tooManyAliases
deriving Repr

def Problem.message : Problem → String
  | .complaint location what =>
      if location.text = "." then what.message else location.text ++ ": " ++ what.message
  | .broken => "<syntax>"
  | .tooDeep => "recursion limit exceeded"
  | .tooManyAliases => "repetition limit exceeded"

/-- What aliases repeat, and how often they may do so. -/
structure Repeats where
  targets : List (Nat × Node)
  limit : Nat

def Repeats.ofDocument (document : Document) : Repeats :=
  ⟨document.anchored, 100 * document.root.all.foldl (fun total node => total + node.weight) 0⟩

/-- A reader counts the aliases that it follows. -/
abbrev Reading :=
  ReaderT Repeats (StateT Nat (Except Problem))

namespace Reading

/-- How deep collections may be nested. -/
def depthLimit : Nat :=
  128

def complain (location : Location) (what : Complaint) : Reading α :=
  throw (.complaint location what)

/-- The node itself, or what it repeats. -/
def follow (node : Node) : Reading Node := do
  match node with
  | .alias number =>
      let count := (← get) + 1
      let repeats ← read
      if count > repeats.limit then throw .tooManyAliases
      set count
      match Document.target? repeats.targets number with
      | some target => return target
      | none => throw .broken
  | node => return node

/-- Names what stands at a node where something else is expected. -/
def refuse (location : Location) (expected : String) (node : Node) : Reading α := do
  match node with
  | .scalar props plain text =>
      match meaning props.tag plain text with
      | .ok found => complain location (.wrongType found.toFound expected)
      | .error what => complain location what
  | .sequence .. => complain location (.wrongType .sequence expected)
  | .mapping .. => complain location (.wrongType .mapping expected)
  | .nothing => complain location (.wrongType .option expected)
  | .alias _ | .cut => throw .broken

/-- A text: any scalar as it is written. -/
def text (expected : String) (location : Location) (node : Node) : Reading String := do
  match ← follow node with
  | .scalar _ _ text => return text
  | node => refuse location expected node

/-- Does the node say that there is nothing? An empty scalar and null do, in plain style. -/
def isNothing (location : Location) (node : Node) : Reading Bool := do
  match node with
  | .nothing => return true
  | .scalar ⟨_, none⟩ true text => return text = "" || isNull text
  | .scalar ⟨_, some (.core "null")⟩ true text =>
      if isNull text then return true
      else complain location.outer (.wrongValue text "null")
  | .cut => throw .broken
  | _ => return false

def optional (inner : Location → Node → Reading α) (location : Location) (node : Node)
    : Reading (Option α) := do
  let node ← follow node
  if ← isNothing location node then return none else some <$> inner location node

/-- A list. An empty scalar is the empty one. -/
def list (inner : Option (Location → Node → Reading α)) (location : Location) (node : Node)
    : Reading (List α) := do
  match ← follow node, inner with
  | .sequence _ items, some inner =>
      items.zipIdx.mapM fun (item, i) => inner (location.item i) item
  | .sequence .., none => throw .tooDeep
  | .nothing, _ | .scalar _ true "", _ => return []
  | node, _ => refuse location "a sequence" node

/-- Reads the entries of a record one by one, given the fields read before. -/
def entries (record : Schema.Record ρ σ) (inner : ρ (σ → σ) → Location → Node → Reading (σ → σ))
    (location : Location) : List (Node × Node) → List String → σ → Reading σ
  | [], present, state =>
      match record.missing? present with
      | some name => complain location (.missingField name)
      | none => return state
  | (key, value) :: rest, present, state => do
      let name ← text "field identifier" location key
      match record.field? name with
      | some field =>
          if present.contains name then complain location (.repeatedField name)
          let put ← inner field.read (location.under key) value
          entries record inner location rest (name :: present) (put state)
      | none =>
          if record.isClosed then complain location (.unknownField name record.names)
          if value.isBroken then throw .broken
          entries record inner location rest present state

/-- A record. An empty scalar is one without fields. -/
def record (record : Schema.Record ρ σ)
    (inner : Option (ρ (σ → σ) → Location → Node → Reading (σ → σ)))
    (location : Location) (node : Node) : Reading σ := do
  match ← follow node, inner with
  | .mapping _ pairs, some inner => entries record inner location pairs [] record.start
  | .mapping .., none => throw .tooDeep
  | .nothing, _ | .scalar _ true "", _ =>
      entries record (fun _ _ _ => throw .broken) location [] [] record.start
  | node, _ => refuse location record.expected node

/-! ## Free-form values -/

def scalarValue (location : Location) (tag : Option Tag) (plain : Bool) (text : String)
    : Reading Value := do
  match meaning tag plain text with
  | .error what => complain location what
  | .ok (.float x) => return .float x
  | .ok (.found .unit) => return .null
  | .ok (.found (.bool b)) => return .bool b
  | .ok (.found (.integer n)) => return .integer n
  | .ok (.found (.text s)) => return .text s
  | .ok (.found what) => complain location (.wrongType what "any YAML value")

/-- The entries of a free-form mapping, each key once. -/
def pairs (inner : Location → Node → Reading Value) (location : Location)
    : List (Node × Node) → List (Value × Value) → Reading (List (Value × Value))
  | [], done => return done
  | (key, value) :: rest, done => do
      let place := location.under key
      let key ← inner location key
      if done.any (·.1.same key) then complain location (.repeatedKey key)
      let value ← inner place value
      pairs inner location rest (done ++ [(key, value)])

/-- A value whose collections are read by `inner`, where they may be nested. -/
def valueWith (inner : Option (Location → Node → Reading Value)) (location : Location) (node : Node)
    : Reading Value := do
  let tagged (props : Properties) (content : Reading Value) : Reading Value :=
    match props.tag with
    | some (.own name) => Value.tagged (Value.tagName name) <$> content
    | _ => content
  match ← follow node, inner with
  | .scalar props plain text, _ => tagged props (scalarValue location props.tag plain text)
  | .sequence props items, some inner =>
      tagged props <| Value.sequence <$>
        items.zipIdx.mapM fun (item, i) => inner (location.item i) item
  | .mapping props entries, some inner =>
      tagged props <| Value.mapping <$> pairs inner location entries []
  | .sequence .., none | .mapping .., none => throw .tooDeep
  | .nothing, _ => return .null
  | .alias _, _ | .cut, _ => throw .broken

/-- A value with collections nested at most `depth` deep. -/
def value : (depth : Nat) → Location → Node → Reading Value
  | 0 => valueWith none
  | depth + 1 => valueWith (some (value depth))

end Reading

/-- Reads a node at a location, with so many collections nested in it at most. -/
def Reader (α : Type) : Type :=
  (depth : Nat) → Location → Node → Reading α

namespace Reader

/-- Reads what stands in a collection. -/
def inside (reader : Reader α) : (depth : Nat) → Option (Location → Node → Reading α)
  | 0 => none
  | depth + 1 => some (reader depth)

/-- Reads what stands in a record. -/
def fields (σ : Type) : (depth : Nat) → Option (Reader (σ → σ) → Location → Node → Reading (σ → σ))
  | 0 => none
  | depth + 1 => some fun reader => reader depth

instance : Schema.Format Reader where
  map f reader := fun depth location node => f <$> reader depth location node
  text := fun _ => Reading.text "a string"
  optional reader := fun depth => Reading.optional (reader depth)
  list reader := fun depth => Reading.list (reader.inside depth)
  record schema := fun depth => Reading.record schema (fields _ depth)

def value : Reader Value :=
  Reading.value

end Reader

/-- What stopped the reading of a document: the problem that was met first, and the message, which
says no more than that the text is not well formed if it is not.
-/
structure Failure where
  problem : Problem
  message : String
deriving Repr

/-- Reads a whole text. -/
def read (reader : Reader α) (text : List Char) : Except Failure α :=
  let document := Document.ofText text
  let fail (problem : Problem) : Except Failure α :=
    .error ⟨problem, if document.readable then problem.message else Problem.broken.message⟩
  match (reader Reading.depthLimit .root document.root).run (.ofDocument document) |>.run 0 with
  | .error problem => fail problem
  | .ok (result, _) => if document.readable then .ok result else fail .broken

end Rollout.Yaml
