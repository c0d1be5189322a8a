import Rollout.Json.Basic
import Rollout.Schema.Complaint
import Rollout.Schema.Record

/-!
Reading JSON by a schema. A record may be written as the list of its fields, where those that it may
lack can be left out at the end. Arrays and objects may be nested only so deep.
-/

namespace Rollout.Json

/-- Why reading stopped. -/
inductive Problem
  | complaint (what : Complaint)
  | tooDeep
  | malformed
deriving Repr

def Problem.message : Problem → String
  | .complaint what => what.message
  | .tooDeep => "recursion limit exceeded"
  | .malformed => "<syntax>"

abbrev Reading :=
  Except Problem

namespace Reading

/-- How deep arrays and objects may be nested. -/
def depthLimit : Nat :=
  127

def complain (what : Complaint) : Reading α :=
  .error (.complaint what)

def found : Json → Found
  | .null => .null
  | .bool b => .bool b
  | .integer n => .integer n
  | .float x => .float x.text
  | .text s => .text s
  | .array _ => .sequence
  | .object _ => .mapping

def refuse (expected : String) (json : Json) : Reading α :=
  complain (.wrongType (found json) expected)

def text : Json → Reading String
  | .text s => .ok s
  | json => refuse "a string" json

def optional (inner : Json → Reading α) : Json → Reading (Option α)
  | .null => .ok none
  | json => some <$> inner json

def list (inner : Option (Json → Reading α)) (json : Json) : Reading (List α) :=
  match json, inner with
  | .array items, some inner => items.mapM inner
  | .array _, none => .error .tooDeep
  | json, _ => refuse "a sequence" json

/-- The fields of a record by name, in the order of the text. -/
def named (record : Schema.Record ρ σ) (inner : ρ (σ → σ) → Json → Reading (σ → σ))
    : List (String × Json) → List String → σ → Reading σ
  | [], present, state =>
      match record.missing? present with
      | some name => complain (.missingField name)
      | none => .ok state
  | (name, json) :: rest, present, state =>
      match record.field? name with
      | some field => do
          if present.contains name then complain (.repeatedField name)
          let put ← inner field.read json
          named record inner rest (name :: present) (put state)
      | none => do
          if record.isClosed then complain (.unknownField name record.names)
          named record inner rest present state

/-- How messages name a record that is written as a list. -/
def listName (record : Schema.Record ρ σ) : String :=
  let count := record.fields.length
  record.expected ++ " with " ++ count.repr ++ if count = 1 then " element" else " elements"

/-- The fields of a record by position; `count` is the number of those read before. -/
def positional (record : Schema.Record ρ σ) (inner : ρ (σ → σ) → Json → Reading (σ → σ))
    : List (Schema.Field ρ σ) → List Json → (count : Nat) → σ → Reading σ
  | [], [], _, state => .ok state
  | [], _ :: _, _, _ => complain .surplusItems
  | field :: fields, [], count, state =>
      if field.isRequired then complain (.wrongLength count (listName record))
      else positional record inner fields [] (count + 1) state
  | field :: fields, json :: rest, count, state => do
      let put ← inner field.read json
      positional record inner fields rest (count + 1) (put state)

def record (record : Schema.Record ρ σ) (inner : Option (ρ (σ → σ) → Json → Reading (σ → σ)))
    (json : Json) : Reading σ :=
  match json, inner with
  | .object entries, some inner => named record inner entries [] record.start
  -- A record written as a list has its fields in the order of the schema.
  | .array items, some inner => positional record inner record.fields items 0 record.start
  | .object _, none | .array _, none => .error .tooDeep
  | json, _ => refuse record.expected json

/-- The entries of a free-form mapping, each key once. -/
def pairs (inner : Json → Reading Value)
    : List (String × Json) → List (Value × Value) → Reading (List (Value × Value))
  | [], done => .ok done
  | (key, json) :: rest, done => do
      if done.any (·.1.same (.text key)) then complain (.repeatedKey (.text key))
      let value ← inner json
      pairs inner rest (done ++ [(.text key, value)])

def valueWith (inner : Option (Json → Reading Value)) (json : Json) : Reading Value :=
  match json, inner with
  | .null, _ => .ok .null
  | .bool b, _ => .ok (.bool b)
  | .integer n, _ => .ok (.integer n)
  | .float x, _ => .ok (.float x)
  | .text s, _ => .ok (.text s)
  | .array items, some inner => Value.sequence <$> items.mapM inner
  | .object entries, some inner => Value.mapping <$> pairs inner entries []
  | .array _, none | .object _, none => .error .tooDeep

def value : (depth : Nat) → Json → Reading Value
  | 0 => valueWith none
  | depth + 1 => valueWith (some (value depth))

end Reading

/-- Reads a value, with so many arrays and objects nested in it at most. -/
def Reader (α : Type) : Type :=
  (depth : Nat) → Json → Reading α

namespace Reader

def inside (reader : Reader α) : (depth : Nat) → Option (Json → Reading α)
  | 0 => none
  | depth + 1 => some (reader depth)

def fields (σ : Type) : (depth : Nat) → Option (Reader (σ → σ) → Json → Reading (σ → σ))
  | 0 => none
  | depth + 1 => some fun reader => reader depth

instance : Schema.Format Reader where
  map f reader := fun depth json => f <$> reader depth json
  text := fun _ => Reading.text
  optional reader := fun depth => Reading.optional (reader depth)
  list reader := fun depth => Reading.list (reader.inside depth)
  record schema := fun depth => Reading.record schema (fields _ depth)

def value : Reader Value :=
  Reading.value

end Reader

/-- Reads a whole text. -/
def read (reader : Reader α) (text : List Char) : Except Problem α :=
  match Json.ofText? text with
  | none => .error .malformed
  | some json => reader Reading.depthLimit json

end Rollout.Json
