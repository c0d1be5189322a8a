/-!
Schemas of records, whatever format they are read from.
-/

namespace Rollout.Schema

/-- A field of a record: its name, whether a record must have it, and what reads it into a record.
-/
structure Field (ρ : Type → Type) (σ : Type) where
  name : String
  isRequired : Bool
  read : ρ (σ → σ)

/-- A record: its name in messages, whether other fields are refused, and its value before any field
is read.
-/
structure Record (ρ : Type → Type) (σ : Type) where
  name : String
  isClosed : Bool
  fields : List (Field ρ σ)
  start : σ

namespace Record

variable {ρ : Type → Type} {σ : Type}

def names (record : Record ρ σ) : List String :=
  record.fields.map Field.name

def field? (record : Record ρ σ) (name : String) : Option (Field ρ σ) :=
  record.fields.find? (·.name = name)

/-- The first field that is required but not among those present. -/
def missing? (record : Record ρ σ) (present : List String) : Option String :=
  (record.fields.find? fun field => field.isRequired && !present.contains field.name).map Field.name

/-- How messages name what should stand there. -/
def expected (record : Record ρ σ) : String :=
  "struct " ++ record.name

end Record

/-- What reads a document of some format, for the parts that schemas are made of. -/
class Format (ρ : Type → Type) extends Functor ρ where
  text : ρ String
  optional {α : Type} : ρ α → ρ (Option α)
  list {α : Type} : ρ α → ρ (List α)
  record {σ : Type} : Record ρ σ → ρ σ

/-- A field that a record must have. -/
def required {ρ : Type → Type} [Functor ρ] {α σ : Type} (name : String) (read : ρ α)
    (put : α → σ → σ) : Field ρ σ :=
  ⟨name, true, put <$> read⟩

/-- A field that a record may lack. -/
def defaulted {ρ : Type → Type} [Functor ρ] {α σ : Type} (name : String) (read : ρ α)
    (put : α → σ → σ) : Field ρ σ :=
  ⟨name, false, put <$> read⟩

end Rollout.Schema
