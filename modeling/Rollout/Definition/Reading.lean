import Rollout.Definition.Basic
import Rollout.Yaml.Reading

/-!
The structure of definition files. It is strict: a field that is not known is refused everywhere but
among parameters, whose values are free-form.
-/

namespace Rollout

open Schema (Format Record defaulted required)
open Yaml (Reader)

/-- Any value as a parameter, by its shape. -/
def RawParameter.reader : Reader RawParameter :=
  RawParameter.ofValue <$> Reader.value

namespace ParameterBlock

def expected : String :=
  "a mapping of parameter names to values"

open Yaml.Reading in
/-- Reads the parameters one by one. A name may be repeated. -/
def readEntries (depth : Nat) (location : Yaml.Location)
    : List (Yaml.Node × Yaml.Node) → Yaml.Reading (List (String × RawParameter))
  | [] => return []
  | (key, value) :: rest => do
      let name ← text "a string" location key
      let parameter ← RawParameter.reader depth (location.under key) value
      return (name, parameter) :: (← readEntries depth location rest)

open Yaml.Reading in
/-- A mapping of parameters, or null for none. A tag is refused, and so is a text without any
content.
-/
def reader : Reader ParameterBlock := fun depth location node => do
  match ← follow node, depth with
  | .scalar ⟨_, some (.own _)⟩ .., _ | .sequence ⟨_, some (.own _)⟩ _, _
  | .mapping ⟨_, some (.own _)⟩ _, _ => complain location (.wrongType .tagged expected)
  | .scalar props plain text, _ =>
      match Yaml.meaning props.tag plain text with
      | .ok (.found .unit) => return .empty
      | .ok found => complain location (.wrongType found.toFound expected)
      | .error what => complain location what
  | .sequence .., 0 | .mapping .., 0 => throw .tooDeep
  | .mapping _ pairs, depth + 1 => return ⟨← readEntries depth location pairs⟩
  | node, _ => refuse location expected node

end ParameterBlock

def Body.schema : Record Reader Body where
  name := "ConfigBody"
  isClosed := true
  start := .empty
  fields := [
    defaulted "name" (Format.optional RawParameter.reader) fun name body => { body with name },
    defaulted "template" (Format.optional Format.text) fun template body => { body with template },
    defaulted "skip" (Format.optional Reader.value) fun skip body => { body with skip },
    defaulted "parameters" ParameterBlock.reader fun parameters body => { body with parameters }]

/-- An override, selected by a field of its own. -/
def Override.schema (name selector : String) : Record Reader Override where
  name
  isClosed := true
  start := ⟨"", .empty⟩
  fields := [
    required selector Format.text fun selector o => { o with selector },
    defaulted "override" (Format.record Body.schema) fun body o => { o with body }]

/-- The type of a definition, which is the API that it belongs to. -/
def Definition.typeSchema : Record Reader String where
  name := "TypeDefinition"
  isClosed := true
  start := ""
  fields := [defaulted "api" Format.text fun api _ => api]

def Definition.schema : Record Reader Definition where
  name := "ConfigDefinition"
  isClosed := true
  start := ⟨"", "", .empty, [], []⟩
  fields := [
    required "id" Format.text fun id d => { d with id },
    defaulted "type" (Format.record typeSchema) fun api d => { d with api },
    defaulted "config" (Format.record Body.schema) fun body d => { d with body },
    defaulted "groupOverrides"
      (Format.list (Format.record (Override.schema "GroupOverride" "group")))
      fun groupOverrides d => { d with groupOverrides },
    defaulted "environmentOverrides"
      (Format.list (Format.record (Override.schema "EnvironmentOverride" "environment")))
      fun environmentOverrides d => { d with environmentOverrides }]

/-- A definition file: a list of definitions. -/
def Definition.fileSchema : Record Reader (List Definition) where
  name := "TopLevelDefinition"
  isClosed := true
  start := []
  fields := [
    defaulted "configs" (Format.list (Format.record Definition.schema)) fun definitions _ =>
      definitions]

/-- The definitions of a file. -/
def Definition.readFile (text : List Char) : Except Yaml.Failure (List Definition) :=
  Yaml.read (Format.record fileSchema) text

end Rollout
