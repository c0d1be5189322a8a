/-!
Texts of definition files, put together piece by piece. Values are written as they are given, so
they may be anything that YAML allows on one line.
-/

namespace Rollout.Fixture

inductive OverrideKind
  | group
  | environment
deriving DecidableEq, Repr

/-- The key of the list of overrides. -/
def OverrideKind.list : OverrideKind → String
  | .group => "groupOverrides"
  | .environment => "environmentOverrides"

/-- The key of what an override is selected by. -/
def OverrideKind.key : OverrideKind → String
  | .group => "group"
  | .environment => "environment"

/-- An override that sets parameters only. -/
structure OverrideText where
  kind : OverrideKind
  selector : String
  parameters : List (String × String)
deriving DecidableEq, Repr

/-- One definition as it is to be written. -/
structure DefinitionText where
  id : String
  api : String
  name : Option String
  template : Option String
  skip : Option String
  parameters : List (String × String)
  overrides : List OverrideText
deriving DecidableEq, Repr

namespace DefinitionText

/-- A definition that is named like its id and has a template of that name. -/
def new (id api : String) : DefinitionText where
  id
  api
  name := some ("\"" ++ id ++ "\"")
  template := some (id ++ ".json")
  skip := none
  parameters := []
  overrides := []

def withParameter (d : DefinitionText) (name value : String) : DefinitionText :=
  { d with parameters := d.parameters ++ [(name, value)] }

/-- A parameter that refers to the `id` of another configuration of the project. -/
def withReference (d : DefinitionText) (name api configId : String) : DefinitionText :=
  d.withParameter name ("[\"" ++ api ++ "\", \"" ++ configId ++ "\", \"id\"]")

def withOverride (d : DefinitionText) (kind : OverrideKind) (selector : String)
    (parameters : List (String × String)) : DefinitionText :=
  { d with overrides := d.overrides ++ [⟨kind, selector, parameters⟩] }

/-- One call on a definition that is being put together. -/
inductive Call
  | name (value : String)
  | withoutName
  | template (path : String)
  | withoutTemplate
  | skip (value : String)
  | parameter (key value : String)
  | reference (key api configId : String)
  | override (kind : OverrideKind) (selector : String) (parameters : List (String × String))
deriving DecidableEq, Repr

def Call.apply (d : DefinitionText) : Call → DefinitionText
  | .name value => { d with name := some value }
  | .withoutName => { d with name := none }
  | .template path => { d with template := some path }
  | .withoutTemplate => { d with template := none }
  | .skip value => { d with skip := some value }
  | .parameter key value => d.withParameter key value
  | .reference key api configId => d.withReference key api configId
  | .override kind selector parameters => d.withOverride kind selector parameters

/-- What comes of calls in this order. -/
def ofCalls (id api : String) (calls : List Call) : DefinitionText :=
  calls.foldl Call.apply (new id api)

/-- A key with its value on one line. -/
def entry (margin key value : String) : String :=
  margin ++ key ++ ": " ++ value ++ "\n"

/-- A key whose value follows on further lines. -/
def heading (margin key : String) : String :=
  margin ++ key ++ ":\n"

def optionalEntry (key : String) : Option String → String
  | some value => entry "      " key value
  | none => ""

def parameterLines (margin : String) (parameters : List (String × String)) : String :=
  String.join (parameters.map fun (name, value) => entry margin name value)

/-- An override, below a key of its own. -/
def overrideLines (o : OverrideText) : String :=
  heading "    " o.kind.list ++ entry "      - " o.kind.key o.selector
    ++ heading "        " "override" ++ heading "          " "parameters"
    ++ parameterLines "            " o.parameters

def lines (d : DefinitionText) : String :=
  entry "  - " "id" d.id ++ heading "    " "type" ++ entry "      " "api" d.api
    ++ heading "    " "config" ++ optionalEntry "name" d.name ++ optionalEntry "template" d.template
    ++ optionalEntry "skip" d.skip
    ++ (if d.parameters.isEmpty then ""
      else heading "      " "parameters" ++ parameterLines "        " d.parameters)
    ++ String.join (d.overrides.map overrideLines)

/-- A whole definition file. -/
def file (definitions : List DefinitionText) : String :=
  heading "" "configs" ++ String.join (definitions.map lines)

end DefinitionText

end Rollout.Fixture
