/-!
The nodes of a YAML document, before scalars have a type and aliases are followed.
-/

namespace Rollout.Yaml

/-- A tag: of YAML's core, chosen by the author of the text, or any other. An own tag is held
without the mark that begins it, unless it is that mark alone.
-/
inductive Tag
  | core (name : String)
  | own (name : String)
  | foreign
deriving DecidableEq, Repr

def Tag.coreStart : String :=
  "tag:yaml.org,2002:"

/-- The tag with these bytes; bytes that are no text are no tag. -/
def Tag.ofBytes (bytes : List UInt8) : Option Tag :=
  (String.fromUTF8? ⟨bytes.toArray⟩).map fun text =>
    match text.toList with
    | ['!'] => .own "!"
    | '!' :: name => .own (String.ofList name)
    | name =>
        let start := Tag.coreStart.toList
        if start.isPrefixOf name then .core (String.ofList (name.drop start.length))
        else .foreign

/-- What stands before the content of a node: the number of its anchor and its tag. -/
structure Properties where
  anchor : Option Nat
  tag : Option Tag
deriving DecidableEq, Repr

def Properties.none : Properties :=
  ⟨.none, .none⟩

/-- A node. An alias holds the number of the anchor it repeats. `nothing` stands for a text without
a document, and `cut` for where a text breaks off that is not well formed.
-/
inductive Node
  | scalar (props : Properties) (plain : Bool) (text : String)
  | sequence (props : Properties) (items : List Node)
  | mapping (props : Properties) (entries : List (Node × Node))
  | alias (target : Nat)
  | nothing
  | cut
deriving Inhabited, Repr

namespace Node

def empty : Node :=
  .scalar .none true ""

def anchor? : Node → Option Nat
  | scalar props .. | sequence props .. | mapping props .. => props.anchor
  | _ => .none

mutual

/-- The node and all nodes in it, in the order of the text. -/
def all : Node → List Node
  | .sequence props items => .sequence props items :: allItems items
  | .mapping props entries => .mapping props entries :: allEntries entries
  | node => [node]

def allItems : List Node → List Node
  | [] => []
  | node :: rest => node.all ++ allItems rest

def allEntries : List (Node × Node) → List Node
  | [] => []
  | (key, value) :: rest => key.all ++ value.all ++ allEntries rest

end

/-- How many steps a reader of the text takes for the node alone: a collection begins and ends. -/
def weight : Node → Nat
  | .sequence .. | .mapping .. => 2
  | .cut => 0
  | _ => 1

def isCut : Node → Bool
  | .cut => true
  | _ => false

/-- Does the text break off within the node? -/
def isBroken (node : Node) : Bool :=
  node.all.any isCut

end Node

end Rollout.Yaml
