import Rollout.Yaml.Node.Assembly
import Rollout.Yaml.Token.Scan

/-!
A text as one document. Its nodes are there up to where the text stops being well formed, and the
document says whether that is the end.
-/

namespace Rollout.Yaml

/-- A document. It is readable if the whole text is well formed and holds nothing else. -/
structure Document where
  root : Node
  readable : Bool
deriving Inhabited, Repr

namespace Document

def isDirective : Token → Bool
  | .version .. | .tagHandle .. => true
  | _ => false

/-- What handles stand for where no directive says otherwise. -/
def commonHandles : List (String × List UInt8) :=
  [("!", "!".toUTF8.toList), ("!!", Tag.coreStart.toUTF8.toList)]

/-- The handles that directives introduce. A version or a handle may be given once, and only
versions 1.1 and 1.2 are known.
-/
def handles? (directives : List Token) : Option (List (String × List UInt8)) :=
  let versions := directives.filterMap fun
    | .version major minor => some (major, minor)
    | _ => none
  let handles := directives.filterMap fun
    | .tagHandle handle start => some (handle, start)
    | _ => none
  let known := versions.all fun v => v = (1, 1) || v = (1, 2)
  if versions.length ≤ 1 && known && (handles.map Prod.fst).Nodup then
    some (handles ++ commonHandles)
  else none

/-- Do the tokens end the text after one document? -/
def atEnd (tokens : List Token) : Bool :=
  tokens.dropWhile (· = .documentEnd) = [.textEnd]

/-- The document whose content begins with these tokens. -/
def ofContent (tokens : List Token) (handles : List (String × List UInt8)) : Document :=
  let (root, rest) := (Assemble.node true false (2 * tokens.length + 2)).run ⟨tokens, [], handles⟩
  ⟨root, atEnd rest.tokens⟩

/-- Does a document end here that has no content? -/
def endsEmpty : Token → Bool
  | .documentStart | .documentEnd | .textEnd => true
  | token => isDirective token

def ofTokens (tokens : List Token) : Document :=
  let broken : Document := ⟨.cut, false⟩
  let directives := tokens.takeWhile isDirective
  match tokens.drop directives.length with
  | [] => broken
  | .documentStart :: content =>
      match handles? directives with
      | none => broken
      | some handles =>
          if content.head?.any endsEmpty then ⟨.empty, atEnd content⟩
          else ofContent content handles
  | .textEnd :: _ => if directives.isEmpty then ⟨.nothing, true⟩ else broken
  | content => if directives.isEmpty then ofContent content commonHandles else broken

/-- The document of a text. -/
def ofText (text : List Char) : Document :=
  ofTokens (tokens text)

/-- The nodes with an anchor, under its number. -/
def anchored (document : Document) : List (Nat × Node) :=
  document.root.all.filterMap fun node => node.anchor?.map (·, node)

/-- What the alias of an anchor repeats: the last node with its number. -/
def target? (anchored : List (Nat × Node)) (number : Nat) : Option Node :=
  anchored.reverse.lookup number

end Document

end Rollout.Yaml
