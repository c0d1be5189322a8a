/-!
The tokens of YAML text. Where indentation alone opens or closes a collection, a token says so.
-/

namespace Rollout.Yaml

/-- A token. Tags and the beginnings that handles stand for are bytes, since a percent sign with
two digits writes one byte of them.
-/
inductive Token
  | version (major minor : Nat)
  | tagHandle (handle : String) (start : List UInt8)
  | documentStart
  | documentEnd
  | blockSequence
  | blockMapping
  | blockEnd
  | flowSequence
  | flowSequenceEnd
  | flowMapping
  | flowMappingEnd
  | entry
  | separator
  | key
  | value
  | alias (name : String)
  | anchor (name : String)
  | tag (handle : String) (suffix : List UInt8)
  | scalar (text : String) (plain : Bool)
  | textEnd
deriving DecidableEq, Repr

end Rollout.Yaml
