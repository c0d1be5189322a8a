import Rollout.Text.Quoted
import Rollout.Value

/-!
What is wrong with a document that is well formed but does not have the expected structure.
-/

namespace Rollout

/-- What stands in a document, as messages name it. The two names of nothing belong to formats in
which an empty value can or cannot be written; a wide integer has more than 64 bits.
-/
inductive Found
  | unit
  | null
  | bool (b : Bool)
  | integer (n : Int)
  | wideInteger (n : Int)
  | float (digits : String)
  | text (s : String)
  | option
  | sequence
  | mapping
  | tagged
deriving DecidableEq, Repr

def Found.name : Found → String
  | .unit => "unit value"
  | .null => "null"
  | .bool b => "boolean `" ++ (if b then "true" else "false") ++ "`"
  | .integer n => "integer `" ++ n.repr ++ "`"
  | .wideInteger n =>
      "integer `" ++ n.repr ++ "` as " ++ (if n < 0 then "i128" else "u128")
  | .float digits => "floating point `" ++ digits ++ "`"
  | .text s => "string " ++ Text.quoted s
  | .option => "Option value"
  | .sequence => "sequence"
  | .mapping => "map"
  | .tagged => "enum"

/-- A difference between a document and its schema. -/
inductive Complaint
  | wrongType (found : Found) (expected : String)
  | wrongValue (text expected : String)
  | wrongLength (found : Nat) (expected : String)
  | unknownField (name : String) (known : List String)
  | missingField (name : String)
  | repeatedField (name : String)
  | repeatedKey (key : Value)
  | surplusItems
deriving Repr

namespace Complaint

/-- The names one of which was expected. -/
def oneOf (names : List String) : String :=
  match names.map fun name => "`" ++ name ++ "`" with
  | [name] => name
  | [first, second] => first ++ " or " ++ second
  | names => "one of " ++ String.intercalate ", " names

/-- How a message names a key of a mapping. -/
def keyName : Value → String
  | .null => "with null key"
  | .bool b => "with key `" ++ (if b then "true" else "false") ++ "`"
  | .integer n => "with key " ++ n.repr
  | .float x => "with key " ++ x.text
  | .text s => "with key " ++ Text.quoted s
  | _ => "in YAML map"

def message : Complaint → String
  | .wrongType found expected => "invalid type: " ++ found.name ++ ", expected " ++ expected
  | .wrongValue text expected =>
      "invalid value: string " ++ Text.quoted text ++ ", expected " ++ expected
  | .wrongLength found expected =>
      "invalid length " ++ found.repr ++ ", expected " ++ expected
  | .unknownField name known => "unknown field `" ++ name ++ "`, expected " ++ oneOf known
  | .missingField name => "missing field `" ++ name ++ "`"
  | .repeatedField name => "duplicate field `" ++ name ++ "`"
  | .repeatedKey key => "duplicate entry " ++ keyName key
  | .surplusItems => "trailing characters"

end Complaint

end Rollout
