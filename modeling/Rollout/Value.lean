import Rollout.Number.Shortest

/-!
Free-form data as it stands in definition files: scalars, sequences, mappings and tagged values.
-/

namespace Rollout

/-- A value. The entries of a mapping keep their order; a tag is held without its leading mark. -/
inductive Value
  | null
  | bool (b : Bool)
  | integer (n : Int)
  | float (x : Binary64)
  | text (s : String)
  | sequence (items : List Value)
  | mapping (entries : List (Value × Value))
  | tagged (tag : String) (value : Value)
deriving Inhabited, BEq, Repr

namespace Value

/-- A tag without its leading `!`; the mark alone stays. -/
def tagName (tag : String) : String :=
  match tag.toList with
  | '!' :: c :: rest => String.ofList (c :: rest)
  | _ => tag

/-- The text of a scalar, the empty text for null, nothing for a collection. Tags do not count. -/
def scalarText : Value → Option String
  | .null => some ""
  | .bool b => some (if b then "true" else "false")
  | .integer n => some n.repr
  | .float x => some x.text
  | .text s => some s
  | .tagged _ value => value.scalarText
  | .sequence _ | .mapping _ => none

/-- What an entry list holds under a text key. -/
def field (key : String) : List (Value × Value) → Option Value
  | [] => none
  | (.text name, value) :: rest => if name = key then some value else field key rest
  | _ :: rest => field key rest

mutual

/-- Equality as keys of one mapping know it: the order of a nested mapping does not count, and
floats are compared as numbers.
-/
def same : Value → Value → Bool
  | .null, .null => true
  | .bool a, .bool b => a = b
  | .integer m, .integer n => m = n
  | .float x, .float y => x.sameNumber y
  | .text s, .text t => s = t
  | .sequence xs, .sequence ys => sameItems xs ys
  | .mapping xs, .mapping ys => xs.length = ys.length && sameEntries xs ys
  | .tagged s x, .tagged t y => s = t && same x y
  | _, _ => false

def sameItems : List Value → List Value → Bool
  | [], [] => true
  | x :: xs, y :: ys => same x y && sameItems xs ys
  | _, _ => false

def sameEntries : List (Value × Value) → List (Value × Value) → Bool
  | [], _ => true
  | (key, value) :: rest, others =>
      others.any (fun e => same key e.1 && same value e.2) && sameEntries rest others

end

end Value

end Rollout
