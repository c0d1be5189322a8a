import Rollout.Schema.Complaint
import Rollout.Yaml.Node.Basic

/-!
The type of a scalar. A plain one without a tag is what it looks like; a tag of the core says what
it must be; all others are text.
-/

namespace Rollout.Yaml

def isNull (text : String) : Bool :=
  text = "null" || text = "Null" || text = "NULL" || text = "~"

def bool? (text : String) : Option Bool :=
  if text = "true" || text = "True" || text = "TRUE" then some true
  else if text = "false" || text = "False" || text = "FALSE" then some false
  else none

/-- The value of a digit in a base up to sixteen. -/
def digit? (base : Nat) (c : Char) : Option Nat :=
  let n? :=
    if '0' ≤ c && c ≤ '9' then some (c.toNat - '0'.toNat)
    else if 'a' ≤ c && c ≤ 'f' then some (c.toNat - 'a'.toNat + 10)
    else if 'A' ≤ c && c ≤ 'F' then some (c.toNat - 'A'.toNat + 10)
    else none
  n?.filter (· < base)

/-- The number that a non-empty run of digits spells. -/
def digits? (base : Nat) (text : List Char) : Option Nat :=
  if text.isEmpty then none
  else (text.mapM (digit? base)).map (·.foldl (fun n d => base * n + d) 0)

/-- Splits a sign off. -/
def splitSign : List Char → Bool × List Char
  | '-' :: rest => (true, rest)
  | '+' :: rest => (false, rest)
  | text => (false, text)

/-- Does the text begin with a zero and consist of several digits, a sign apart? Such a text is no
number.
-/
def hasLeadingZero (text : List Char) : Bool :=
  match (splitSign text).2 with
  | '0' :: rest => !rest.isEmpty && rest.all Char.isDigit
  | _ => false

/-- A whole number: decimal without leading zeros, or in base 16, 8 or 2 behind a mark. -/
def wholeNumber? (text : List Char) : Option Int :=
  let (negative, rest) := splitSign text
  let magnitude :=
    match rest with
    | '0' :: 'x' :: digits => digits? 16 digits
    | '0' :: 'o' :: digits => digits? 8 digits
    | '0' :: 'b' :: digits => digits? 2 digits
    | digits => if hasLeadingZero text then none else digits? 10 digits
  magnitude.map fun (n : Nat) => if negative then -n else n

/-- A whole number of at most 128 bits; beyond 64 bits it is a wide one. -/
def integer? (text : List Char) : Option Found :=
  (wholeNumber? text).bind fun n =>
    if -Int.pow 2 63 ≤ n && n < Int.pow 2 64 then some (.integer n)
    else if -Int.pow 2 127 ≤ n && n < Int.pow 2 128 then some (.wideInteger n)
    else none

def infinities : List String :=
  [".inf", ".Inf", ".INF"]

/-- A floating point number. A decimal too large for one is none. -/
def float? (text : List Char) : Option Binary64 :=
  let (negative, rest) := splitSign text
  if infinities.contains (String.ofList rest) then some (.infinite negative)
  else if [".nan", ".NaN", ".NAN"].contains (String.ofList text) then some .nan
  else
    let (_, digits) := splitSign rest
    if digits.length < rest.length then none
    else (Binary64.ofText? text).filter Binary64.isFinite

/-- The meaning of a scalar. A float keeps its value beside the name that messages give it. -/
inductive Meaning
  | found (what : Found)
  | float (x : Binary64)
deriving Repr

/-- How a message names the scalar. -/
def Meaning.toFound : Meaning → Found
  | .found what => what
  | .float x => .float x.plainText

/-- What a plain scalar without a tag looks like. -/
def plainMeaning (text : String) : Meaning :=
  if text = "" || isNull text then .found .unit
  else
    match bool? text, integer? text.toList with
    | some b, _ => .found (.bool b)
    | none, some n => .found n
    | none, none =>
        if hasLeadingZero text.toList then .found (.text text)
        else
          match float? text.toList with
          | some x => .float x
          | none => .found (.text text)

/-- What a scalar is. A tag of the core must fit the text. -/
def meaning (tag : Option Tag) (plain : Bool) (text : String) : Except Complaint Meaning :=
  let demand (found : Option Meaning) (expected : String) : Except Complaint Meaning :=
    match found with
    | some meaning => .ok meaning
    | none => .error (.wrongValue text expected)
  let asWritten : Meaning := if plain then plainMeaning text else .found (.text text)
  match tag with
  | some (.core "bool") => demand ((bool? text).map (.found ∘ .bool)) "a boolean"
  | some (.core "int") => demand ((integer? text.toList).map .found) "an integer"
  | some (.core "float") => demand ((float? text.toList).map .float) "a float"
  | some (.core "null") => demand (if isNull text then some (.found .unit) else none) "null"
  | some (.core _) | some .foreign => .ok (.found (.text text))
  | some (.own _) | none => .ok asWritten

end Rollout.Yaml
