import Rollout.Json.Number

/-!
JSON text. Nothing but white space may surround the one value.
-/

namespace Rollout

inductive Json
  | null
  | bool (b : Bool)
  | integer (n : Int)
  | float (x : Binary64)
  | text (s : String)
  | array (items : List Json)
  | object (entries : List (String × Json))
deriving Inhabited, Repr

namespace Json

def isSpace (c : Char) : Bool :=
  c = ' ' || c = '\n' || c = '\t' || c = '\r'

def skipSpace (cs : List Char) : List Char :=
  cs.dropWhile isSpace

/-! ## Texts -/

def hexDigit? (c : Char) : Option Nat :=
  if c.isDigit then some (c.toNat - '0'.toNat)
  else if 'a' ≤ c && c ≤ 'f' then some (c.toNat - 'a'.toNat + 10)
  else if 'A' ≤ c && c ≤ 'F' then some (c.toNat - 'A'.toNat + 10)
  else none

/-- The number that four digits behind `u` spell. -/
def codeUnit? : List Char → Option (Nat × List Char)
  | 'u' :: a :: b :: c :: d :: rest => do
      let digits ← [a, b, c, d].mapM hexDigit?
      some (digits.foldl (fun n d => 16 * n + d) 0, rest)
  | _ => none

/-- The character behind a backslash. Two surrogates together spell one character. -/
def escape? : List Char → Option (Char × List Char)
  | '"' :: rest => some ('"', rest)
  | '\\' :: rest => some ('\\', rest)
  | '/' :: rest => some ('/', rest)
  | 'b' :: rest => some ('\x08', rest)
  | 'f' :: rest => some ('\x0c', rest)
  | 'n' :: rest => some ('\n', rest)
  | 'r' :: rest => some ('\r', rest)
  | 't' :: rest => some ('\t', rest)
  | cs => do
      let (unit, rest) ← codeUnit? cs
      if unit < 0xd800 || 0xe000 ≤ unit then some (Char.ofNat unit, rest)
      else
        match rest with
        | '\\' :: rest => do
            let (low, rest) ← codeUnit? rest
            if unit < 0xdc00 && 0xdc00 ≤ low && low < 0xe000 then
              some (Char.ofNat (0x10000 + (unit - 0xd800) * 0x400 + (low - 0xdc00)), rest)
            else none
        | _ => none

/-- The rest of a text behind its opening quote. Each of its characters takes up one of the first
argument, which holds as many as lie ahead.
-/
def textFrom : List Char → List Char → Option (List Char × List Char)
  | [], _ => none
  | _ :: ahead, cs =>
      match cs with
      | [] => none
      | '"' :: rest => some ([], rest)
      | '\\' :: rest => do
          let (c, rest) ← escape? rest
          let (more, rest) ← textFrom ahead rest
          some (c :: more, rest)
      | c :: rest =>
          if c.toNat < 0x20 then none
          else (textFrom ahead rest).map fun (more, rest) => (c :: more, rest)

def string? (cs : List Char) : Option (String × List Char) :=
  (textFrom cs cs).map fun (chars, rest) => (String.ofList chars, rest)

/-! ## Numbers -/

/-- Digits behind a mark that must be followed by at least one. -/
def someDigits (cs : List Char) : Option (List Char × List Char) :=
  let digits := cs.takeWhile Char.isDigit
  if digits.isEmpty then none else some (digits, cs.dropWhile Char.isDigit)

/-- An exponent, if there is one. -/
def exponent (cs : List Char) : Option (Option Int × List Char) :=
  match cs with
  | mark :: rest =>
      if mark = 'e' || mark = 'E' then do
        let (negative, rest) := Binary64.splitSign rest
        let (digits, rest) ← someDigits rest
        let n : Int := Binary64.digitsValue digits
        some (some (if negative then -n else n), rest)
      else some (none, cs)
  | [] => some (none, cs)

/-- A number. A leading zero stands alone before the point. -/
def number (cs : List Char) : Option (Json × List Char) := do
  let (negative, cs) :=
    match cs with
    | '-' :: rest => (true, rest)
    | cs => (false, cs)
  let (whole, cs) ← someDigits cs
  if whole.head? = some '0' && whole.length > 1 then none
  else do
    let (fraction, cs) ←
      match cs with
      | '.' :: rest => (someDigits rest).map fun (digits, rest) => (some digits, rest)
      | cs => some (none, cs)
    let (power, cs) ← exponent cs
    let isWhole := fraction.isNone && power.isNone
    match if isWhole then wholeNumber? negative whole else none with
    | some n => some (.integer n, cs)
    | none => do
        let x ← (Decimal.ofDigits negative whole (fraction.getD []) (power.getD 0)).float?
        some (.float x, cs)

/-! ## Values -/

/-- What stands behind a word of the language, if it stands here. -/
def word? (word : String) (cs : List Char) : Option (List Char) :=
  if word.toList.isPrefixOf cs then some (cs.drop word.length) else none

mutual

def value : Nat → List Char → Option (Json × List Char)
  | 0, _ => none
  | steps + 1, cs =>
      match skipSpace cs with
      | [] => none
      | '"' :: rest => (string? rest).map fun (s, rest) => (.text s, rest)
      | '[' :: rest =>
          match skipSpace rest with
          | ']' :: rest => some (.array [], rest)
          | rest => (items steps rest).map fun (items, rest) => (.array items, rest)
      | '\x7b' :: rest =>
          match skipSpace rest with
          | '\x7d' :: rest => some (.object [], rest)
          | rest => (entries steps rest).map fun (entries, rest) => (.object entries, rest)
      | cs =>
          match word? "null" cs, word? "true" cs, word? "false" cs with
          | some rest, _, _ => some (.null, rest)
          | _, some rest, _ => some (.bool true, rest)
          | _, _, some rest => some (.bool false, rest)
          | none, none, none => number cs

/-- The items of an array, at least one, and what closes it. -/
def items : Nat → List Char → Option (List Json × List Char)
  | 0, _ => none
  | steps + 1, cs => do
      let (item, rest) ← value steps cs
      match skipSpace rest with
      | ']' :: rest => some ([item], rest)
      | ',' :: rest => do
          let (more, rest) ← items steps rest
          some (item :: more, rest)
      | _ => none

/-- The entries of an object, at least one, and what closes it. -/
def entries : Nat → List Char → Option (List (String × Json) × List Char)
  | 0, _ => none
  | steps + 1, cs => do
      let '"' :: rest := skipSpace cs | none
      let (key, rest) ← string? rest
      let ':' :: rest := skipSpace rest | none
      let (item, rest) ← value steps rest
      match skipSpace rest with
      | '\x7d' :: rest => some ([(key, item)], rest)
      | ',' :: rest => do
          let (more, rest) ← entries steps rest
          some ((key, item) :: more, rest)
      | _ => none

end

/-- The value of a text. -/
def ofText? (cs : List Char) : Option Json :=
  match value (2 * cs.length + 2) cs with
  | some (json, rest) => if (skipSpace rest).isEmpty then some json else none
  | none => none

end Json

end Rollout
