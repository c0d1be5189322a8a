/-!
The characters of YAML text: which may stand in it at all, which end a line, which stand between
words and which have a meaning of their own.
-/

namespace Rollout.Yaml

/-- May the character stand in a text? Control characters other than tab and line breaks may not. -/
def isLegal (c : Char) : Bool :=
  let n := c.toNat
  n = 0x9 || n = 0xa || n = 0xd || (0x20 ≤ n && n ≤ 0x7e) || n = 0x85
    || (0xa0 ≤ n && n ≤ 0xfffd) || 0x10000 ≤ n

/-- Writes every line break as a line feed: a carriage return with or without a line feed after it
and the next-line character. The line and paragraph separators stay as they are.
-/
def unifyBreaks : List Char → List Char
  | [] => []
  | '\r' :: '\n' :: rest => '\n' :: unifyBreaks rest
  | c :: rest => (if c = '\r' || c = '\u0085' then '\n' else c) :: unifyBreaks rest

/-- Does the character end a line, in a text with unified breaks? -/
def isBreak (c : Char) : Bool :=
  c = '\n' || c = '\u2028' || c = '\u2029'

def isBlank (c : Char) : Bool :=
  c = ' ' || c = '\t'

/-- Does the character stand between words? -/
def isGap (c : Char) : Bool :=
  isBlank c || isBreak c

/-- A letter, digit, underscore or hyphen, the characters of anchors, handles and directives. -/
def isNameChar (c : Char) : Bool :=
  c.isAlphanum || c = '_' || c = '-'

def isFlowMark (c : Char) : Bool :=
  c = ',' || c = '[' || c = ']' || c = '\x7b' || c = '\x7d'

/-- Characters at which no plain scalar begins, whatever follows them. -/
def isReserved (c : Char) : Bool :=
  isFlowMark c || c = '#' || c = '&' || c = '*' || c = '!' || c = '|' || c = '>' || c = '\''
    || c = '"' || c = '%' || c = '@' || c.toNat = 0x60

/-- The characters of a tag. A comma and brackets belong to it only where `wide` allows them. -/
def isTagChar (wide : Bool) (c : Char) : Bool :=
  isNameChar c || c = ';' || c = '/' || c = '?' || c = ':' || c = '@' || c = '&' || c = '='
    || c = '+' || c = '$' || c = '.' || c = '%' || c = '!' || c = '~' || c = '*' || c = '\''
    || c = '(' || c = ')' || (wide && (c = ',' || c = '[' || c = ']'))

/-- Is a word over where this text is left? -/
def endsWord : List Char → Bool
  | [] => true
  | c :: _ => isGap c

def hexDigit? (c : Char) : Option Nat :=
  if c.isDigit then some (c.toNat - '0'.toNat)
  else if 'a' ≤ c && c ≤ 'f' then some (c.toNat - 'a'.toNat + 10)
  else if 'A' ≤ c && c ≤ 'F' then some (c.toNat - 'A'.toNat + 10)
  else none

/-- The number that the first `count` characters spell in base sixteen. -/
def hexNumber? (count : Nat) (text : List Char) : Option Nat := do
  let digits ← (text.take count).mapM hexDigit?
  if digits.length = count then some (digits.foldl (fun n d => 16 * n + d) 0) else none

end Rollout.Yaml
