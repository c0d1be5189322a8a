import Rollout.Yaml.Cursor
import Rollout.Yaml.Token.Basic

/-!
Anchors, aliases, tags and directives. Each reader takes the place where the token begins and gives
the token with the place after it.
-/

namespace Rollout.Yaml

/-- A character after which the name of an anchor is over. -/
def endsName (p : Cursor) : Bool :=
  match p.peek with
  | none => true
  | some c =>
      isGap c || c = '?' || c = ':' || c = ',' || c = ']' || c = '\x7d' || c = '%' || c = '@'
        || c.toNat = 0x60

/-- The name behind `&` or `*`. -/
def anchorName (p : Cursor) : Option (String × Cursor) :=
  let (name, after) := p.next.span isNameChar
  if !name.isEmpty && endsName after then some (String.ofList name, after) else none

/-! ## Tags -/

/-- How many bytes a character has whose first byte is this one. -/
def sequenceLength? (lead : Nat) : Option Nat :=
  if lead < 0x80 then some 1
  else if 0xc0 ≤ lead && lead < 0xe0 then some 2
  else if 0xe0 ≤ lead && lead < 0xf0 then some 3
  else if 0xf0 ≤ lead && lead < 0xf8 then some 4
  else none

/-- One byte, as a percent sign and two digits. -/
def percentByte? (text : List Char) : Option Nat :=
  match text with
  | '%' :: digits => hexNumber? 2 digits
  | _ => none

/-- The bytes of one character, each behind a percent sign. -/
def percentBytes? (text : List Char) : Option (List Nat) := do
  let lead ← percentByte? text
  let length ← sequenceLength? lead
  let others ← (List.range (length - 1)).mapM fun i => percentByte? (text.drop (3 * (i + 1)))
  if others.all fun b => 0x80 ≤ b && b < 0xc0 then some (lead :: others) else none

/-- The longest run of tag characters, as bytes. Each takes up a character of a text that is as long
as what lies ahead.
-/
def tagBytesFrom (wide : Bool) : List Char → Cursor → Option (List UInt8 × Cursor)
  | [], p => some ([], p)
  | _ :: ahead, p =>
      match p.peek with
      | none => some ([], p)
      | some c =>
          if !isTagChar wide c then some ([], p)
          else do
            let (bytes, length) ←
              if c = '%' then (percentBytes? p.rest).map fun bs => (bs, 3 * bs.length)
              else some ([c.toNat], 1)
            let (more, after) ← tagBytesFrom wide ahead (p.skip length)
            some (bytes.map Nat.toUInt8 ++ more, after)

/-- A run of tag characters. A zero byte ends what counts of it. -/
def tagBytes (wide : Bool) (p : Cursor) : Option (List UInt8 × Cursor) := do
  let (bytes, after) ← tagBytesFrom wide p.rest p
  some (bytes.takeWhile (· ≠ 0), after)

/-- The name behind `!`, with a second `!` where one ends it. -/
def tagHandle (p : Cursor) : List Char × Cursor :=
  let (name, after) := p.next.span isNameChar
  if after.sees '!' then ('!' :: name ++ ['!'], after.next) else ('!' :: name, after)

/-- A tag: in full between `<` and `>`, with a handle, or simply behind `!`. The lone mark has no
handle.
-/
def tagToken (flow : Bool) (p : Cursor) : Option (Token × Cursor) := do
  let (token, after) ←
    if p.rest[1]? = some '<' then do
      let start := p.skip 2
      let (suffix, after) ← tagBytes true start
      if after.index = start.index || !after.sees '>' then none
      else some (Token.tag "" suffix, after.next)
    else do
      let (handle, start) := tagHandle p
      let (suffix, after) ← tagBytes false start
      if handle.length > 1 && handle.getLast? = some '!' then
        if after.index = start.index then none
        else some (Token.tag (String.ofList handle) suffix, after)
      else
        let suffix := (handle.drop 1).map (·.toNat.toUInt8) ++ suffix
        if suffix.isEmpty then some (Token.tag "" ['!'.toNat.toUInt8], after)
        else some (Token.tag "!" suffix, after)
  if endsWord after.rest || (flow && after.sees ',') then some (token, after) else none

/-! ## Directives -/

/-- A number of one to nine digits. -/
def versionNumber (p : Cursor) : Option (Nat × Cursor) :=
  let (digits, after) := p.span Char.isDigit
  if digits.isEmpty || digits.length > 9 then none
  else some (digits.foldl (fun n d => 10 * n + (d.toNat - '0'.toNat)) 0, after)

def versionDirective (p : Cursor) : Option (Token × Cursor) := do
  let (major, p) ← versionNumber (p.span isBlank).2
  if !p.sees '.' then none
  else do
    let (minor, p) ← versionNumber p.next
    some (Token.version major minor, p)

def tagDirective (p : Cursor) : Option (Token × Cursor) := do
  let p := (p.span isBlank).2
  if !p.sees '!' then none
  else
    let (handle, p) := tagHandle p
    if handle.length > 1 && handle.getLast? ≠ some '!' then none
    else if !p.peek.any isBlank then none
    else do
      let start := (p.span isBlank).2
      let (bytes, p) ← tagBytes true start
      if p.index = start.index || !endsWord p.rest then none
      else some (Token.tagHandle (String.ofList handle) bytes, p)

/-- A directive, which fills its line but for a comment. -/
def directive (p : Cursor) : Option (Token × Cursor) := do
  let (name, p) := p.next.span isNameChar
  if name.isEmpty || !endsWord p.rest then none
  else do
    let (token, p) ←
      if name = ['Y', 'A', 'M', 'L'] then versionDirective p
      else if name = ['T', 'A', 'G'] then tagDirective p
      else none
    let p := (p.span isBlank).2.skipComment
    if p.endsLine then some (token, p.next) else none

end Rollout.Yaml
