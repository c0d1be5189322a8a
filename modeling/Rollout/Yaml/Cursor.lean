import Rollout.Yaml.Character

/-!
Places in a text, with the line and the column that a reader of the text sees there.
-/

namespace Rollout.Yaml

/-- A place: the characters from it on, its line and column, both from zero, and the number of
characters before it.
-/
structure Cursor where
  rest : List Char
  line : Nat
  column : Nat
  index : Nat
deriving Repr

namespace Cursor

def ofText (text : List Char) : Cursor :=
  ⟨text, 0, 0, 0⟩

/-- The place after the next character. -/
def next (p : Cursor) : Cursor :=
  match p.rest with
  | [] => p
  | c :: rest =>
      if isBreak c then ⟨rest, p.line + 1, 0, p.index + 1⟩
      else ⟨rest, p.line, p.column + 1, p.index + 1⟩

/-- The place after the next `count` characters. -/
def skip (p : Cursor) : Nat → Cursor
  | 0 => p
  | count + 1 => p.next.skip count

/-- The characters up to the first that fails the test, and the place of that one. -/
def span (p : Cursor) (test : Char → Bool) : List Char × Cursor :=
  let run := p.rest.takeWhile test
  (run, p.skip run.length)

def peek (p : Cursor) : Option Char :=
  p.rest.head?

/-- Is the next character `c`? -/
def sees (p : Cursor) (c : Char) : Bool :=
  p.peek = some c

/-- Is the line over here? -/
def endsLine (p : Cursor) : Bool :=
  p.peek.all isBreak

/-- The place after a comment, if one begins here. -/
def skipComment (p : Cursor) : Cursor :=
  if p.sees '#' then (p.span (!isBreak ·)).2 else p

/-- Do three of `mark`, and no longer word, stand here at the beginning of a line? -/
def atMark (p : Cursor) (mark : Char) : Bool :=
  p.column = 0 && p.rest.take 3 = [mark, mark, mark] && endsWord (p.rest.drop 3)

/-- Does a document begin or end at this line? -/
def atDocumentMark (p : Cursor) : Bool :=
  p.atMark '-' || p.atMark '.'

end Cursor

end Rollout.Yaml
