import Rollout.Yaml.Token.Property
import Rollout.Yaml.Token.Scalar

/-!
From text to tokens, one after another. A key need not be marked: whether a token begins a key is
known only when a colon follows it on its line. So the place of the last token that may begin a key
is held for every open flow collection and for the blocks around them, and the key token is put
in before it when the colon is met.
-/

namespace Rollout.Yaml

/-- Where a key without a mark may begin: the number of its first token, its place, and whether a
key has to stand there.
-/
structure KeyStart where
  token : Nat
  line : Nat
  column : Nat
  index : Nat
  required : Bool
deriving Repr

/-- A key without a mark fits on one line and is at most 1024 characters long. -/
def KeyStart.isPast (start : KeyStart) (p : Cursor) : Bool :=
  start.line < p.line || start.index + 1024 < p.index

/-- A text read up to a place: its tokens, the latest first, with their number; the columns of the
open blocks, innermost first; the key that may have begun in the innermost flow collection and
those of the collections around it, down to the blocks; and whether a key may begin here.
-/
structure Scan where
  place : Cursor
  tokens : List Token
  count : Nat
  columns : List Nat
  keyStart : Option KeyStart
  outerKeys : List (Option KeyStart)
  keyAllowed : Bool
deriving Repr

namespace Scan

def ofText (text : List Char) : Scan :=
  ⟨.ofText text, [], 0, [], none, [], true⟩

/-- Is a flow collection open? -/
def inFlow (s : Scan) : Bool :=
  !s.outerKeys.isEmpty

/-- The least column of what belongs to the innermost block. -/
def inner (s : Scan) : Nat :=
  s.columns.head?.elim 0 (· + 1)

def add (s : Scan) (token : Token) : Scan :=
  { s with tokens := token :: s.tokens, count := s.count + 1 }

/-- Puts a token in as number `n`. -/
def insert (s : Scan) (n : Nat) (token : Token) : Scan :=
  let later := s.count - n
  { s with tokens := s.tokens.take later ++ token :: s.tokens.drop later, count := s.count + 1 }

def goTo (s : Scan) (p : Cursor) : Scan :=
  { s with place := p }

def allowKey (s : Scan) (allowed : Bool) : Scan :=
  { s with keyAllowed := allowed }

/-- Gives up every key start that lies too far back. -/
def dropPastKeys (s : Scan) : Option Scan := do
  let drop (start : Option KeyStart) : Option (Option KeyStart) :=
    match start with
    | none => some none
    | some start =>
        if !start.isPast s.place then some (some start)
        else if start.required then none
        else some none
  let keyStart ← drop s.keyStart
  let outerKeys ← s.outerKeys.mapM drop
  some { s with keyStart, outerKeys }

/-- Gives up the key start of the innermost collection. -/
def dropKey (s : Scan) : Option Scan :=
  if s.keyStart.any (·.required) then none else some { s with keyStart := none }

/-- Notes that a key may begin with the token that is read next. -/
def noteKey (s : Scan) : Option Scan :=
  if !s.keyAllowed then some s
  else do
    let s ← s.dropKey
    let required := !s.inFlow && s.columns.head? = some s.place.column
    some { s with
      keyStart := some ⟨s.count, s.place.line, s.place.column, s.place.index, required⟩ }

/-- Closes the blocks whose column fails the test, from the innermost on. -/
def closeBlocks (keep : Nat → Bool) (s : Scan) : Scan :=
  if s.inFlow then s
  else
    let closed := s.columns.takeWhile (!keep ·)
    { s with
      columns := s.columns.drop closed.length
      tokens := closed.map (fun _ => .blockEnd) ++ s.tokens
      count := s.count + closed.length }

/-- Opens a block at a column right of the innermost one, as token number `n`. -/
def openBlock (s : Scan) (column n : Nat) (token : Token) : Scan :=
  if s.inFlow || column < s.inner then s
  else { s.insert n token with columns := column :: s.columns }

/-- Opens a block here. -/
def openBlockHere (s : Scan) (token : Token) : Scan :=
  s.openBlock s.place.column s.count token

/-- Skips blanks, comments and line breaks. A tab is no indentation; a line break of a block allows
a key. A line takes up a character of the first argument, so it must hold as many as are left.
-/
def skipGap : List Char → Scan → Scan
  | [], s => s
  | _ :: ahead, s =>
      let p := s.place
      let p := if p.column = 0 && p.sees '\ufeff' then p.next else p
      -- Where a key may begin in a block, a tab would stand for indentation.
      let tabs := s.inFlow || !s.keyAllowed
      let p := (p.span fun c => c = ' ' || (tabs && c = '\t')).2.skipComment
      if p.peek.any isBreak then
        skipGap ahead { s with place := p.next, keyAllowed := s.keyAllowed || !s.inFlow }
      else s.goTo p

/-! ## The kinds of tokens -/

def textEnd (s : Scan) : Option Scan := do
  let p := s.place
  -- The end counts as a line of its own, past any key that the last line may have begun.
  let p := if p.column = 0 then p else { p with line := p.line + 1, column := 0 }
  let s ← ((s.goTo p).closeBlocks fun _ => false).dropKey
  some ((s.allowKey false).add .textEnd)

def directiveHere (s : Scan) : Option Scan := do
  let s ← (s.closeBlocks fun _ => false).dropKey
  let (token, p) ← directive s.place
  some (((s.allowKey false).goTo p).add token)

def documentMark (s : Scan) (token : Token) : Option Scan := do
  let s ← (s.closeBlocks fun _ => false).dropKey
  some (((s.allowKey false).goTo (s.place.skip 3)).add token)

def openFlow (s : Scan) (token : Token) : Option Scan := do
  let s ← s.noteKey
  some ({ s with
    keyStart := none, outerKeys := s.keyStart :: s.outerKeys,
    keyAllowed := true, place := s.place.next }.add token)

def closeFlow (s : Scan) (token : Token) : Option Scan := do
  let s ← s.dropKey
  let s :=
    match s.outerKeys with
    | [] => s
    | keyStart :: outerKeys => { s with keyStart, outerKeys }
  some (((s.allowKey false).goTo s.place.next).add token)

def separator (s : Scan) : Option Scan := do
  let s ← s.dropKey
  some (((s.allowKey true).goTo s.place.next).add .separator)

def entry (s : Scan) : Option Scan := do
  if !s.inFlow && !s.keyAllowed then none
  else do
    let s ← (s.openBlockHere .blockSequence).dropKey
    some (((s.allowKey true).goTo s.place.next).add .entry)

def key (s : Scan) : Option Scan := do
  if !s.inFlow && !s.keyAllowed then none
  else do
    let s ← (s.openBlockHere .blockMapping).dropKey
    some (((s.allowKey !s.inFlow).goTo s.place.next).add .key)

/-- A colon. It makes a key of what may have begun as one; otherwise it stands for itself. -/
def value (s : Scan) : Option Scan :=
  match s.keyStart with
  | some start =>
      -- The mapping begins where its first key does, so its token goes in before the key's.
      let s := (s.insert start.token .key).openBlock start.column start.token .blockMapping
      some ({ s with keyStart := none, keyAllowed := false, place := s.place.next }.add .value)
  | none =>
      if !s.inFlow && !s.keyAllowed then none
      else
        let s := s.openBlockHere .blockMapping
        some (((s.allowKey !s.inFlow).goTo s.place.next).add .value)

def anchorHere (s : Scan) (token : String → Token) : Option Scan := do
  let s ← s.noteKey
  let (name, p) ← anchorName s.place
  some (((s.allowKey false).goTo p).add (token name))

def tagHere (s : Scan) : Option Scan := do
  let s ← s.noteKey
  let (token, p) ← tagToken s.inFlow s.place
  some (((s.allowKey false).goTo p).add token)

def blockScalarHere (s : Scan) : Option Scan := do
  let s ← s.dropKey
  let (text, p) ← blockScalar s.columns s.place
  some (((s.allowKey true).goTo p).add (.scalar (String.ofList text) false))

def quotedHere (s : Scan) (quote : Char) : Option Scan := do
  let s ← s.noteKey
  let (text, p) ← quotedScalar quote s.place
  some (((s.allowKey false).goTo p).add (.scalar (String.ofList text) false))

/-- A plain scalar. A line break at its end allows a key again. -/
def plainHere (s : Scan) : Option Scan := do
  let s ← s.noteKey
  let (text, broken, p) ← plainScalar s.inFlow s.inner s.place
  some (((s.allowKey broken).goTo p).add (.scalar (String.ofList text) true))

/-- May a plain scalar begin with `c`, with `rest` behind it? -/
def beginsPlain (flow : Bool) (c : Char) (rest : List Char) : Bool :=
  if c = '-' then !rest.head?.any isBlank
  else if c = '?' || c = ':' then !flow && !endsWord rest
  else !isGap c && !isReserved c

/-- Reads the token at this place. -/
def tokenHere (s : Scan) : Option Scan :=
  let p := s.place
  match p.rest with
  | [] => s.textEnd
  | c :: rest =>
      let alone := endsWord rest
      if p.column = 0 && c = '%' then s.directiveHere
      else if p.atMark '-' then s.documentMark .documentStart
      else if p.atMark '.' then s.documentMark .documentEnd
      else if c = '[' then s.openFlow .flowSequence
      else if c = '\x7b' then s.openFlow .flowMapping
      else if c = ']' then s.closeFlow .flowSequenceEnd
      else if c = '\x7d' then s.closeFlow .flowMappingEnd
      else if c = ',' then s.separator
      else if c = '-' && alone then s.entry
      else if c = '?' && (s.inFlow || alone) then s.key
      else if c = ':' && (s.inFlow || alone) then s.value
      else if c = '*' then s.anchorHere .alias
      else if c = '&' then s.anchorHere .anchor
      else if c = '!' then s.tagHere
      else if (c = '|' || c = '>') && !s.inFlow then s.blockScalarHere
      else if c = '\'' || c = '"' then s.quotedHere c
      else if beginsPlain s.inFlow c rest then s.plainHere
      else none

/-- Reads the next token, past what stands before it. -/
def step (s : Scan) : Option Scan := do
  let s ← (s.skipGap s.place.rest).dropPastKeys
  let s ← (s.closeBlocks (· ≤ s.place.column)).tokenHere
  s.dropPastKeys

/-- The tokens that no later text can change: those before the first that may begin a key. -/
def settled (s : Scan) : List Token :=
  -- A colon could still put a key token in before any of these.
  let starts := (s.keyStart :: s.outerKeys).filterMap (·.map KeyStart.token)
  s.tokens.reverse.take (starts.foldl min s.count)

/-- Reads tokens up to the end of the text, or to where no token can be read. -/
def run : Nat → Scan → List Token
  | 0, s => s.settled
  | steps + 1, s =>
      match s.step with
      | none => s.settled
      | some s => if s.tokens.head? = some .textEnd then s.tokens.reverse else run steps s

end Scan

/-- The tokens of a text. The last one is the end of the text unless the text breaks the rules; then
they are the tokens before that place. A text with an illegal character has none.
-/
def tokens (text : List Char) : List Token :=
  if text.all isLegal then
    let text := unifyBreaks text
    (Scan.ofText text).run (text.length + 1)
  else []

end Rollout.Yaml
