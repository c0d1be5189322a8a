import Rollout.Yaml.Cursor

/-!
Scalars as they are written: plain, between quotes, or as an indented block. Each reader takes the
place where the scalar begins and gives its text with the place after it; it gives nothing where
the text is no scalar of its kind. A reader that takes one piece after another also takes a text
that is at least as long as what lies ahead, and drops a character of it with each piece.
-/

namespace Rollout.Yaml

/-- What a gap between two words of a folded text says: blanks alone stay, one line break is a
space, and of several line breaks the first falls away. A separator as first break stays.
-/
def foldGap (gap : List Char) : List Char :=
  match gap.filter isBreak with
  | [] => gap
  | '\n' :: [] => [' ']
  | '\n' :: more => more
  | breaks => breaks

/-! ## Plain scalars -/

/-- The characters of a plain scalar up to the next gap or indicator. In flow style a colon must
not stand right before a mark of that style.
-/
def plainWord (flow : Bool) : List Char → Option (List Char)
  | [] => some []
  | c :: rest =>
      if isGap c then some []
      else if flow && c = ':' && rest.head?.any (fun d => isFlowMark d || d = '?') then none
      else if (c = ':' && endsWord rest) || (flow && isFlowMark c) then some []
      else (plainWord flow rest).map (c :: ·)

/-- Does a tab stand left of the column `least` in a line that begins within the gap? -/
def tabInMargin (least : Nat) (gap : List Char) : Bool :=
  go 0 (gap.dropWhile (!isBreak ·))
where
  go (column : Nat) : List Char → Bool
    | [] => false
    | c :: rest =>
        if isBreak c then go 0 rest
        else (c = '\t' && column < least) || go (column + 1) rest

/-- The rest of a plain scalar after the gap `gap`, whether a line break stands at its end, and the
place after it.
-/
def plainFrom (flow : Bool) (least : Nat)
    : List Char → List Char → Cursor → Option (List Char × Bool × Cursor)
  | [], gap, p => some ([], gap.any isBreak, p)
  | _ :: ahead, gap, p =>
      let ended := some ([], gap.any isBreak, p)
      if p.atDocumentMark || p.sees '#' then ended
      else do
        let word ← plainWord flow p.rest
        if word.isEmpty then ended
        else do
          let (next, after) := (p.skip word.length).span isGap
          if tabInMargin least next then none
          else if next.isEmpty then some (foldGap gap ++ word, false, after)
          else if !flow && after.column < least then
            some (foldGap gap ++ word, next.any isBreak, after)
          else do
            let (more, broken, last) ← plainFrom flow least ahead next after
            some (foldGap gap ++ word ++ more, broken, last)

/-- A plain scalar whose later lines begin at the column `least` or right of it. -/
def plainScalar (flow : Bool) (least : Nat) (p : Cursor) : Option (List Char × Bool × Cursor) :=
  plainFrom flow least p.rest [] p

/-! ## Quoted scalars -/

/-- The characters that have a letter of their own behind a backslash. -/
def namedEscape? : Char → Option Char
  | '0' => some '\x00'
  | 'a' => some '\x07'
  | 'b' => some '\x08'
  | 't' | '\t' => some '\t'
  | 'n' => some '\n'
  | 'v' => some '\x0b'
  | 'f' => some '\x0c'
  | 'r' => some '\r'
  | 'e' => some '\x1b'
  | ' ' => some ' '
  | '"' => some '"'
  | '/' => some '/'
  | '\\' => some '\\'
  | 'N' => some '\u0085'
  | '_' => some '\u00a0'
  | 'L' => some '\u2028'
  | 'P' => some '\u2029'
  | _ => none

/-- How many digits spell a character behind a backslash and this letter. -/
def escapeDigits? : Char → Option Nat
  | 'x' => some 2
  | 'u' => some 4
  | 'U' => some 8
  | _ => none

/-- The character that stands behind a backslash, and the length of its name there. -/
def escape? : List Char → Option (Char × Nat)
  | [] => none
  | c :: rest =>
      match escapeDigits? c with
      | none => (namedEscape? c).map (·, 1)
      | some count => do
          let n ← hexNumber? count rest
          if n.isValidChar then some (Char.ofNat n, count + 1) else none

/-- The rest of a quoted scalar. A quote is written twice between single quotes; between double
quotes a backslash names a character, or joins two lines without a space.
-/
def quotedFrom (quote : Char) : List Char → Cursor → Option (List Char × Cursor)
  | [], _ => none
  | _ :: ahead, p =>
      let then? (text : List Char) (after : Cursor) : Option (List Char × Cursor) :=
        (quotedFrom quote ahead after).map fun (more, last) => (text ++ more, last)
      match p.rest with
      | [] => none
      | c :: rest =>
          if c = quote then
            if c = '\'' && rest.head? = some '\'' then then? ['\''] (p.skip 2)
            else some ([], p.next)
          else if isGap c then
            let (gap, after) := p.span isGap
            if after.atDocumentMark then none else then? (foldGap gap) after
          else if c = '\\' && quote = '"' then
            if rest.head?.any isBreak then
              let (gap, after) := (p.skip 2).span isGap
              if after.atDocumentMark then none else then? (gap.filter isBreak) after
            else
              match escape? rest with
              | none => none
              | some (named, length) => then? [named] (p.skip (length + 1))
          else then? [c] p.next

/-- A quoted scalar, from its opening quote on. -/
def quotedScalar (quote : Char) (p : Cursor) : Option (List Char × Cursor) :=
  quotedFrom quote p.rest p.next

/-! ## Block scalars -/

/-- What becomes of the line breaks at the end of a block scalar. -/
inductive Chomping
  | strip
  | clip
  | keep
deriving DecidableEq, Repr

def chomping? (p : Cursor) : Option Chomping :=
  if p.sees '+' then some .keep else if p.sees '-' then some .strip else none

/-- A digit from one to nine that fixes the indentation; zero is refused. -/
def increment (p : Cursor) : Option (Option Nat × Cursor) :=
  match p.peek with
  | some c =>
      if c = '0' then none
      else if c.isDigit then some (some (c.toNat - '0'.toNat), p.next)
      else some (none, p)
  | none => some (none, p)

/-- The rest of the line behind `|` or `>`: how to treat the end, the indentation beyond that of the
surrounding block, and nothing else but a comment.
-/
def blockHeader (p : Cursor) : Option (Chomping × Option Nat × Cursor) := do
  let (chomping, indent, p) ←
    match chomping? p with
    | some chomping => do
        let (indent, p) ← increment p.next
        some (chomping, indent, p)
    | none => do
        let (indent, p) ← increment p
        match indent, chomping? p with
        | some _, some chomping => some (chomping, indent, p.next)
        | _, _ => some (.clip, indent, p)
  let p := (p.span isBlank).2.skipComment
  if p.endsLine then some (chomping, indent, p.next) else none

/-- Empty lines and the margin before a line: the line breaks, the deepest column met and the place
where text begins. A margin that is not known yet takes all spaces.
-/
def blockMargin (margin : Option Nat)
    : List Char → Nat → Cursor → Option (List Char × Nat × Cursor)
  | [], deepest, p => some ([], max deepest p.column, p)
  | _ :: ahead, deepest, p =>
      let spaces := p.rest.takeWhile (· = ' ')
      let width :=
        match margin with
        | none => spaces.length
        | some column => min spaces.length (column - p.column)
      let p := p.skip width
      let deepest := max deepest p.column
      if p.sees '\t' && margin.all (p.column < ·) then none
      else
        match p.rest with
        | [] => some ([], deepest, p)
        | c :: _ =>
            if isBreak c then
              (blockMargin margin ahead deepest p.next).map fun (breaks, deepest, p) =>
                (c :: breaks, deepest, p)
            else some ([], deepest, p)

/-- Lines of a block scalar from the first to the last with text, the break after the last one and
those of the empty lines that follow.
-/
structure BlockLines where
  text : List Char
  lastBreak : List Char
  emptyBreaks : List Char
  after : Cursor

/-- The lines from `p` on at column `margin`, after a line that ended with `lastBreak` and empty
lines with `breaks`. Folding joins two lines with a space unless one of them begins with a blank.
-/
def blockLines (folded : Bool) (margin : Nat)
    : List Char → List Char → List Char → Bool → Cursor → Option BlockLines
  | [], lastBreak, breaks, _, p => some ⟨[], lastBreak, breaks, p⟩
  | _ :: ahead, lastBreak, breaks, afterBlank, p =>
      if p.column = margin && !p.rest.isEmpty then do
        let blank := p.peek.any isBlank
        -- A line that begins with a blank keeps its line breaks, on both sides.
        let joint :=
          if folded && lastBreak = ['\n'] && !afterBlank && !blank then
            if breaks.isEmpty then [' '] else []
          else lastBreak
        let (line, ended) := p.span (!isBreak ·)
        let (emptyBreaks, _, after) ←
          blockMargin (some margin) ended.rest 0 ended.next
        let lines ←
          blockLines folded margin ahead ended.peek.toList emptyBreaks blank after
        some { lines with text := joint ++ breaks ++ line ++ lines.text }
      else some ⟨[], lastBreak, breaks, p⟩

/-- A block scalar, from its `|` or `>` on, within a block at the columns `columns`, the innermost
first. Without a stated indentation the deepest margin before the first line fixes it.
-/
def blockScalar (columns : List Nat) (p : Cursor) : Option (List Char × Cursor) := do
  let folded := p.sees '>'
  let (chomping, indent, p) ← blockHeader p.next
  let margin := indent.map (columns.head?.getD 0 + ·)
  let (breaks, deepest, p) ← blockMargin margin p.rest 0 p
  -- Even empty lines far to the left do not bring the margin out of the surrounding block.
  let least := columns.head?.elim 1 (· + 1)
  let margin := margin.getD (max deepest least)
  let lines ← blockLines folded margin p.rest [] breaks false p
  let ending :=
    match chomping with
    | .strip => []
    | .clip => lines.lastBreak
    | .keep => lines.lastBreak ++ lines.emptyBreaks
  some (lines.text ++ ending, lines.after)

end Rollout.Yaml
