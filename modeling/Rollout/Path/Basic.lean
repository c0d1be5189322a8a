import Rollout.Text.Pieces

/-!
Cleaned paths. Definition files and manifests write paths with slashes or backslashes; a path is
held as its segments, without empty and `.` segments and with every `name/..` pair cancelled.
-/

namespace Rollout

abbrev Segment := List Char

/-- A cleaned path: nothing at all, from the root, or relative to some directory. -/
inductive Path
  | empty
  | rooted (segments : List Segment)
  | relative (segments : List Segment)
deriving DecidableEq, Repr, Inhabited

namespace Path

/-- The segment that stands for the containing directory. -/
def up : Segment := ['.', '.']

/-- Is the segment one that stays where it is? -/
def stays (s : Segment) : Bool :=
  s = [] || s = ['.']

/-- Adds a segment to a stack whose last segment stands first. A path from the root cannot climb
above it; a relative one keeps the climb.
-/
def push (fromRoot : Bool) (stack : List Segment) (s : Segment) : List Segment :=
  if stays s then stack
  else if s = up then
    match stack with
    | [] => if fromRoot then [] else [up]
    | last :: rest =>
        if last ≠ up then rest else if fromRoot then last :: rest else up :: last :: rest
  else s :: stack

/-- The segments that remain of a list. -/
def reduce (fromRoot : Bool) (segments : List Segment) : List Segment :=
  (segments.foldl (push fromRoot) []).reverse

def slash (c : Char) : Char :=
  if c = '\\' then '/' else c

/-- Does the text, with slashes only, start at the root? -/
def startsAtRoot (text : List Char) : Bool :=
  text.head? = some '/'

/-- Reads a text with slashes only. -/
def ofSlashed (text : List Char) : Path :=
  if text.isEmpty then .empty
  else if startsAtRoot text then .rooted (reduce true (Text.pieces '/' text))
  else .relative (reduce false (Text.pieces '/' text))

/-- Reads a text; a backslash separates like a slash. -/
def ofText (text : String) : Path :=
  ofSlashed (text.toList.map slash)

/-- A relative path to where one stands is written `.`. -/
def chars : Path → List Char
  | .empty => []
  | .rooted segments => '/' :: Text.join '/' segments
  | .relative [] => ['.']
  | .relative segments => Text.join '/' segments

def text (p : Path) : String :=
  String.ofList p.chars

/-- What `segment` names as seen from `p`. A segment from the root wins. -/
def join (p : Path) (segment : String) : Path :=
  let slashed := segment.toList.map slash
  if startsAtRoot slashed then ofSlashed slashed
  else
    match p with
    | .empty | .relative [] => ofSlashed slashed
    | .rooted segments => .rooted (reduce true (segments ++ Text.pieces '/' slashed))
    | .relative segments => .relative (reduce false (segments ++ Text.pieces '/' slashed))

/-- The containing directory; the root and a single relative segment have none. -/
def parent? : Path → Option Path
  | .empty => none
  | .rooted segments => if segments.isEmpty then none else some (.rooted segments.dropLast)
  | .relative segments =>
      if segments.length ≤ 1 then none else some (.relative segments.dropLast)

/-- The directory a file lies in, the current one for a single segment. -/
def folder (p : Path) : Path :=
  p.parent?.getD (.relative [])

def fileNameChars? : Path → Option Segment
  | .empty => none
  | .rooted segments => segments.getLast?
  | .relative [] => some ['.']
  | .relative segments => segments.getLast?

def fileName? (p : Path) : Option String :=
  p.fileNameChars?.map String.ofList

/-- What follows the last dot of a name, unless the dot comes first. -/
def extensionOf? (name : List Char) : Option (List Char) :=
  let extension := (name.reverse.takeWhile (· ≠ '.')).reverse
  if name.length ≤ extension.length + 1 then none else some extension

/-- The extension of the file name; a name such as `.hidden` has none. -/
def extension? (p : Path) : Option String :=
  (p.fileNameChars?.bind extensionOf?).map String.ofList

end Path

end Rollout
