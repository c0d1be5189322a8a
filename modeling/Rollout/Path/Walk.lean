import Rollout.Path.Basic

/-!
Following a path segment by segment from an absolute directory. Climbing above the root stays at
the root.
-/

namespace Rollout.Path

/-- One step from the directory with the given segments. -/
def step (directory : List Segment) (s : Segment) : List Segment :=
  if stays s then directory
  else if s = up then directory.dropLast
  else directory ++ [s]

/-- Where a text with slashes only leads from `base`. -/
def walkText (base : List Segment) (text : List Char) : List Segment :=
  (Text.pieces '/' text).foldl step (if startsAtRoot text then [] else base)

/-- Where a path leads from `base`. -/
def walk (base : List Segment) : Path → List Segment
  | .empty => base
  | .rooted segments => segments.foldl step []
  | .relative segments => segments.foldl step base

end Rollout.Path
