import Rollout.Text.Pieces

/-!
White space and lines. A line ends at a line feed; a carriage return just before the line feed
belongs to the line break.
-/

namespace Rollout.Text

/-- Has the character the property White_Space? -/
def isBlank (c : Char) : Bool :=
  let n := c.toNat
  (0x9 ≤ n && n ≤ 0xd) || n = 0x20 || n = 0x85 || n = 0xa0 || n = 0x1680
    || (0x2000 ≤ n && n ≤ 0x200a) || n = 0x2028 || n = 0x2029 || n = 0x202f || n = 0x205f
    || n = 0x3000

/-- Drops white space at both ends. -/
def trim (cs : List Char) : List Char :=
  ((cs.dropWhile isBlank).reverse.dropWhile isBlank).reverse

def dropFinalReturn (line : List Char) : List Char :=
  if line.getLast? = some '\r' then line.dropLast else line

/-- The lines of a text; nothing follows a final line feed. -/
def lines (text : List Char) : List (List Char) :=
  let cut := pieces '\n' text
  cut.dropLast.map dropFinalReturn
    ++ match cut.getLast? with
      | none | some [] => []
      | some last => [last]

end Rollout.Text
