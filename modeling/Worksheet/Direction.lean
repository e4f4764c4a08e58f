import Worksheet.Coord

/-!
# Directions

The four directions in which an arrow key moves, and the cell next to a given one. The first row and
column have no cell above or left of them, and the last ones none below or right of them.

## Main definitions

* `Direction` — up, down, left, right
* `Coord.neighbour?` — the adjacent cell, if the axis goes on
-/

namespace Worksheet

/-- The direction of an arrow key. -/
inductive Direction where
  | up
  | down
  | left
  | right
deriving DecidableEq

/-- The cell next to `c`, unless `c` is the last one in that direction. -/
def Coord.neighbour? (c : Coord) : Direction → Option Coord
  | .up => ofInt? (c.row - 1) c.col
  | .down => ofInt? (c.row + 1) c.col
  | .left => ofInt? c.row (c.col - 1)
  | .right => ofInt? c.row (c.col + 1)

end Worksheet
