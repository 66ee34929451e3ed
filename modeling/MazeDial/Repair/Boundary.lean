import MazeDial.Maze.Passage

/-!
# Boundaries

While a flood spreads through a maze by marking cells visited, pairs of
neighbouring cells of which it has reached exactly one lie on its boundary. A
pair without a wall lets the flood go on; if every pair has one, the flood has
filled a region of its own.
-/

namespace MazeDial

/-- Where the reached part of a maze meets the rest. -/
inductive Boundary where
  /-- The flood can go on at this place. -/
  | open (place : Coord)
  /-- The flood is walled in; these are all the walls, each by a cell and its
      side. -/
  | walled (walls : List (Coord × Side))
  /-- The flood has reached everything. -/
  | none
  deriving DecidableEq

namespace Maze

/-- Whether a flood has reached exactly one of the cells on both sides of a
    cell's side. -/
def divides (maze : Maze) (place : Coord) (side : Side) : Bool :=
  decide (maze.size.Contains (place.step side)) &&
    (maze.get (place.step side)).visited != (maze.get place).visited

/-- The sides of a place that a scan of the boundary looks at. The other two are
    looked at from the neighbours there. -/
def scannedSides : List Side := [.left, .up]

/-- Whether a flood can go on across a scanned side of a place. -/
def leaks (maze : Maze) (place : Coord) : Bool :=
  scannedSides.any fun side => maze.divides place side && !maze.wall place side

/-- The pairs on the boundary, row by row, a cell's left side before its upper
    one. -/
def boundaryPairs (maze : Maze) : List (Coord × Side) :=
  maze.size.coords.flatMap fun place =>
    (scannedSides.filter (maze.divides place)).map fun side => (place, side)

/-- The boundary: the first place with a pair that has no wall, or else all the
    walls, if there are any. -/
def boundary (maze : Maze) : Boundary :=
  match maze.size.coords.find? maze.leaks with
  | some place => .open place
  | none =>
    match maze.boundaryPairs with
    | [] => .none
    | walls => .walled walls

end Maze

end MazeDial
