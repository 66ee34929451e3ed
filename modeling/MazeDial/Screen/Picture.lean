import MazeDial.Maze.Basic

/-!
# Pictures

A maze is drawn as a picture of units: one for each cell, one for each wall
between two cells or at the edge, and one for each corner where walls meet. Cells
stand in the odd columns and rows. The walls of the outer edge are drawn whatever
the cells there say, and a corner is drawn if any of the four walls that touch it
is; reads outside the board answer standing walls. Only walls are read.
-/

namespace MazeDial

namespace Maze

/-- The number of units in a row of the picture. -/
def pictureWidth (maze : Maze) : Nat := 2 * maze.size.width.toNat + 1

/-- The number of rows of the picture. -/
def pictureHeight (maze : Maze) : Nat := 2 * maze.size.height.toNat + 1

/-- Whether the wall above a place is drawn. -/
def drawsAbove (maze : Maze) (place : Coord) : Bool :=
  place.y == 0 || (maze.get place).wallUp

/-- Whether the wall to the left of a place is drawn. -/
def drawsLeft (maze : Maze) (place : Coord) : Bool :=
  place.x == 0 || (maze.get place).wallLeft

/-- Whether the corner at the top left of a place is drawn. -/
def drawsCorner (maze : Maze) (place : Coord) : Bool :=
  maze.drawsAbove place || maze.drawsAbove (place.step .left) ||
    maze.drawsLeft place || maze.drawsLeft (place.step .up)

/-- Whether the unit in a column and row of the picture is drawn. -/
def isSolid (maze : Maze) (column row : Nat) : Bool :=
  let place : Coord := ⟨(column / 2).toUInt8, (row / 2).toUInt8⟩
  if row % 2 = 0 then
    if column % 2 = 0 then maze.drawsCorner place else maze.drawsAbove place
  else
    if column % 2 = 0 then maze.drawsLeft place else false

/-- The text of a unit, two characters wide. -/
def unitText (solid : Bool) : String :=
  if solid then "██" else "  "

/-- One row of the picture as text. -/
def pictureLine (maze : Maze) (row : Nat) : String :=
  String.join ((List.range maze.pictureWidth).map fun column =>
    unitText (maze.isSolid column row))

/-- The picture as lines of text, from the top. -/
def picture (maze : Maze) : List String :=
  (List.range maze.pictureHeight).map maze.pictureLine

end Maze

end MazeDial
