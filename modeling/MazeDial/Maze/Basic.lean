import MazeDial.Cell.Packed
import MazeDial.Maze.Size

/-!
# Mazes

A maze is a board of packed cells. Outside its board it behaves like a cell that
is walled in: reads answer `Cell.closed` and writes are dropped, so that every
operation is defined at every place. Walls are read and written by place and
side, whichever of the two neighbouring cells stores them.
-/

namespace MazeDial

/-- A rectangular board of cells. -/
structure Maze where
  size : Size
  cells : PackedCells size.area

namespace Maze

/-- The maze in which every wall stands and every cell is empty. -/
def fresh (size : Size) : Maze :=
  ⟨size, PackedCells.replicate _ Cell.fresh⟩

/-- The cell at a place; outside the board, `Cell.closed`. -/
@[inline] def get (maze : Maze) (place : Coord) : Cell :=
  if inside : maze.size.Contains place then
    maze.cells.get (maze.size.index place) (Size.index_lt inside)
  else Cell.closed

/-- Writes the cell at a place; outside the board, nothing happens. -/
def set (maze : Maze) (place : Coord) (cell : Cell) : Maze :=
  if inside : maze.size.Contains place then
    { maze with cells := maze.cells.set (maze.size.index place) (Size.index_lt inside) cell }
  else maze

/-- In every cell, sets the marks named by the low half of `mask` to those of
    `value`. -/
def fill (maze : Maze) (value : Cell) (mask : UInt8) : Maze :=
  { maze with cells := maze.cells.fill value mask }

/-- Raises every wall and marks every cell empty and unvisited. -/
def reset (maze : Maze) : Maze :=
  maze.fill Cell.fresh 15

/-- Clears the visited flag of every cell. -/
def clearVisited (maze : Maze) : Maze :=
  maze.fill Cell.blank 8

/-- Whether the wall on a side of a place stands. Walls below and to the right
    are read from the neighbour that stores them. -/
@[inline] def wall (maze : Maze) (place : Coord) : Side → Bool
  | .up => (maze.get place).wallUp
  | .left => (maze.get place).wallLeft
  | .down => (maze.get (place.step .down)).wallUp
  | .right => (maze.get (place.step .right)).wallLeft

/-- Raises or removes the wall above a cell. -/
def setWallUp (maze : Maze) (place : Coord) (stands : Bool) : Maze :=
  let cell := { maze.get place with wallUp := stands }
  maze.set place cell

/-- Raises or removes the wall to the left of a cell. -/
def setWallLeft (maze : Maze) (place : Coord) (stands : Bool) : Maze :=
  let cell := { maze.get place with wallLeft := stands }
  maze.set place cell

/-- Raises or removes the wall on a side of a place. Nothing happens when the
    cell that stores the wall is outside the board. -/
def setWall (maze : Maze) (place : Coord) (side : Side) (stands : Bool) : Maze :=
  match side with
  | .up => maze.setWallUp place stands
  | .left => maze.setWallLeft place stands
  | .down => maze.setWallUp (place.step .down) stands
  | .right => maze.setWallLeft (place.step .right) stands

/-- Sets or clears a cell's empty flag. -/
def setEmpty (maze : Maze) (place : Coord) (value : Bool) : Maze :=
  let cell := { maze.get place with empty := value }
  maze.set place cell

/-- Sets or clears a cell's visited flag. -/
def setVisited (maze : Maze) (place : Coord) (value : Bool) : Maze :=
  let cell := { maze.get place with visited := value }
  maze.set place cell

end Maze

end MazeDial
