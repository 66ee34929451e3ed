import MazeDial.Maze.Passage
import MazeDial.Random.Source

/-!
# Loop-erased walks

A path is carved by a walk that goes in random directions through standing
walls, taking them out, until it comes to a cell of the maze. Cells of the walk
itself are marked visited. When the walk comes back to one of them it has closed
a loop; it retreats along the loop, raises the walls again and gives the cells
back, and goes on from where the loop began. What remains in the end is the walk
without its loops.

The module is written so that one direction is one `stride`. How many strides a
walk takes depends on the directions drawn, so `carvePath` is told how many it
may take.
-/

namespace MazeDial

namespace Maze

/-- Whether a walk may leave a place across a side: there is a place on the board
    and a wall in between. -/
def isBreachable (maze : Maze) (place : Coord) (side : Side) : Bool :=
  decide (maze.size.Contains (place.step side)) && maze.wall place side

/-- Takes a cell into the walk. -/
def claim (maze : Maze) (place : Coord) : Maze :=
  let cell := { maze.get place with empty := false, visited := true }
  maze.set place cell

/-- Gives a cell of the walk back. -/
def release (maze : Maze) (place : Coord) : Maze :=
  let cell := { maze.get place with empty := true, visited := false }
  maze.set place cell

/-- One step of a retreat: raises the wall on the side it leaves by and gives the
    cell back. -/
def withdraw (maze : Maze) (place : Coord) (side : Side) : Maze :=
  (maze.setWall place side true).release place

/-- How a retreat ended. -/
inductive Retreat where
  /-- At the target. -/
  | back (maze : Maze)
  /-- At a place with no open side that is not the target. -/
  | stuck (maze : Maze) (place : Coord)
  /-- With no steps left. -/
  | unfinished

/-- Walks back from a place to a target, always across the first open side,
    raising the wall behind it and releasing the cell it leaves. -/
def retreatWithin : Nat → Maze → Coord → Coord → Retreat
  | steps, maze, place, target =>
    if place = target then .back maze
    else
      match Side.all.find? (maze.isOpen place) with
      | none => .stuck maze place
      | some side =>
        match steps with
        | 0 => .unfinished
        | steps + 1 =>
          retreatWithin steps (maze.withdraw place side) (place.step side) target

/-- Walks back from a place to a target. Each step raises a wall inside the
    board, and a board has fewer than two such walls a cell. -/
def retreat (maze : Maze) (place target : Coord) : Retreat :=
  retreatWithin (2 * maze.size.area) maze place target

/-- How a walk ended. -/
inductive Ending where
  /-- It came to a cell of the maze. -/
  | joined
  /-- It could not find its way back and stood at this place. -/
  | stuck (place : Coord)
  deriving DecidableEq

/-- What a direction does to a walk. -/
inductive Stride where
  /-- The walk goes on from a place. -/
  | onward (maze : Maze) (cursor : Coord)
  /-- The walk has ended at a place. -/
  | ended (maze : Maze) (cursor : Coord) (ending : Ending)

/-- One direction of a walk. A side that cannot be breached leaves the walk as it
    is. Otherwise the walk goes there: back into itself it erases the loop, into
    an empty cell it goes on, into any other cell it ends. -/
def stride (maze : Maze) (cursor : Coord) (side : Side) : Except Fault Stride :=
  if maze.isBreachable cursor side then
    let next := cursor.step side
    if (maze.get next).visited then
      match maze.retreat cursor next with
      | .back maze => .ok (.onward (maze.claim next) next)
      | .stuck maze place => .ok (.ended maze next (.stuck place))
      | .unfinished => .error .unfinished
    else
      let maze := maze.setWall cursor side false
      if (maze.get next).empty then .ok (.onward (maze.claim next) next)
      else .ok (.ended maze next .joined)
  else .ok (.onward maze cursor)

end Maze

/-- A walk that has ended, with the source it drew its directions from. -/
structure Path (σ : Type) where
  maze : Maze
  source : σ
  /-- Where the walk stood before its last move. -/
  previous : Coord
  /-- Where it ended. -/
  cursor : Coord
  ending : Maze.Ending

variable {σ : Type} [RandomSource σ]

/-- Goes on with a walk that stands at `cursor`, for so many directions at most. -/
def walkOn : Nat → Maze → σ → Coord → Except Fault (Path σ)
  | 0, _, _, _ => .error .unfinished
  | strides + 1, maze, source, cursor =>
    match drawByte 0 3 source with
    | .error fault => .error fault
    | .ok (direction, source) =>
      match maze.stride cursor (Side.ofIndex direction) with
      | .error fault => .error fault
      | .ok (.onward maze place) => walkOn strides maze source place
      | .ok (.ended maze place ending) => .ok ⟨maze, source, cursor, place, ending⟩

/-- Carves one path from a start cell, in so many directions at most. -/
def carvePath (strides : Nat) (maze : Maze) (source : σ) (start : Coord) :
    Except Fault (Path σ) :=
  walkOn strides (maze.claim start) source start

end MazeDial
