import MazeDial.Maze.Basic

/-!
# Passages

Two neighbouring cells with no wall between them form a passage. This module
reads passages off a maze: the open sides of a place, the number of passages,
how many cells can be reached from one, and whether all can. The search keeps
its own table of the cells it has seen, so cell flags are neither read nor
written.
-/

namespace MazeDial

namespace Maze

/-- Whether one can leave a place across a side: the place there is on the board
    and no wall is between. -/
@[inline] def isOpen (maze : Maze) (place : Coord) (side : Side) : Bool :=
  decide (maze.size.Contains (place.step side)) && !maze.wall place side

/-- The places one passage away, in the order of `Side.all`. -/
def openNeighbors (maze : Maze) (place : Coord) : List Coord :=
  (Side.all.filter fun side => maze.isOpen place side).map place.step

/-- The number of passages. Each is counted at the cell that stores its wall. -/
def openEdgeCount (maze : Maze) : Nat :=
  (maze.size.coords.map fun place => [Side.up, .left].countP (maze.isOpen place)).foldr (· + ·) 0

/-- A search for all cells that passages lead to: the table of cells seen, the
    cells seen whose neighbours have not been looked at, in the order seen, and how
    many others there are. -/
structure Search (size : Size) where
  seen : Vector Bool size.area
  waiting : List Coord
  reached : Nat

/-- Adds a place to the search unless it has been seen or is outside the board. -/
def Search.discover {size : Size} (search : Search size) (place : Coord) : Search size :=
  if inside : size.Contains place then
    let index := size.index place
    have bounded : index < size.area := Size.index_lt inside
    if search.seen[index] then search
    else
      { search with
        seen := search.seen.set index true bounded
        waiting := search.waiting ++ [place] }
  else search

/-- Takes up to `steps` waiting cells, those that wait longest first, each time adding
    its neighbours. Every cell waits at most once, so the area is enough. -/
def Search.run (maze : Maze) : Nat → Search maze.size → Search maze.size
  | 0, search => search
  | steps + 1, search =>
    match search.waiting with
    | [] => search
    | place :: waiting =>
      let taken := { search with waiting := waiting, reached := search.reached + 1 }
      run maze steps ((maze.openNeighbors place).foldl Search.discover taken)

/-- The number of cells that passages lead to from `start`, itself included; zero
    when `start` is outside the board. -/
def reachableFrom (maze : Maze) (start : Coord) : Nat :=
  let search : Search maze.size := ⟨Vector.replicate _ false, [], 0⟩
  (Search.run maze maze.size.area (search.discover start)).reached

/-- Whether every cell can reach every other one, judged from the top-left
    corner. -/
def isConnected (maze : Maze) : Bool :=
  maze.reachableFrom ⟨0, 0⟩ == maze.size.area

end Maze

end MazeDial
