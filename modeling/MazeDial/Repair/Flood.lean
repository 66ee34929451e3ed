import MazeDial.Journal.Logged
import MazeDial.Random.Source
import MazeDial.Repair.Boundary

/-!
# Floods

Carving leaves regions apart that were apart when it began. They are joined by a
flood from the bottom-right corner, which marks the cells it reaches visited.
When it is walled in, a wall of its boundary, chosen at random, is taken out.
Nothing else of the maze changes: the marks are cleared at the end, and must all
be clear at the beginning.

A flood spreads in passes. Each marks the cell at the cursor and finds out where
the flood goes on: at a neighbour without a wall between, at an open place of its
boundary, or behind a wall; or that it has reached everything.
-/

namespace MazeDial

/-- What joining the regions of a maze took. -/
structure RepairReport where
  /-- The cells the flood reached. -/
  reached : Nat
  /-- The walls taken out. -/
  wallsRemoved : Nat
  deriving DecidableEq, Repr

/-- Nothing reached and nothing taken out. -/
def RepairReport.none : RepairReport := ⟨0, 0⟩

/-- The order in which a flood tries the sides of a cell. -/
def floodOrder : List Side := [.up, .right, .down, .left]

/-- The next cell that a flood can reach from a place without help. -/
def Maze.floodNext (maze : Maze) (place : Coord) : Option Coord :=
  ((floodOrder.filter (maze.isOpen place)).map place.step).find? fun next =>
    !(maze.get next).visited

/-- A flood: the maze with its marks, the source of choices, where it stands and
    what it took so far. -/
structure Flood (σ : Type) where
  maze : Maze
  source : σ
  cursor : Coord
  report : RepairReport

namespace Flood

variable {σ : Type}

/-- Marks and counts the cell at the cursor, unless the flood was there before. -/
def mark (flood : Flood σ) : Flood σ :=
  if (flood.maze.get flood.cursor).visited then flood
  else
    { flood with
      maze := flood.maze.setVisited flood.cursor true
      report := { flood.report with reached := flood.report.reached + 1 } }

/-- Where the flood goes on: near the cursor if it can, else at its boundary. -/
def frontier (flood : Flood σ) : Boundary :=
  match flood.maze.floodNext flood.cursor with
  | some next => .open next
  | none => flood.maze.boundary

variable [RandomSource σ]

/-- Takes one of the walls around the flood out, and goes on there. -/
def breach (flood : Flood σ) (walls : List (Coord × Side)) : Logged (Flood σ) := do
  let (choice, source) ← drawIndex 0 (walls.length - 1) flood.source
  match walls[choice]? with
  | none => Logged.fail (.outOfRange walls.length choice)
  | some (place, side) =>
    Logged.note (.opened side place walls.length)
    return { flood with
      maze := flood.maze.setWall place side false
      source := source
      cursor := place
      report := { flood.report with wallsRemoved := flood.report.wallsRemoved + 1 } }

/-- Passes until everything is reached, but so many at most. -/
def spread : Nat → Flood σ → Logged (Flood σ)
  | 0, _ => Logged.fail .unfinished
  | passes + 1, flood =>
    let marked := flood.mark
    match marked.frontier with
    | .open place => spread passes { marked with cursor := place }
    | .walled walls => do
      let breached ← marked.breach walls
      spread passes breached
    | .none => pure marked

end Flood

variable {σ : Type} [RandomSource σ]

/-- Makes every cell reachable from every other one. Of two passes in a row one
    reaches a new cell or is the last, which bounds the number of passes. -/
def joinRegions (maze : Maze) (source : σ) : Logged (Maze × σ × RepairReport) := do
  if maze.size.coords.any fun place => (maze.get place).visited then
    Logged.fail .alreadyVisited
  else
    let corner : Coord := ⟨maze.size.width - 1, maze.size.height - 1⟩
    let flooded ← Flood.spread (2 * maze.size.area + 1) ⟨maze, source, corner, .none⟩
    return (flooded.maze.clearVisited, flooded.source, flooded.report)

end MazeDial
