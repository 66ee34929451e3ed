import MazeDial.Carving.Progress
import MazeDial.Carving.Start
import MazeDial.Carving.Walk
import MazeDial.Journal.Logged

/-!
# Slices of carving

Carving adds path after path until no cell is empty. It can be interrupted
between two paths: after each one a timer is asked whether to stop. A walk ends
only by meeting the maze, so a maze of empty cells only is first given a root.

The timer is any value with a question; asking may change it or be a fault.
-/

namespace MazeDial

/-- How a slice of carving ended. -/
inductive Outcome where
  /-- No cell is empty. -/
  | done
  /-- The timer said to stop. -/
  | paused
  /-- A walk that returned to `target` got no further than `place`. -/
  | stuck (place target : Coord)
  deriving DecidableEq

/-- What a slice of carving leaves behind. -/
structure Slice (σ τ : Type) where
  outcome : Outcome
  maze : Maze
  source : σ
  progress : Progress
  timer : τ

variable {σ τ : Type} [RandomSource σ]

/-- Gives a maze of empty cells only its first cell. -/
def plantRoot (maze : Maze) (source : σ) : Logged (Maze × σ) :=
  if maze.size.coords.all fun place => (maze.get place).empty then do
    let (root, source) ← maze.chooseStart source
    match root with
    | some root =>
      Logged.note (.rooted root)
      return (maze.setEmpty root false, source)
    | none => return (maze, source)
  else return (maze, source)

/-- Carves paths until the maze is done or the timer says to stop, but no more
    than the first argument of them. `paths` have been carved in this slice. -/
def carvePaths (strides : Nat) (expired : τ → Except Fault (Bool × τ)) :
    Nat → Nat → Maze → σ → Progress → τ → Logged (Slice σ τ)
  | 0, _, _, _, _, _ => Logged.fail .unfinished
  | limit + 1, paths, maze, source, progress, timer => do
    let (start, source) ← maze.chooseStart source
    match start with
    | none =>
      Logged.note (.carvedOut paths)
      return ⟨.done, maze, source, { progress with paused := false }, timer⟩
    | some start =>
      let path ← carvePath strides maze source start
      let progress := { progress with cursor := path.cursor, previous := some path.previous }
      match path.ending with
      | .stuck place =>
        Logged.note (.cannotRetreat place path.cursor)
        return ⟨.stuck place path.cursor, path.maze, path.source, progress, timer⟩
      | .joined =>
        Logged.note (.joined start path.cursor)
        let maze := path.maze.clearVisited
        let (stop, timer) ← expired timer
        if stop then
          Logged.note (.paused (paths + 1) path.cursor)
          return ⟨.paused, maze, path.source, { progress with paused := true }, timer⟩
        else
          carvePaths strides expired limit (paths + 1) maze path.source progress timer

/-- More directions and paths than any run in practice gets to. -/
def ampleEffort : Nat := 1 <<< 62

/-- One slice of carving. No path takes more than `effort` directions, and no
    more than `effort` paths are carved. -/
def carve (effort : Nat) (expired : τ → Except Fault (Bool × τ)) (maze : Maze) (source : σ)
    (progress : Progress) (timer : τ) : Logged (Slice σ τ) := do
  let (maze, source) ← plantRoot maze source
  carvePaths effort expired effort 0 maze source progress timer

end MazeDial
