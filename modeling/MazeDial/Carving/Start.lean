import MazeDial.Maze.Basic
import MazeDial.Random.Source

/-!
# Choosing a start

A path starts at an empty cell. Thirty places are tried at random; when all of
them are taken, empty cells are sparse, and one is chosen by its rank among all
of them. No start is found only if no cell is empty.
-/

namespace MazeDial

variable {σ : Type} [RandomSource σ]

namespace Maze

/-- The empty cells, row by row. -/
def emptyCells (maze : Maze) : List Coord :=
  maze.size.coords.filter fun place => (maze.get place).empty

/-- How many places are tried before the empty cells are counted. -/
def startSamples : Nat := 30

/-- Tries random places until one is an empty cell: the first of them, if there
    is one among so many. -/
def sampleStart (maze : Maze) : Nat → σ → Except Fault (Option Coord × σ)
  | 0, source => .ok (none, source)
  | tries + 1, source => do
    let (x, source) ← drawByte 0 (maze.size.width - 1) source
    let (y, source) ← drawByte 0 (maze.size.height - 1) source
    if (maze.get ⟨x, y⟩).empty then
      return (some ⟨x, y⟩, source)
    maze.sampleStart tries source

/-- Chooses an empty cell; none if there is none. -/
def chooseStart (maze : Maze) (source : σ) : Except Fault (Option Coord × σ) := do
  let (sample, source) ← maze.sampleStart startSamples source
  if let some place := sample then
    return (some place, source)
  let places := maze.emptyCells
  if places.isEmpty then
    return (none, source)
  let (rank, source) ← drawIndex 1 places.length source
  return (places[rank - 1]?, source)

end Maze

end MazeDial
