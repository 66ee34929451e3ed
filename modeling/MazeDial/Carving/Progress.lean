import MazeDial.Coord
import MazeDial.Time.Duration

/-!
# Progress

What carving remembers between two slices. Only the pause is of consequence to
others; the places are kept to be looked at, and a new slice starts a new path.
-/

namespace MazeDial

/-- How far carving has come. -/
structure Progress where
  /-- Where the walk stands. -/
  cursor : Coord
  /-- Where it stood before its last move, if it has moved. -/
  previous : Option Coord
  /-- Whether the last slice ran out of time before the maze was carved. -/
  paused : Bool
  /-- When the last slice had to end. -/
  deadline : Duration
  deriving DecidableEq

/-- Before the first slice. -/
def Progress.initial : Progress where
  cursor := ⟨0, 0⟩
  previous := none
  paused := false
  deadline := .zero

end MazeDial
