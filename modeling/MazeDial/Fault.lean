import MazeDial.Coord

/-!
# Faults

Everything that can stop an operation, one constructor for each cause, and the
wording of each. Only `unfinished` is no refusal of its own: it says that a
search was given too few steps, and no run with enough steps ends in it.
-/

namespace MazeDial

/-- Why an operation stopped without an answer. -/
inductive Fault where
  /-- A maze was asked for that is too small or too large to exist. -/
  | dimensions (width height : UInt8)
  /-- A pattern would stick out of the maze it is stamped into. -/
  | misfit (patternWidth patternHeight : UInt8) (origin : Coord) (width height : UInt8)
  /-- A pattern has data for fewer cells than it covers. -/
  | shortPattern (covered : Nat) (width height : UInt8)
  /-- A table was read past its end. -/
  | outOfRange (length index : Nat)
  /-- A number was asked for between bounds that leave no choice. -/
  | emptyRange
  /-- Repair was asked for while a cell still carries the visited flag. -/
  | alreadyVisited
  /-- A sum of two times is larger than the largest time. -/
  | timeOverflow
  /-- A share of a time came out below zero. -/
  | negativeTime
  /-- A share of a time came out too large, or is no number. -/
  | timeTooLong
  /-- A carving walk could not find its way back. -/
  | generationFailed (place target : Coord)
  /-- The number of steps allowed to a search did not suffice. -/
  | unfinished
  deriving DecidableEq, Repr

/-- The message about a walk that could not find its way back to a target. -/
def stuckMessage (place target : Coord) : String :=
  s!"loop erasure stuck at {place.text} while backtracking to {target.text}"

/-- The wording of each fault. -/
def Fault.message : Fault → String
  | .dimensions width height =>
    s!"Maze dimensions must be between 2 and 254 (got {width}x{height})"
  | .misfit patternWidth patternHeight origin width height =>
    s!"Seed of {patternWidth}x{patternHeight} at {origin.text} " ++
      s!"does not fit in a {width}x{height} maze"
  | .shortPattern covered width height =>
    s!"Seed data covers {covered} cells but the pattern is {width}x{height}"
  | .outOfRange length index =>
    s!"index out of bounds: the len is {length} but the index is {index}"
  | .emptyRange => "cannot sample empty range"
  | .alreadyVisited =>
    "assertion failed: maze.coords().all(|coord| !maze.get(coord).is_visited())"
  | .timeOverflow => "overflow when adding durations"
  | .negativeTime => "cannot convert float seconds to Duration: value is negative"
  | .timeTooLong =>
    "cannot convert float seconds to Duration: value is either too big or NaN"
  | .generationFailed place target =>
    s!"maze generation failed: {stuckMessage place target}"
  | .unfinished => "stopped before the search came to an end"

end MazeDial
