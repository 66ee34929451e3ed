import MazeDial.Dial.Scene
import MazeDial.Fault
import MazeDial.Generation.Phase
import MazeDial.Time.Duration

/-!
# Notes

What the library reports about its own work while it runs. A note is a value
that says what happened; its level and wording are derived from it.
-/

namespace MazeDial

/-- How much attention a note asks for. -/
inductive Level where
  | error
  | info
  | debug
  | trace
  deriving DecidableEq, Repr

/-- The word for a level. -/
def Level.word : Level → String
  | .error => "ERROR"
  | .info => "INFO"
  | .debug => "DEBUG"
  | .trace => "TRACE"

/-- One thing that happened. -/
inductive Note where
  /-- A maze of empty cells only was given its first cell. -/
  | rooted (root : Coord)
  /-- A path ran into the maze. -/
  | joined (start place : Coord)
  /-- Carving ran out of empty cells. -/
  | carvedOut (paths : Nat)
  /-- Carving ran out of time. -/
  | paused (paths : Nat) (cursor : Coord)
  /-- A walk could not find its way back. -/
  | cannotRetreat (place target : Coord)
  /-- Repair took out a wall around a region. -/
  | opened (side : Side) (place : Coord) (candidates : Nat)
  /-- A cycle was started over an unfinished one. -/
  | discarding (phase : Phase)
  /-- A cycle was started. -/
  | cycleStarted (placements : Nat) (reseeded : Bool)
  /-- A cycle was finished. -/
  | cycleFinished (wallsRemoved : Nat)
  /-- A cycle broke off. -/
  | cycleFailed (place target : Coord)
  /-- The dial asked for a new maze. -/
  | sceneStarted (scene : Scene) (rollover : Bool)
  /-- A swipe completed a code. -/
  | codeEntered (scene : Scene)
  /-- The dial shook for a while. -/
  | pulse (length : Duration)
  deriving DecidableEq

namespace Note

/-- The level of each note. -/
def level : Note → Level
  | .rooted .. => .debug
  | .joined .. => .trace
  | .carvedOut .. => .debug
  | .paused .. => .debug
  | .cannotRetreat .. => .error
  | .opened .. => .debug
  | .discarding .. => .debug
  | .cycleStarted .. => .info
  | .cycleFinished .. => .info
  | .cycleFailed .. => .error
  | .sceneStarted .. => .debug
  | .codeEntered .. => .info
  | .pulse .. => .debug

/-- The wording of each note. -/
def message : Note → String
  | .rooted root => s!"[carve] unseeded maze, rooting at {root.text}"
  | .joined start place => s!"[carve] path from {start.text} joined at {place.text}"
  | .carvedOut paths => s!"[carve] no empty cells left after {paths} paths"
  | .paused paths cursor =>
    s!"[carve] out of time after {paths} paths, pausing at {cursor.text}"
  | .cannotRetreat place target =>
    s!"[carve] cannot backtrack from {place.text} to {target.text}"
  | .opened side place candidates =>
    s!"[repair] region sealed off, removing {side.word} wall of {place.text} " ++
      s!"({candidates} candidates)"
  | .discarding phase => s!"[scheduler] discarding cycle in phase {phase.name}"
  | .cycleStarted placements reseeded =>
    s!"[scheduler] new cycle with {placements} seeds (reseeded: {reseeded})"
  | .cycleFinished wallsRemoved =>
    s!"[scheduler] cycle finished, repair removed {wallsRemoved} walls"
  | .cycleFailed place target =>
    s!"[scheduler] maze generation failed: {stuckMessage place target}"
  | .sceneStarted scene rollover =>
    s!"[face] starting {scene.name} cycle (rollover: {rollover})"
  | .codeEntered scene => s!"[face] code entered, showing {scene.name}"
  | .pulse length => s!"[face] haptic pulse for {length.text}"

/-- A note as one line: the level, then the message. -/
def line (note : Note) : String :=
  s!"{note.level.word} {note.message}"

end Note

end MazeDial
