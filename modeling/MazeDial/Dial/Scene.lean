/-!
# Scenes

What a dial can show.
-/

namespace MazeDial

/-- What the maze of a dial is grown around. -/
inductive Scene where
  /-- The time of day in digits. -/
  | watchFace
  /-- One short stroke at a random place. -/
  | blank
  | heart
  | smiley
  | rocket
  deriving DecidableEq, Repr

/-- The name of a scene. -/
def Scene.name : Scene → String
  | .watchFace => "WatchFace"
  | .blank => "Blank"
  | .heart => "Heart"
  | .smiley => "Smiley"
  | .rocket => "Rocket"

end MazeDial
