/-!
# Gestures

What a finger can do on the glass.
-/

namespace MazeDial

/-- A swipe, by the direction the finger moves. -/
inductive Swipe where
  | up
  | right
  | down
  | left
  deriving DecidableEq, Repr

/-- A touch of the glass. -/
inductive Touch where
  | tap
  | longTap
  | swipe (direction : Swipe)
  deriving DecidableEq, Repr

end MazeDial
