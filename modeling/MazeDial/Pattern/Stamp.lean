import MazeDial.Pattern.Basic

/-!
# Stamping

Stamping takes out the walls that a pattern does not keep. Every wall taken out
also makes the two cells it stood between part of the maze, by clearing their
empty flags; for a wall of the outer edge there is only one such cell. A stamp
that does not fit, or whose data is too short, is refused before anything is
written, the misfit first.
-/

namespace MazeDial

/-- The place at an offset from a corner. -/
def Coord.shift (corner offset : Coord) : Coord :=
  ⟨corner.x + offset.x, corner.y + offset.y⟩

/-- Whether a pattern with its corner at `origin` stays on the board. -/
def Pattern.Fits (pattern : Pattern) (origin : Coord) (size : Size) : Prop :=
  origin.x.toNat + pattern.width.toNat ≤ size.width.toNat ∧
    origin.y.toNat + pattern.height.toNat ≤ size.height.toNat

instance (pattern : Pattern) (origin : Coord) (size : Size) :
    Decidable (pattern.Fits origin size) :=
  inferInstanceAs (Decidable (_ ∧ _))

namespace Maze

/-- Takes out one wall and makes the cells on both sides part of the maze. -/
def knockDown (maze : Maze) (place : Coord) (side : Side) : Maze :=
  ((maze.setWall place side false).setEmpty place false).setEmpty (place.step side) false

/-- Takes out the walls of one cell that its mark does not keep. -/
def imprint (maze : Maze) (place : Coord) (mark : Mark) : Maze :=
  let maze := if mark.keepLeft then maze else maze.knockDown place .left
  if mark.keepUp then maze else maze.knockDown place .up

/-- Stamps a pattern with its top-left corner at `origin`. -/
def stamp (maze : Maze) (origin : Coord) (pattern : Pattern) : Except Fault Maze :=
  if ¬ pattern.Fits origin maze.size then
    .error (.misfit pattern.width pattern.height origin maze.size.width maze.size.height)
  else if pattern.covered < pattern.area then
    .error (.shortPattern pattern.covered pattern.width pattern.height)
  else
    pattern.offsets.foldlM (fun maze offset =>
      (pattern.mark offset).map (maze.imprint (origin.shift offset))) maze

end Maze

end MazeDial
