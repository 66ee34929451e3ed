import MazeDial.Pattern.Stamp
import MazeDial.Random.Source

/-!
# Placements

Where patterns go at the start of a cycle. A placement either names its corner or
leaves it to the random source, within inclusive ranges of columns and rows. A
list of placements is stamped in its order.
-/

namespace MazeDial

/-- Where a pattern goes. -/
inductive Placement where
  /-- With its corner at a place. -/
  | fixed (origin : Coord) (pattern : Pattern)
  /-- With its corner drawn, the column from `left` to `right`, the row from
      `top` to `bottom`. -/
  | scattered (pattern : Pattern) (left right top bottom : UInt8)
  deriving DecidableEq

variable {σ : Type} [RandomSource σ]

/-- The corner of a placement and its pattern. A drawn column is drawn before the
    row. -/
def Placement.settle (placement : Placement) (source : σ) :
    Except Fault ((Coord × Pattern) × σ) :=
  match placement with
  | .fixed origin pattern => .ok ((origin, pattern), source)
  | .scattered pattern left right top bottom => do
    let (x, source) ← drawByte left right source
    let (y, source) ← drawByte top bottom source
    return ((⟨x, y⟩, pattern), source)

/-- Stamps one placement after another. -/
def stampAll : List Placement → Maze → σ → Except Fault (Maze × σ)
  | [], maze, source => .ok (maze, source)
  | placement :: rest, maze, source => do
    let ((origin, pattern), source) ← placement.settle source
    let maze ← maze.stamp origin pattern
    stampAll rest maze source

end MazeDial
