/-!
# Places and sides

A maze lives on a board whose columns and rows are bytes. This module holds the
places of that board, the four sides of a place, and the step across a side. A
step is total: it answers a place for every place, on the board of some maze or
not. Whether a place belongs to a given maze is decided by the maze's size, not
here.
-/

namespace MazeDial

/-- A place, by column and row, both counted from the top-left corner. -/
structure Coord where
  x : UInt8
  y : UInt8
  deriving DecidableEq, Repr, Inhabited

/-- Places are written as a pair: column first, row second. -/
def Coord.text (place : Coord) : String :=
  s!"({place.x}, {place.y})"

/-- The four sides of a place, in the order in which a carving walk numbers
    its directions. -/
inductive Side where
  | up
  | left
  | down
  | right
  deriving DecidableEq, Repr

namespace Side

/-- Every side once, in the numbering's order. -/
def all : List Side := [.up, .left, .down, .right]

/-- The side with a number. Only the number's remainder by four counts, so each
    byte names a side. -/
def ofIndex (index : UInt8) : Side :=
  match index.toNat % 4 with
  | 0 => .up
  | 1 => .left
  | 2 => .down
  | _ => .right

/-- The side that leads back. -/
def opposite : Side → Side
  | .up => .down
  | .left => .right
  | .down => .up
  | .right => .left

/-- The word for a side in messages. -/
def word : Side → String
  | .up => "up"
  | .left => "left"
  | .down => "down"
  | .right => "right"

/-- The proper name of a side. -/
def name : Side → String
  | .up => "Up"
  | .left => "Left"
  | .down => "Down"
  | .right => "Right"

theorem mem_all (side : Side) : side ∈ all := by
  cases side <;> decide

@[simp] theorem opposite_opposite (side : Side) : side.opposite.opposite = side := by
  cases side <;> rfl

end Side

/-- The place across a side. Up and left wrap around at the first row and column
    to 255, which lies inside no maze; down and right stop at 255. -/
def Coord.step (place : Coord) : Side → Coord
  | .up => { place with y := place.y - 1 }
  | .left => { place with x := place.x - 1 }
  | .down => { place with y := if place.y = 255 then 255 else place.y + 1 }
  | .right => { place with x := if place.x = 255 then 255 else place.x + 1 }

end MazeDial
