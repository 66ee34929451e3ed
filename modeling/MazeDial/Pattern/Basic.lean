import MazeDial.Maze.Basic

/-!
# Patterns

A pattern says, for each cell of a rectangle, which of the cell's own two walls
stay. Two bits a cell are packed four cells to a byte, the first cell in the
highest pair, row after row without gaps. The data may be longer or shorter than
the rectangle; only reading past its end is a fault.
-/

namespace MazeDial

/-- What a pattern says about one cell. -/
structure Mark where
  keepLeft : Bool
  keepUp : Bool
  deriving DecidableEq, Repr

/-- A mark as its two bits, the left wall above the upper one. -/
def Mark.number (mark : Mark) : UInt8 :=
  (mark.keepLeft.toUInt8 <<< 1) ||| mark.keepUp.toUInt8

/-- A rectangle of marks. -/
structure Pattern where
  width : UInt8
  height : UInt8
  data : Array UInt8
  deriving DecidableEq, Repr

namespace Pattern

/-- The number of cells the pattern covers. -/
def area (pattern : Pattern) : Nat :=
  pattern.width.toNat * pattern.height.toNat

/-- The number of cells the data has marks for. -/
def covered (pattern : Pattern) : Nat :=
  pattern.data.size * 4

/-- The mark of the cell at an offset from the pattern's corner. The offset is
    not held against the pattern's size: a column past the right edge continues
    in the next row. -/
def mark (pattern : Pattern) (offset : Coord) : Except Fault Mark :=
  let position := offset.y.toNat * pattern.width.toNat + offset.x.toNat
  match pattern.data[position / 4]? with
  | none => .error (.outOfRange pattern.data.size (position / 4))
  | some byte =>
    let pair := byte.toNat >>> ((3 - position % 4) * 2)
    .ok { keepLeft := pair.testBit 1, keepUp := pair.testBit 0 }

/-- The marks of one row, from the left. -/
def row (pattern : Pattern) (y : UInt8) : Except Fault (List Mark) :=
  (List.range pattern.width.toNat).mapM fun column =>
    pattern.mark ⟨column.toUInt8, y⟩

/-- The offsets of the pattern's cells, row by row. -/
def offsets (pattern : Pattern) : List Coord :=
  (List.range pattern.height.toNat).flatMap fun row =>
    (List.range pattern.width.toNat).map fun column => ⟨column.toUInt8, row.toUInt8⟩

end Pattern

end MazeDial
