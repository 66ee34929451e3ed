import MazeDial.Fault

/-!
# Maze sizes

A maze is at least two cells wide and high, and no wider or higher than 254, so
that the byte 255 names no column and no row of any maze. The bounds are part of
the type: a size that exists is a size some maze has.
-/

namespace MazeDial

/-- The width and height of a maze. -/
structure Size where
  width : UInt8
  height : UInt8
  width_bounds : 2 ≤ width ∧ width < 255 := by decide
  height_bounds : 2 ≤ height ∧ height < 255 := by decide
  deriving DecidableEq

namespace Size

/-- The size with two dimensions, or the fault that they are out of bounds. -/
def ofDimensions (width height : UInt8) : Except Fault Size :=
  if width_bounds : 2 ≤ width ∧ width < 255 then
    if height_bounds : 2 ≤ height ∧ height < 255 then
      .ok ⟨width, height, width_bounds, height_bounds⟩
    else .error (.dimensions width height)
  else .error (.dimensions width height)

/-- The size of the dial's maze. -/
def dial : Size where
  width := 24
  height := 24

/-- The number of cells. -/
def area (size : Size) : Nat :=
  size.width.toNat * size.height.toNat

/-- The places on the board of this size. -/
def Contains (size : Size) (place : Coord) : Prop :=
  place.x < size.width ∧ place.y < size.height

@[inline] instance (size : Size) (place : Coord) : Decidable (size.Contains place) :=
  inferInstanceAs (Decidable (_ ∧ _))

/-- The number of a place, counting row by row. -/
@[inline] def index (size : Size) (place : Coord) : Nat :=
  place.y.toNat * size.width.toNat + place.x.toNat

/-- Places of the board have numbers below the area. -/
theorem index_lt {size : Size} {place : Coord} (inside : size.Contains place) :
    size.index place < size.area := by
  obtain ⟨column, row⟩ := inside
  have column : place.x.toNat < size.width.toNat := column
  have row : place.y.toNat + 1 ≤ size.height.toNat := row
  have rows := Nat.mul_le_mul_right size.width.toNat row
  rw [Nat.add_mul, Nat.one_mul] at rows
  rw [area, Nat.mul_comm size.width.toNat]
  unfold index
  omega

/-- Every place of the board once, row by row from the top-left corner. -/
def coords (size : Size) : List Coord :=
  (List.range size.height.toNat).flatMap fun row =>
    (List.range size.width.toNat).map fun column => ⟨column.toUInt8, row.toUInt8⟩

end Size

end MazeDial
