import MazeDial.Cell

/-!
# Packed cells

Cells are stored two to a byte: the cell with an even number in the high half,
its successor in the low half. With an odd number of cells the last low half is
spare and never read. The laws below are all that other modules need to know: a
cell written is the cell read, no other cell changes, and a fill acts on each
cell alone.
-/

namespace MazeDial

/-- The half of a byte that holds the cell with a number, as the low half. -/
@[inline] def halfByte (byte : UInt8) (index : Nat) : UInt8 :=
  if index % 2 = 1 then byte else byte >>> 4

/-- Writes four bits into the half of a byte that holds the cell with a number;
    the other half is kept. -/
@[inline] def writeHalf (byte : UInt8) (index : Nat) (nibble : UInt8) : UInt8 :=
  let kept : UInt8 := if index % 2 = 1 then 240 else 15
  (byte &&& kept) ||| (if index % 2 = 1 then nibble else nibble <<< 4)

/-- The byte that holds the low half of `nibble` twice. -/
def doubled (nibble : UInt8) : UInt8 :=
  let low : UInt8 := nibble &&& 15
  low ||| (low <<< 4)

/-- Sets the marks named by the low half of `mask` to those of `value` in both
    halves of a byte. -/
@[inline] def overlayHalves (byte : UInt8) (value : Cell) (mask : UInt8) : UInt8 :=
  (byte &&& ~~~doubled mask) ||| (doubled value.bits &&& doubled mask)

/-- A row of `count` cells, two to a byte. -/
structure PackedCells (count : Nat) where
  bytes : Vector UInt8 ((count + 1) / 2)

namespace PackedCells

variable {count : Nat}

/-- All cells alike. -/
def replicate (count : Nat) (cell : Cell) : PackedCells count :=
  ⟨Vector.replicate _ (doubled cell.bits)⟩

/-- The byte that holds the cell with a number. -/
@[inline] def byteOf (cells : PackedCells count) (index : Nat) (inside : index < count) : UInt8 :=
  have stored : index / 2 < (count + 1) / 2 := by omega
  cells.bytes[index / 2]

/-- The cell with a number. -/
@[inline] def get (cells : PackedCells count) (index : Nat) (inside : index < count) : Cell :=
  Cell.ofBits (halfByte (cells.byteOf index inside) index)

/-- Writes the cell with a number; the other half of its byte is kept. -/
def set (cells : PackedCells count) (index : Nat) (inside : index < count) (cell : Cell) :
    PackedCells count :=
  have stored : index / 2 < (count + 1) / 2 := by omega
  let written := writeHalf (cells.byteOf index inside) index cell.bits
  ⟨cells.bytes.set (index / 2) written stored⟩

/-- In every cell, sets the marks named by the low half of `mask` to those of
    `value`; the other marks are kept. -/
def fill (cells : PackedCells count) (value : Cell) (mask : UInt8) : PackedCells count :=
  ⟨cells.bytes.map fun byte => overlayHalves byte value mask⟩

/-- Of a byte that holds a cell twice, each half is the cell. -/
theorem ofBits_doubled (cell : Cell) (index : Nat) :
    Cell.ofBits (halfByte (doubled cell.bits) index) = cell := by
  unfold halfByte doubled
  split <;> simp [Cell.ofBits_eq, Cell.digits_bits]

/-- After a half is written, halves of its parity hold the cell and the others
    what they held before. -/
theorem ofBits_writeHalf (byte : UInt8) (cell : Cell) (index other : Nat) :
    Cell.ofBits (halfByte (writeHalf byte index cell.bits) other) =
      if index % 2 = other % 2 then cell else Cell.ofBits (halfByte byte other) := by
  rcases Nat.mod_two_eq_zero_or_one index with high | low <;>
    rcases Nat.mod_two_eq_zero_or_one other with otherHigh | otherLow <;>
    simp [halfByte, writeHalf, Cell.ofBits_eq, Cell.digits_bits, *]

/-- A digit under a mask is put where the mask is set and kept where it is not. -/
theorem masked_digit (kept put mask : Bool) :
    (kept && !mask || put && mask) = if mask then put else kept := by
  cases mask <;> simp

/-- An overlay acts on each half of a byte as it does on a cell. -/
theorem ofBits_overlayHalves (byte mask : UInt8) (value : Cell) (index : Nat) :
    Cell.ofBits (halfByte (overlayHalves byte value mask) index) =
      (Cell.ofBits (halfByte byte index)).overlay value mask := by
  unfold halfByte overlayHalves doubled
  split <;> simp [Cell.overlay, Cell.ofBits_eq, Cell.digits_bits, masked_digit]

@[simp] theorem get_replicate (cell : Cell) (index : Nat) (inside : index < count) :
    (replicate count cell).get index inside = cell := by
  simp [replicate, get, byteOf, ofBits_doubled]

@[simp] theorem get_set_self (cells : PackedCells count) (index : Nat) (inside : index < count)
    (cell : Cell) : (cells.set index inside cell).get index inside = cell := by
  simp [set, get, byteOf, ofBits_writeHalf]

theorem get_set_of_ne (cells : PackedCells count) {index other : Nat} (inside : index < count)
    (alsoInside : other < count) (cell : Cell) (different : other ≠ index) :
    (cells.set index inside cell).get other alsoInside = cells.get other alsoInside := by
  by_cases shared : index / 2 = other / 2
  · have parity : ¬ index % 2 = other % 2 := by omega
    simp [set, get, byteOf, shared, ofBits_writeHalf, parity]
  · simp [set, get, byteOf, shared]

@[simp] theorem get_fill (cells : PackedCells count) (value : Cell) (mask : UInt8)
    (index : Nat) (inside : index < count) :
    (cells.fill value mask).get index inside = (cells.get index inside).overlay value mask := by
  simp [fill, get, byteOf, ofBits_overlayHalves]

end PackedCells

end MazeDial
