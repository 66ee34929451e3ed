/-!
# Cells

A maze cell carries four marks: two walls and two flags. Only the walls above
and to the left belong to a cell; the walls below and to the right belong to its
neighbours there, so that each wall of a maze is stored once. The four marks are
read and written as the low half of a byte.
-/

namespace MazeDial

/-- One cell: its own two walls, whether carving has not yet reached it, and
    whether the pass now running has. -/
structure Cell where
  wallUp : Bool
  wallLeft : Bool
  empty : Bool
  visited : Bool
  deriving DecidableEq, Repr, Inhabited

namespace Cell

/-- What a read outside a maze answers: both walls stand, no flag is set. -/
def closed : Cell := ⟨true, true, false, false⟩

/-- Every cell at the start of a cycle: both walls stand and the cell is empty. -/
def fresh : Cell := ⟨true, true, true, false⟩

/-- A cell without walls and without flags. -/
def blank : Cell := ⟨false, false, false, false⟩

/-- The four marks as a number: wall above 1, wall to the left 2, empty 4,
    visited 8. -/
def bits (cell : Cell) : UInt8 :=
  cell.wallUp.toUInt8 ||| (cell.wallLeft.toUInt8 <<< 1) |||
    (cell.empty.toUInt8 <<< 2) ||| (cell.visited.toUInt8 <<< 3)

/-- The cell with the marks of a byte's low half; the high half is ignored. -/
@[inline] def ofBits (byte : UInt8) : Cell where
  wallUp := byte &&& 1 != 0
  wallLeft := byte &&& 2 != 0
  empty := byte &&& 4 != 0
  visited := byte &&& 8 != 0

/-- The cell with the marks named by the low half of `mask` taken from `value`. -/
def overlay (cell value : Cell) (mask : UInt8) : Cell :=
  let chosen := ofBits mask
  { wallUp := if chosen.wallUp then value.wallUp else cell.wallUp
    wallLeft := if chosen.wallLeft then value.wallLeft else cell.wallLeft
    empty := if chosen.empty then value.empty else cell.empty
    visited := if chosen.visited then value.visited else cell.visited }

/-- The four marks in words, each with its value. -/
def text (cell : Cell) : String :=
  s!"Cell \x7b up: {cell.wallUp}, left: {cell.wallLeft}, " ++
    s!"empty: {cell.empty}, visited: {cell.visited} \x7d"

/-- What holds of the 256 numbers holds of every byte. -/
theorem forall_byte {statement : UInt8 → Prop}
    (numbers : ∀ number : Fin 256, statement (UInt8.ofFin number)) (byte : UInt8) :
    statement byte :=
  numbers byte.toFin

/-- The marks of a byte are its four lowest binary digits. -/
theorem ofBits_eq (byte : UInt8) :
    ofBits byte = ⟨byte.toBitVec.getLsbD 0, byte.toBitVec.getLsbD 1, byte.toBitVec.getLsbD 2,
      byte.toBitVec.getLsbD 3⟩ := by
  revert byte
  apply forall_byte
  decide +kernel

/-- A cell's number is read back as the cell. -/
@[simp] theorem ofBits_bits (cell : Cell) : ofBits cell.bits = cell := by
  obtain ⟨up, left, empty, visited⟩ := cell
  revert up left empty visited
  decide

/-- The digits of a cell's number are its marks, and no others. -/
theorem digits_bits (cell : Cell) :
    cell.bits.toBitVec[0] = cell.wallUp ∧ cell.bits.toBitVec[1] = cell.wallLeft ∧
      cell.bits.toBitVec[2] = cell.empty ∧ cell.bits.toBitVec[3] = cell.visited ∧
      cell.bits.toBitVec[4] = false ∧ cell.bits.toBitVec[5] = false ∧
      cell.bits.toBitVec[6] = false ∧ cell.bits.toBitVec[7] = false := by
  obtain ⟨up, left, empty, visited⟩ := cell
  revert up left empty visited
  decide

/-- A cell's number uses the low half of a byte only. -/
theorem bits_lt (cell : Cell) : cell.bits < 16 := by
  obtain ⟨up, left, empty, visited⟩ := cell
  revert up left empty visited
  decide

end Cell

end MazeDial
