import MazeDial.Maze.Access

/-!
# Mazes as plain tables

A maze packs its cells two to a byte and counts them row by row. Here it is put beside a
table that does neither: rows of columns, each entry four binary digits, with natural
numbers for columns and rows, so that nothing wraps around or stops at 255. Every change
of a maze is written down again for the table, by its effect on digits.

One change leaves maze and table in agreement, and so does any sequence of them. What
carries this are the laws of reading after writing, which mention no bytes, and what the
marks of a cell are as digits.
-/

namespace MazeDial

/-- The marks of a cell as binary digits, the wall above first. -/
def Cell.marks (cell : Cell) : BitVec 4 :=
  cell.bits.toBitVec.setWidth 4

/-- The digits named by `mask`, raised or cleared. -/
def raised (digits mask : BitVec 4) (value : Bool) : BitVec 4 :=
  if value then digits ||| mask else digits &&& ~~~mask

/-- The digits named by `mask` taken from `value`. -/
def overlaid (digits value mask : BitVec 4) : BitVec 4 :=
  (digits &&& ~~~mask) ||| (value &&& mask)

/-- The digits of a cell say what its number says. -/
theorem Cell.toNat_marks (cell : Cell) : cell.marks.toNat = cell.bits.toNat := by
  obtain ⟨up, left, empty, visited⟩ := cell
  revert up left empty visited
  decide

/-- Each mark of a cell is the digit of its place. -/
theorem Cell.getElem_marks (cell : Cell) :
    cell.marks[0] = cell.wallUp ∧ cell.marks[1] = cell.wallLeft ∧
      cell.marks[2] = cell.empty ∧ cell.marks[3] = cell.visited := by
  obtain ⟨up, left, empty, visited⟩ := cell
  revert up left empty visited
  decide

/-- Writing one mark raises or clears its digit. -/
theorem Cell.marks_write (cell : Cell) (value : Bool) :
    { cell with wallUp := value }.marks = raised cell.marks 1 value ∧
      { cell with wallLeft := value }.marks = raised cell.marks 2 value ∧
      { cell with empty := value }.marks = raised cell.marks 4 value ∧
      { cell with visited := value }.marks = raised cell.marks 8 value := by
  obtain ⟨up, left, empty, visited⟩ := cell
  revert up left empty visited value
  decide

/-- A number with a mark raised or cleared. -/
def remarked (number mark : UInt8) (value : Bool) : UInt8 :=
  if value then number ||| mark else number &&& ~~~mark

/-- What a cell becomes when one of its marks is written, beside the number of that mark. -/
def Cell.writes (cell : Cell) (value : Bool) : List (UInt8 × Cell) :=
  [(1, { cell with wallUp := value }), (2, { cell with wallLeft := value }),
    (4, { cell with empty := value }), (8, { cell with visited := value })]

/-- Writing one mark raises or clears it in the number of the cell, and no bit above it. -/
theorem Cell.bits_writes (cell : Cell) (value : Bool) :
    ∀ write ∈ cell.writes value, write.2.bits = remarked cell.bits write.1 value ∧
      remarked cell.bits write.1 value < 16 := by
  obtain ⟨up, left, empty, visited⟩ := cell
  revert up left empty visited value
  decide

/-- The cell with the marks of a byte has the byte's low half for its number. -/
theorem Cell.bits_ofBits (byte : UInt8) :
    (ofBits byte).bits = byte &&& 15 ∧ (ofBits byte).bits < 16 := by
  refine ⟨?_, bits_lt _⟩
  revert byte
  apply forall_byte
  decide +kernel

/-- The cell with the marks of a byte has the byte's four lowest digits. -/
theorem Cell.marks_ofBits (byte : UInt8) : (Cell.ofBits byte).marks = byte.toBitVec.setWidth 4 := by
  revert byte
  apply Cell.forall_byte
  decide +kernel

/-- An overlay of cells is one of their digits, of which a byte names the four lowest. -/
theorem Cell.marks_overlay (cell value : Cell) (mask : UInt8) :
    (cell.overlay value mask).marks =
      overlaid cell.marks value.marks (mask.toBitVec.setWidth 4) := by
  rw [← Cell.marks_ofBits]
  apply BitVec.eq_of_getElem_eq
  intro digit bounded
  have cases : digit = 0 ∨ digit = 1 ∨ digit = 2 ∨ digit = 3 := by omega
  rcases cases with rfl | rfl | rfl | rfl <;>
    simp [overlaid, Cell.getElem_marks, Cell.overlay, PackedCells.masked_digit]

/-- A table of cells, row by row, each of them four digits. -/
structure Table (width height : Nat) where
  rows : Vector (Vector (BitVec 4) width) height

namespace Table

variable {width height : Nat}

/-- All cells alike. -/
def replicate (width height : Nat) (cell : BitVec 4) : Table width height :=
  ⟨Vector.replicate height (Vector.replicate width cell)⟩

/-- The cell in a column and row; outside the table, one with both walls and no flag. -/
def read (table : Table width height) (column row : Nat) : BitVec 4 :=
  if inside : column < width ∧ row < height then
    have high : row < height := inside.2
    have wide : column < width := inside.1
    table.rows[row][column]
  else 3

/-- Writes the cell in a column and row; outside the table, nothing happens. -/
def write (table : Table width height) (column row : Nat) (cell : BitVec 4) :
    Table width height :=
  if inside : column < width ∧ row < height then
    have high : row < height := inside.2
    have wide : column < width := inside.1
    ⟨table.rows.set row (table.rows[row].set column cell)⟩
  else table

/-- Raises or clears digits of one cell. -/
def raise (table : Table width height) (column row : Nat) (mask : BitVec 4) (value : Bool) :
    Table width height :=
  table.write column row (raised (table.read column row) mask value)

/-- In every cell, sets the digits named by `mask` to those of `value`. -/
def fill (table : Table width height) (value mask : BitVec 4) : Table width height :=
  ⟨table.rows.map fun row => row.map fun cell => overlaid cell value mask⟩

theorem read_replicate (cell : BitVec 4) (column row : Nat) :
    (replicate width height cell).read column row =
      if column < width ∧ row < height then cell else 3 := by
  simp [read, replicate]

/-- A write is seen in its column and row alone. -/
theorem read_write (table : Table width height) (column row : Nat) (cell : BitVec 4)
    (otherColumn otherRow : Nat) :
    (table.write column row cell).read otherColumn otherRow =
      if (column < width ∧ row < height) ∧ otherColumn = column ∧ otherRow = row then cell
      else table.read otherColumn otherRow := by
  by_cases inside : column < width ∧ row < height
  · by_cases within : otherColumn < width ∧ otherRow < height
    · by_cases sameRow : row = otherRow
      · subst sameRow
        by_cases sameColumn : column = otherColumn
        · simp [write, read, inside, within, sameColumn]
        · simp [write, read, inside, within, sameColumn, Ne.symm sameColumn]
      · simp [write, read, inside, within, sameRow, Ne.symm sameRow]
    · have apart : ¬ (otherColumn = column ∧ otherRow = row) := by
        rintro ⟨rfl, rfl⟩
        exact within inside
      simp [read, within, apart]
  · simp [write, inside]

theorem write_outside {table : Table width height} {column row : Nat}
    (outside : ¬ (column < width ∧ row < height)) (cell : BitVec 4) :
    table.write column row cell = table := by
  rw [write, dif_neg outside]

/-- A fill is seen in every column and row of the table. -/
theorem read_fill (table : Table width height) (value mask : BitVec 4) (column row : Nat) :
    (table.fill value mask).read column row =
      if column < width ∧ row < height then overlaid (table.read column row) value mask
      else 3 := by
  by_cases inside : column < width ∧ row < height <;> simp [fill, read, inside]

end Table

/-- One change of the cells of a maze. -/
inductive Change where
  | set (place : Coord) (cell : Cell)
  | fill (value : Cell) (mask : UInt8)
  | reset
  | clearVisited
  | setWall (place : Coord) (side : Side) (stands : Bool)
  | setEmpty (place : Coord) (value : Bool)
  | setVisited (place : Coord) (value : Bool)

/-- Makes a change. -/
def Maze.change (maze : Maze) : Change → Maze
  | .set place cell => maze.set place cell
  | .fill value mask => maze.fill value mask
  | .reset => maze.reset
  | .clearVisited => maze.clearVisited
  | .setWall place side stands => maze.setWall place side stands
  | .setEmpty place value => maze.setEmpty place value
  | .setVisited place value => maze.setVisited place value

/-- Makes the same change on a table. The walls below and to the right of a cell are those above
    and to the left of the next one. -/
def Table.change {width height : Nat} (table : Table width height) : Change → Table width height
  | .set place cell => table.write place.x.toNat place.y.toNat cell.marks
  | .fill value mask => table.fill value.marks (mask.toBitVec.setWidth 4)
  | .reset => table.fill 7 15
  | .clearVisited => table.fill 0 8
  | .setWall place .up stands => table.raise place.x.toNat place.y.toNat 1 stands
  | .setWall place .left stands => table.raise place.x.toNat place.y.toNat 2 stands
  | .setWall place .down stands => table.raise place.x.toNat (place.y.toNat + 1) 1 stands
  | .setWall place .right stands => table.raise (place.x.toNat + 1) place.y.toNat 2 stands
  | .setEmpty place value => table.raise place.x.toNat place.y.toNat 4 value
  | .setVisited place value => table.raise place.x.toNat place.y.toNat 8 value

section Agreement

variable {size : Size} {maze : Maze} {table : Table size.width.toNat size.height.toNat}
  {place : Coord} {column row : Nat}

theorem Size.contains_iff_lt :
    size.Contains place ↔ place.x.toNat < size.width.toNat ∧ place.y.toNat < size.height.toNat :=
  Iff.rfl

/-- A place names the cell in a column and row, or neither is on the board. -/
def Names (size : Size) (place : Coord) (column row : Nat) : Prop :=
  place.x.toNat = column ∧ place.y.toNat = row ∨
    ¬ size.Contains place ∧ ¬ (column < size.width.toNat ∧ row < size.height.toNat)

theorem names_self (size : Size) (place : Coord) :
    Names size place place.x.toNat place.y.toNat :=
  .inl ⟨rfl, rfl⟩

/-- A byte that is raised by one stops at 255, where no board has a column or row. -/
theorem toNat_next (byte : UInt8) :
    (if byte = 255 then 255 else byte + 1 : UInt8).toNat = byte.toNat + 1 ∨
      byte = 255 := by
  revert byte
  apply Cell.forall_byte
  decide +kernel

/-- The place below a cell names the cell in the next row, and the place to the right the cell in
    the next column. -/
theorem names_next (size : Size) (place : Coord) :
    Names size (place.step .down) place.x.toNat (place.y.toNat + 1) ∧
      Names size (place.step .right) (place.x.toNat + 1) place.y.toNat := by
  have narrow : size.width.toNat < 255 := size.width_bounds.2
  have low : size.height.toNat < 255 := size.height_bounds.2
  -- From 255 the step of the maze goes nowhere and that of the table goes on to 256.
  constructor
  · rcases toNat_next place.y with next | last
    · exact .inl ⟨rfl, next⟩
    · refine .inr ?_
      simp only [Size.contains_iff_lt, Coord.step, last, if_true, UInt8.reduceToNat]
      omega
  · rcases toNat_next place.x with next | last
    · exact .inl ⟨next, rfl⟩
    · refine .inr ?_
      simp only [Size.contains_iff_lt, Coord.step, last, if_true, UInt8.reduceToNat]
      omega

/-- A maze and a table of its size answer alike at every place, on the board or not. -/
structure Agree (size : Size) (maze : Maze) (table : Table size.width.toNat size.height.toNat) :
    Prop where
  size_eq : maze.size = size
  marks_eq : ∀ place, (maze.get place).marks = table.read place.x.toNat place.y.toNat

namespace Agree

/-- Whatever names a cell, the same marks are read. -/
theorem marks_eq_of_names (agree : Agree size maze table) (names : Names size place column row) :
    (maze.get place).marks = table.read column row := by
  rcases names with ⟨rfl, rfl⟩ | ⟨outside, beyond⟩
  · exact agree.marks_eq place
  · rw [Maze.get_outside (agree.size_eq.symm ▸ outside), Table.read, dif_neg beyond]
    decide

/-- In the beginning every wall stands and every cell is empty. -/
theorem fresh (size : Size) : Agree size (Maze.fresh size) (.replicate _ _ 7) where
  size_eq := rfl
  marks_eq place := by
    have start : Cell.fresh.marks = 7 ∧ Cell.closed.marks = 3 := by decide
    simp only [Maze.get_fresh, Table.read_replicate, ← Size.contains_iff_lt, apply_ite Cell.marks,
      start]

/-- A cell written in both is read in both. -/
theorem set (agree : Agree size maze table) (names : Names size place column row) (cell : Cell) :
    Agree size (maze.set place cell) (table.write column row cell.marks) where
  size_eq := (Maze.size_set ..).trans agree.size_eq
  marks_eq other := by
    rcases names with ⟨rfl, rfl⟩ | ⟨outside, beyond⟩
    · have same : other = place ↔
          other.x.toNat = place.x.toNat ∧ other.y.toNat = place.y.toNat := by
        cases other
        cases place
        simp [UInt8.toNat_inj]
      simp only [Maze.get_set, Table.read_write, ← same, agree.size_eq, apply_ite Cell.marks,
        agree.marks_eq other, ← Size.contains_iff_lt]
    · rw [Table.write_outside beyond, Maze.get_set, agree.size_eq, if_neg (outside ·.1)]
      exact agree.marks_eq other

/-- So is a cell of which some digits are raised or cleared. -/
theorem raise (agree : Agree size maze table) (names : Names size place column row) {cell : Cell}
    {mask : BitVec 4} {value : Bool}
    (marks : cell.marks = raised (maze.get place).marks mask value) :
    Agree size (maze.set place cell) (table.raise column row mask value) := by
  rw [Table.raise, ← agree.marks_eq_of_names names, ← marks]
  exact agree.set names cell

/-- What is filled in both is read in both. -/
theorem fill (agree : Agree size maze table) (value : Cell) (mask : UInt8) :
    Agree size (maze.fill value mask) (table.fill value.marks (mask.toBitVec.setWidth 4)) where
  size_eq := agree.size_eq
  marks_eq place := by
    simp only [Maze.get_fill, Table.read_fill, ← Size.contains_iff_lt, apply_ite Cell.marks,
      Cell.marks_overlay, agree.marks_eq, agree.size_eq]
    rfl

/-- One change, made in both. -/
theorem change (agree : Agree size maze table) (change : Change) :
    Agree size (maze.change change) (table.change change) := by
  cases change with
  | set place cell => exact agree.set (names_self size place) cell
  | fill value mask => exact agree.fill value mask
  | reset => exact agree.fill Cell.fresh 15
  | clearVisited => exact agree.fill Cell.blank 8
  | setWall place side stands =>
    cases side with
    | up => exact agree.raise (names_self size place) (Cell.marks_write ..).1
    | left => exact agree.raise (names_self size place) (Cell.marks_write ..).2.1
    | down => exact agree.raise (names_next size place).1 (Cell.marks_write ..).1
    | right => exact agree.raise (names_next size place).2 (Cell.marks_write ..).2.1
  | setEmpty place value => exact agree.raise (names_self size place) (Cell.marks_write ..).2.2.1
  | setVisited place value => exact agree.raise (names_self size place) (Cell.marks_write ..).2.2.2

/-- A sequence of changes, made in both. -/
theorem changes (agree : Agree size maze table) (changes : List Change) :
    Agree size (changes.foldl Maze.change maze) (changes.foldl Table.change table) := by
  induction changes generalizing maze table with
  | nil => exact agree
  | cons first rest inductionHypothesis => exact inductionHypothesis (agree.change first)

end Agree

end Agreement

/-- On a board of any size, after any changes at places on the board or not, each place holds the
    number that the table holds there after the same changes. All the while the cells of the
    board are kept in bytes that there are. A cell is made of a byte, of which it takes the low
    half, or by writing a mark, which raises or clears one of the four lowest bits of its number:
    so no number of a cell comes to 16. -/
theorem packed_cells_follow_table (size : Size) (changes : List Change) :
    let maze := changes.foldl Maze.change (Maze.fresh size)
    let table := changes.foldl Table.change
      (Table.replicate size.width.toNat size.height.toNat 7)
    maze.size = size ∧
      (∀ place, (maze.get place).bits.toNat = (table.read place.x.toNat place.y.toNat).toNat) ∧
      (∀ place, maze.size.Contains place →
        maze.size.index place / 2 < maze.cells.bytes.toArray.size) ∧
      (∀ byte, (Cell.ofBits byte).bits = byte &&& 15 ∧ (Cell.ofBits byte).bits < 16) ∧
      ∀ (cell : Cell) (value : Bool), ∀ write ∈ cell.writes value,
        write.2.bits = remarked cell.bits write.1 value ∧
          remarked cell.bits write.1 value < 16 := by
  intro maze table
  have agree : Agree size maze table := (Agree.fresh size).changes changes
  refine ⟨agree.size_eq, ?_, ?_, Cell.bits_ofBits, Cell.bits_writes⟩
  · intro place
    rw [← Cell.toNat_marks, agree.marks_eq place]
  · intro place inside
    have numbered : maze.size.index place < maze.size.area := Size.index_lt inside
    rw [Vector.size_toArray]
    omega

/-- On a board of nine cells the last one is alone in its byte. A fill reaches it, a wall removed
    beside it shows in it, and what is written outside the board is lost. -/
theorem packed_cells_follow_table_nineCells :
    let changes : List Change := [.fill Cell.blank 0xF4, .setWall ⟨1, 2⟩ .right false,
      .setWall ⟨2, 2⟩ .right false, .setVisited ⟨2, 2⟩ true, .set ⟨255, 255⟩ Cell.fresh,
      .setWall ⟨2, 255⟩ .down false]
    let maze := changes.foldl Maze.change (Maze.fresh { width := 3, height := 3 })
    (maze.get ⟨2, 2⟩).bits.toNat = 9 ∧ (maze.get ⟨1, 2⟩).bits.toNat = 3 ∧
      (maze.get ⟨255, 255⟩).bits.toNat = 3 ∧ maze.size.Contains ⟨2, 2⟩ ∧
      maze.size.index ⟨2, 2⟩ / 2 < maze.cells.bytes.toArray.size := by
  intro changes maze
  obtain ⟨size_eq, reads, stored, -⟩ :=
    packed_cells_follow_table { width := 3, height := 3 } changes
  have inside : maze.size.Contains ⟨2, 2⟩ := size_eq.symm ▸ by decide
  refine ⟨?_, ?_, ?_, inside, stored ⟨2, 2⟩ inside⟩
  · exact (reads ⟨2, 2⟩).trans (by decide +kernel)
  · exact (reads ⟨1, 2⟩).trans (by decide +kernel)
  · exact (reads ⟨255, 255⟩).trans (by decide +kernel)

end MazeDial
