import MazeDial.Maze.Basic

/-!
# Reading after writing

What a maze answers after each way of changing it. These are the laws by which
everything else about mazes is reasoned: a write is seen at its place alone, and
only if the place is on the board; a fill is seen at every place of the board;
no operation changes the size. No law mentions how cells are stored.
-/

namespace MazeDial

namespace Size

/-- A place of the board is told by its number. -/
theorem index_injective {size : Size} {first second : Coord} (firstInside : size.Contains first)
    (secondInside : size.Contains second) (same : size.index first = size.index second) :
    first = second := by
  have firstColumn : first.x.toNat < size.width.toNat := firstInside.1
  have secondColumn : second.x.toNat < size.width.toNat := secondInside.1
  have quotients := congrArg (· / size.width.toNat) same
  have remainders := congrArg (· % size.width.toNat) same
  simp only [index] at quotients remainders
  rw [Nat.mul_comm first.y.toNat, Nat.mul_comm second.y.toNat] at quotients remainders
  rw [Nat.mul_add_mod, Nat.mul_add_mod, Nat.mod_eq_of_lt firstColumn,
    Nat.mod_eq_of_lt secondColumn] at remainders
  rw [Nat.mul_add_div (by omega), Nat.mul_add_div (by omega), Nat.div_eq_of_lt firstColumn,
    Nat.div_eq_of_lt secondColumn] at quotients
  obtain ⟨x, y⟩ := first
  obtain ⟨x', y'⟩ := second
  have sameColumn : x = x' := UInt8.toNat_inj.mp remainders
  have sameRow : y = y' := UInt8.toNat_inj.mp (by simpa using quotients)
  rw [sameColumn, sameRow]

/-- The places listed are the places of the board. -/
theorem mem_coords {size : Size} {place : Coord} :
    place ∈ size.coords ↔ size.Contains place := by
  obtain ⟨x, y⟩ := place
  simp only [coords, List.mem_flatMap, List.mem_range, List.mem_map, Coord.mk.injEq]
  constructor
  · rintro ⟨row, inRow, column, inColumn, rfl, rfl⟩
    have narrow : size.width.toNat < UInt8.size := size.width.toNat_lt
    have low : size.height.toNat < UInt8.size := size.height.toNat_lt
    constructor
    · change column.toUInt8.toNat < size.width.toNat
      rw [UInt8.toNat_ofNat_of_lt' (Nat.lt_trans inColumn narrow)]
      exact inColumn
    · change row.toUInt8.toNat < size.height.toNat
      rw [UInt8.toNat_ofNat_of_lt' (Nat.lt_trans inRow low)]
      exact inRow
  · rintro ⟨inColumn, inRow⟩
    exact ⟨y.toNat, inRow, x.toNat, inColumn, by simp, by simp⟩

end Size

namespace Maze

@[simp] theorem size_fresh (size : Size) : (fresh size).size = size := rfl

@[simp] theorem size_set (maze : Maze) (place : Coord) (cell : Cell) :
    (maze.set place cell).size = maze.size := by
  unfold set
  split <;> rfl

@[simp] theorem size_fill (maze : Maze) (value : Cell) (mask : UInt8) :
    (maze.fill value mask).size = maze.size := rfl

@[simp] theorem size_reset (maze : Maze) : maze.reset.size = maze.size := rfl

@[simp] theorem size_clearVisited (maze : Maze) : maze.clearVisited.size = maze.size := rfl

@[simp] theorem size_setWall (maze : Maze) (place : Coord) (side : Side) (stands : Bool) :
    (maze.setWall place side stands).size = maze.size := by
  cases side <;> simp [setWall, setWallUp, setWallLeft]

@[simp] theorem size_setEmpty (maze : Maze) (place : Coord) (value : Bool) :
    (maze.setEmpty place value).size = maze.size := by
  simp [setEmpty]

@[simp] theorem size_setVisited (maze : Maze) (place : Coord) (value : Bool) :
    (maze.setVisited place value).size = maze.size := by
  simp [setVisited]

/-- Outside the board every read answers a cell that is walled in. -/
theorem get_outside {maze : Maze} {place : Coord} (outside : ¬ maze.size.Contains place) :
    maze.get place = Cell.closed := by
  simp [get, outside]

theorem get_fresh (size : Size) (place : Coord) :
    (fresh size).get place = if size.Contains place then Cell.fresh else Cell.closed := by
  simp [get, fresh]

theorem set_inside {maze : Maze} {place : Coord} (inside : maze.size.Contains place)
    (cell : Cell) :
    maze.set place cell =
      ⟨maze.size, maze.cells.set (maze.size.index place) (Size.index_lt inside) cell⟩ := by
  simp [set, inside]

/-- A write is seen at its place alone. -/
theorem get_set (maze : Maze) (written read : Coord) (cell : Cell) :
    (maze.set written cell).get read =
      if maze.size.Contains written ∧ read = written then cell else maze.get read := by
  by_cases inside : maze.size.Contains written
  · rw [set_inside inside]
    by_cases same : read = written
    · subst same
      simp [get, inside]
    · by_cases readInside : maze.size.Contains read
      · have different : maze.size.index read ≠ maze.size.index written :=
          fun equal => same (Size.index_injective readInside inside equal)
        simp [get, readInside, same, PackedCells.get_set_of_ne _ _ _ _ different]
      · simp [get, readInside, same]
  · simp [set, inside]

/-- A fill is seen at every place of the board. -/
theorem get_fill (maze : Maze) (value : Cell) (mask : UInt8) (place : Coord) :
    (maze.fill value mask).get place =
      if maze.size.Contains place then (maze.get place).overlay value mask else Cell.closed := by
  by_cases inside : maze.size.Contains place <;> simp [fill, get, inside]

/-- Clearing the visited flags changes nothing else. -/
theorem get_clearVisited (maze : Maze) (place : Coord) :
    maze.clearVisited.get place = { maze.get place with visited := false } := by
  have marks : Cell.ofBits 8 = ⟨false, false, false, true⟩ := by decide
  by_cases inside : maze.size.Contains place
  · simp [clearVisited, get_fill, inside, Cell.overlay, marks, Cell.blank]
  · simp [clearVisited, inside, get_outside, Cell.closed]

end Maze

end MazeDial
