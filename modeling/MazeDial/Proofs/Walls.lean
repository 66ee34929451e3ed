import MazeDial.Maze.Passage
import MazeDial.Proofs.Board
import Mathlib.Data.Sym.Sym2

/-!
# Walls between places

Each wall is stored once and read from both sides. Here a wall is named by the
unordered pair of the places it stands between, and every reading and writing of
walls is described by that pair: two readings agree when their pairs do, and a
wall written is seen by the readings of its pair and by no others. Cell flags
and walls never disturb each other.

The pair of a wall on the board's edge has a place outside the board in it. Such
walls are stored and written like all others; that they never open a way out is
said by the passages, which lead to places of the board only.
-/

namespace MazeDial

/-- The side of its keeper that a wall is on. -/
def Side.kept : Side → Side
  | .up => .up
  | .left => .left
  | .down => .up
  | .right => .left

/-- A wall joins its keeper to the place across the keeper's side. -/
theorem pair_eq_kept {size : Size} {place : Coord} {side : Side}
    (kept : size.Contains (place.keeper side)) :
    s(place, place.step side) = s(place.keeper side, (place.keeper side).step side.kept) := by
  cases side with
  | up => rfl
  | left => rfl
  | down =>
    have back : (place.step .down).step .up = place := step_opposite kept
    simp only [Coord.keeper, Side.kept, back]
    exact Sym2.eq_swap
  | right =>
    have back : (place.step .right).step .left = place := step_opposite kept
    simp only [Coord.keeper, Side.kept, back]
    exact Sym2.eq_swap

/-- Two sides are read from one wall exactly if they join the same two places. -/
theorem same_wall_iff {size : Size} {place other : Coord} {side otherSide : Side}
    (kept : size.Contains (place.keeper side)) :
    other.keeper otherSide = place.keeper side ∧ otherSide.kept = side.kept ↔
      s(other, other.step otherSide) = s(place, place.step side) := by
  have inside : size.Contains place := contains_of_keeper kept
  constructor
  · rintro ⟨sameKeeper, sameSide⟩
    rw [pair_eq_kept kept, pair_eq_kept (sameKeeper ▸ kept), sameKeeper, sameSide]
  · intro same
    rcases Sym2.eq_iff.mp same with ⟨samePlace, sameStep⟩ | ⟨swapped, back⟩
    · subst samePlace
      obtain rfl : otherSide = side := step_injective inside sameStep
      exact ⟨rfl, rfl⟩
    · -- The other side is the way back, and both are kept by the same of the two places.
      have returned : place.step otherSide.opposite = other := by
        have across : size.Contains (other.step otherSide) := back.symm ▸ inside
        rw [← back, step_opposite across]
      have opposite : otherSide.opposite = side :=
        step_injective inside (returned.trans swapped)
      subst opposite
      cases otherSide with
      | up => exact ⟨swapped, rfl⟩
      | left => exact ⟨swapped, rfl⟩
      | down => exact ⟨back, rfl⟩
      | right => exact ⟨back, rfl⟩

/-- Between two places of the board a wall has two sides, and no third. -/
theorem same_pair_iff {size : Size} {place other : Coord} {side otherSide : Side}
    (inside : size.Contains place) (across : size.Contains (place.step side)) :
    s(other, other.step otherSide) = s(place, place.step side) ↔
      other = place ∧ otherSide = side ∨
        other = place.step side ∧ otherSide = side.opposite := by
  have back : (place.step side).step side.opposite = place := step_opposite across
  constructor
  · intro same
    rcases Sym2.eq_iff.mp same with ⟨rfl, sameStep⟩ | ⟨rfl, home⟩
    · exact .inl ⟨rfl, step_injective inside sameStep⟩
    · exact .inr ⟨rfl, step_injective across (home.trans back.symm)⟩
  · rintro (⟨rfl, rfl⟩ | ⟨rfl, rfl⟩)
    · rfl
    · rw [back]
      exact Sym2.eq_swap

namespace Cell

/-- The wall of a cell that a side is read from. -/
def wallOf (cell : Cell) : Side → Bool
  | .up => cell.wallUp
  | .left => cell.wallLeft
  | .down => cell.wallUp
  | .right => cell.wallLeft

/-- The cell with the wall that a side is read from raised or removed. -/
def withWall (cell : Cell) (side : Side) (stands : Bool) : Cell :=
  match side with
  | .up => { cell with wallUp := stands }
  | .left => { cell with wallLeft := stands }
  | .down => { cell with wallUp := stands }
  | .right => { cell with wallLeft := stands }

@[simp] theorem empty_withWall (cell : Cell) (side : Side) (stands : Bool) :
    (cell.withWall side stands).empty = cell.empty := by
  cases side <;> rfl

@[simp] theorem visited_withWall (cell : Cell) (side : Side) (stands : Bool) :
    (cell.withWall side stands).visited = cell.visited := by
  cases side <;> rfl

/-- Of a cell's two walls, only the one written is changed. -/
theorem wallOf_withWall (cell : Cell) (written read : Side) (stands : Bool) :
    (cell.withWall written stands).wallOf read =
      if read.kept = written.kept then stands else cell.wallOf read := by
  cases written <;> cases read <;> rfl

/-- Which wall of a cell is read or written depends on its keeper's side alone. -/
theorem wallOf_kept (cell : Cell) (side : Side) : cell.wallOf side.kept = cell.wallOf side := by
  cases side <;> rfl

theorem withWall_kept (cell : Cell) (side : Side) (stands : Bool) :
    cell.withWall side.kept stands = cell.withWall side stands := by
  cases side <;> rfl

/-- A cell is told by its walls and flags. -/
theorem ext_of_walls {first second : Cell} (walls : ∀ side, first.wallOf side = second.wallOf side)
    (empty : first.empty = second.empty) (visited : first.visited = second.visited) :
    first = second := by
  have up : first.wallUp = second.wallUp := walls .up
  have left : first.wallLeft = second.wallLeft := walls .left
  cases first
  cases second
  simp_all

end Cell

namespace Maze

variable {maze : Maze}

theorem wall_eq_wallOf (maze : Maze) (place : Coord) (side : Side) :
    maze.wall place side = (maze.get (place.keeper side)).wallOf side := by
  cases side <;> rfl

theorem setWall_eq_set (maze : Maze) (place : Coord) (side : Side) (stands : Bool) :
    maze.setWall place side stands =
      maze.set (place.keeper side) ((maze.get (place.keeper side)).withWall side stands) := by
  cases side <;> rfl

/-- Two readings of the wall between the same two places agree. -/
theorem wall_eq_of_pair {place other : Coord} {side otherSide : Side}
    (kept : maze.size.Contains (place.keeper side))
    (same : s(other, other.step otherSide) = s(place, place.step side)) :
    maze.wall other otherSide = maze.wall place side := by
  obtain ⟨sameKeeper, sameSide⟩ := (same_wall_iff kept).mpr same
  rw [wall_eq_wallOf, wall_eq_wallOf, sameKeeper, ← Cell.wallOf_kept, sameSide, Cell.wallOf_kept]

/-- A wall reads the same from both sides. -/
theorem wall_opposite {place : Coord} {side : Side} (inside : maze.size.Contains place)
    (across : maze.size.Contains (place.step side)) :
    maze.wall (place.step side) side.opposite = maze.wall place side :=
  wall_eq_of_pair (contains_keeper inside across)
    ((same_pair_iff inside across).mpr (.inr ⟨rfl, rfl⟩))

/-- A wall written is seen by the readings of its pair and by no others. -/
theorem wall_setWall {place : Coord} {side : Side} (kept : maze.size.Contains (place.keeper side))
    (stands : Bool) (other : Coord) (otherSide : Side) :
    (maze.setWall place side stands).wall other otherSide =
      if s(other, other.step otherSide) = s(place, place.step side) then stands
      else maze.wall other otherSide := by
  rw [wall_eq_wallOf, setWall_eq_set, get_set]
  by_cases sameKeeper : other.keeper otherSide = place.keeper side
  · simp only [kept, sameKeeper, and_self, if_true, Cell.wallOf_withWall,
      ← same_wall_iff kept, true_and, wall_eq_wallOf]
  · simp only [sameKeeper, and_false, if_false, ← same_wall_iff kept, false_and,
      wall_eq_wallOf]

/-- A wall that is stored outside the board cannot be written. -/
theorem setWall_outside {place : Coord} {side : Side}
    (outside : ¬ maze.size.Contains (place.keeper side)) (stands : Bool) :
    maze.setWall place side stands = maze := by
  simp [setWall_eq_set, set, outside]

/-- A wall is written alike from both sides. -/
theorem setWall_opposite {place : Coord} {side : Side} (inside : maze.size.Contains place)
    (across : maze.size.Contains (place.step side)) (stands : Bool) :
    maze.setWall (place.step side) side.opposite stands = maze.setWall place side stands := by
  have samePair := (same_pair_iff inside across).mpr (.inr ⟨rfl, rfl⟩)
  obtain ⟨sameKeeper, sameSide⟩ := (same_wall_iff (contains_keeper inside across)).mpr samePair
  rw [setWall_eq_set, setWall_eq_set, sameKeeper, ← Cell.withWall_kept, sameSide,
    Cell.withWall_kept]

@[simp] theorem empty_setWall (maze : Maze) (place : Coord) (side : Side) (stands : Bool)
    (other : Coord) :
    ((maze.setWall place side stands).get other).empty = (maze.get other).empty := by
  rw [setWall_eq_set, get_set]
  split
  · next written => rw [Cell.empty_withWall, written.2]
  · rfl

@[simp] theorem visited_setWall (maze : Maze) (place : Coord) (side : Side) (stands : Bool)
    (other : Coord) :
    ((maze.setWall place side stands).get other).visited = (maze.get other).visited := by
  rw [setWall_eq_set, get_set]
  split
  · next written => rw [Cell.visited_withWall, written.2]
  · rfl

/-- Writing a cell with the walls it has changes no wall. -/
theorem wall_set_of_walls {place : Coord} {cell : Cell}
    (walls : ∀ side, cell.wallOf side = (maze.get place).wallOf side) (other : Coord)
    (side : Side) : (maze.set place cell).wall other side = maze.wall other side := by
  rw [wall_eq_wallOf, wall_eq_wallOf, get_set]
  split
  · next written => rw [walls, written.2]
  · rfl

@[simp] theorem wall_setEmpty (maze : Maze) (place : Coord) (value : Bool) (other : Coord)
    (side : Side) : (maze.setEmpty place value).wall other side = maze.wall other side :=
  wall_set_of_walls (fun side => by cases side <;> rfl) other side

@[simp] theorem wall_setVisited (maze : Maze) (place : Coord) (value : Bool) (other : Coord)
    (side : Side) : (maze.setVisited place value).wall other side = maze.wall other side :=
  wall_set_of_walls (fun side => by cases side <;> rfl) other side

@[simp] theorem wall_clearVisited (maze : Maze) (place : Coord) (side : Side) :
    maze.clearVisited.wall place side = maze.wall place side := by
  rw [wall_eq_wallOf, wall_eq_wallOf, get_clearVisited]
  cases side <;> rfl

/-- Two mazes of one size with the same walls and flags answer the same everywhere. -/
theorem get_eq_of_walls {first second : Maze}
    (walls : ∀ place side, first.wall place side = second.wall place side)
    (empty : ∀ place, (first.get place).empty = (second.get place).empty)
    (visited : ∀ place, (first.get place).visited = (second.get place).visited)
    (place : Coord) : first.get place = second.get place := by
  apply Cell.ext_of_walls _ (empty place) (visited place)
  intro side
  have own : place.keeper side.kept = place := by cases side <;> rfl
  have read : first.wall place side.kept = second.wall place side.kept := walls place side.kept
  rw [wall_eq_wallOf, wall_eq_wallOf, own] at read
  cases side <;> exact read

end Maze

end MazeDial
