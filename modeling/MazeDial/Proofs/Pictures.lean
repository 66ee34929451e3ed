import MazeDial.Proofs.Passages
import MazeDial.Screen.Picture

/-!
# What a picture tells

A picture is text, and can be read: the two characters of a unit are found where they
must be, and are blank exactly if the unit is not drawn. What is drawn depends on the
passages of the maze alone. A unit between two places is blank if a passage leads across,
and a corner is blank if all the four walls that meet there are out; no unit at the edge
is blank, because no passage leads off the board.

So a picture tells the size of a maze and all the walls between two of its cells, and
nothing else: flags are not drawn, nor are the walls that cells of the first row and
column keep towards the edge.
-/

namespace MazeDial

/-- The character that a unit is written with, twice. -/
def unitCharacter (solid : Bool) : Char :=
  if solid then '█' else ' '

theorem unitCharacter_eq_blank {solid : Bool} : unitCharacter solid = ' ' ↔ solid = false := by
  revert solid
  decide

theorem toList_unitText (solid : Bool) :
    (Maze.unitText solid).toList = [unitCharacter solid, unitCharacter solid] := by
  revert solid
  decide

/-- Of entries that are each written twice, one is found at both of its places. -/
theorem getElem?_flatMap_twice {α β : Type} (entries : List α) (write : α → β) (index : Nat)
    {half : Nat} (isHalf : half < 2) :
    (entries.flatMap fun entry => [write entry, write entry])[2 * index + half]? =
      entries[index]?.map write := by
  induction entries generalizing index with
  | nil => rfl
  | cons entry rest inductionHypothesis =>
    cases index with
    | zero =>
      obtain rfl | rfl : half = 0 ∨ half = 1 := by omega
      · rfl
      · rfl
    | succ index =>
      have further : 2 * (index + 1) + half = 2 * index + half + 2 := by omega
      rw [further, List.flatMap_cons]
      exact inductionHypothesis index

/-- The unit in a column and row of some lines of text is blank. -/
def BlankAt (lines : List String) (column row : Nat) : Prop :=
  ∃ line, lines[row]? = some line ∧ line.toList[2 * column]? = some ' ' ∧
    line.toList[2 * column + 1]? = some ' '

namespace Size

/-- Sizes with the same dimensions are the same. -/
theorem eq_of_dimensions {first second : Size} (width : first.width = second.width)
    (height : first.height = second.height) : first = second := by
  obtain ⟨_, _, _, _⟩ := first
  obtain ⟨_, _, _, _⟩ := second
  cases width
  cases height
  rfl

/-- Within the board, steps up lead from all rows but the first, and steps to the left from all
    columns but the first. -/
theorem contains_step_iff {size : Size} {place : Coord} (inside : size.Contains place) :
    (size.Contains (place.step .up) ↔ place.y ≠ 0) ∧
      (size.Contains (place.step .left) ↔ place.x ≠ 0) := by
  obtain ⟨x, y⟩ := place
  have narrow : size.width < 255 := size.width_bounds.2
  have low : size.height < 255 := size.height_bounds.2
  simp only [Coord.step, Size.Contains] at inside ⊢
  grind

end Size

namespace Maze

variable {maze : Maze}

/-- Each half of a unit is found where its column says. -/
theorem getElem?_pictureLine (maze : Maze) (row : Nat) {column half : Nat}
    (inLine : column < maze.pictureWidth) (isHalf : half < 2) :
    (maze.pictureLine row).toList[2 * column + half]? =
      some (unitCharacter (maze.isSolid column row)) := by
  simp only [pictureLine, String.toList_join, List.flatMap_map, toList_unitText]
  rw [getElem?_flatMap_twice (List.range maze.pictureWidth)
    (fun column => unitCharacter (maze.isSolid column row)) column isHalf,
    List.getElem?_range inLine]
  rfl

/-- A line of the picture has two characters for each unit. -/
theorem length_pictureLine (maze : Maze) (row : Nat) :
    (maze.pictureLine row).length = 2 * maze.pictureWidth := by
  have units : ∀ solid, (unitText solid).length = 2 := by decide
  simp [pictureLine, units, Function.comp_def, Nat.mul_comm]

theorem length_picture (maze : Maze) : maze.picture.length = maze.pictureHeight := by
  simp [picture]

theorem getElem?_picture {row : Nat} (inPicture : row < maze.pictureHeight) :
    maze.picture[row]? = some (maze.pictureLine row) := by
  simp [picture, inPicture]

/-- What is read as blank is a unit of the picture that is not drawn. -/
theorem blankAt_picture {column row : Nat} :
    BlankAt maze.picture column row ↔
      column < maze.pictureWidth ∧ row < maze.pictureHeight ∧ maze.isSolid column row = false := by
  constructor
  · rintro ⟨line, found, first, second⟩
    have inPicture : row < maze.pictureHeight := by
      rw [← length_picture]
      exact (List.getElem?_eq_some_iff.mp found).1
    rw [getElem?_picture inPicture] at found
    obtain rfl := Option.some.inj found
    have inLine : column < maze.pictureWidth := by
      have bounded := (List.getElem?_eq_some_iff.mp second).1
      rw [String.length_toList, length_pictureLine] at bounded
      omega
    have read := getElem?_pictureLine maze row inLine Nat.two_pos
    rw [Nat.add_zero, first] at read
    exact ⟨inLine, inPicture, unitCharacter_eq_blank.mp (Option.some.inj read).symm⟩
  · rintro ⟨inLine, inPicture, undrawn⟩
    have blank : unitCharacter (maze.isSolid column row) = ' ' := unitCharacter_eq_blank.mpr undrawn
    refine ⟨maze.pictureLine row, getElem?_picture inPicture, ?_, ?_⟩
    · exact blank ▸ getElem?_pictureLine maze row inLine Nat.two_pos
    · exact blank ▸ getElem?_pictureLine maze row inLine Nat.one_lt_two

/-- From outside the board no passage leads anywhere. -/
theorem isOpen_outside {place : Coord} (outside : ¬ maze.size.Contains place) (side : Side) :
    maze.isOpen place side = false := by
  rw [Bool.eq_false_iff]
  exact fun isOpen => outside (contains_of_isOpen isOpen)

/-- Between two cells there is a passage or a wall. -/
theorem isOpen_eq_not_wall {place : Coord} {side : Side}
    (across : maze.size.Contains (place.step side)) :
    maze.isOpen place side = !maze.wall place side := by
  simp only [isOpen, across, decide_true, Bool.true_and]

/-- The wall above a place is drawn unless a passage leads up. -/
theorem drawsAbove_eq (maze : Maze) (place : Coord) :
    maze.drawsAbove place = !maze.isOpen place .up := by
  by_cases inside : maze.size.Contains place
  · have across := (Size.contains_step_iff inside).1
    by_cases edge : place.y = 0 <;> simp [drawsAbove, isOpen, wall, across, edge]
  · simp [drawsAbove, isOpen_outside inside, get_outside inside, Cell.closed]

/-- The wall to the left of a place is drawn unless a passage leads to the left. -/
theorem drawsLeft_eq (maze : Maze) (place : Coord) :
    maze.drawsLeft place = !maze.isOpen place .left := by
  by_cases inside : maze.size.Contains place
  · have across := (Size.contains_step_iff inside).2
    by_cases edge : place.x = 0 <;> simp [drawsLeft, isOpen, wall, across, edge]
  · simp [drawsLeft, isOpen_outside inside, get_outside inside, Cell.closed]

/-- Mazes with the same passages are drawn alike. -/
theorem isSolid_congr {first second : Maze}
    (passages : ∀ place side, first.isOpen place side = second.isOpen place side)
    (column row : Nat) : first.isSolid column row = second.isSolid column row := by
  simp only [isSolid, drawsCorner, drawsAbove_eq, drawsLeft_eq, passages]

/-- Mazes of one size with the same walls between their cells have the same passages. -/
theorem isOpen_congr {first second : Maze} (sameSize : first.size = second.size)
    (walls : ∀ place side, first.size.Contains place → first.size.Contains (place.step side) →
      first.wall place side = second.wall place side) (place : Coord) (side : Side) :
    first.isOpen place side = second.isOpen place side := by
  by_cases inside : first.size.Contains place
  · by_cases across : first.size.Contains (place.step side)
    · rw [isOpen_eq_not_wall across, isOpen_eq_not_wall (sameSize ▸ across),
        walls place side inside across]
    · simp only [isOpen, ← sameSize, across, decide_false, Bool.false_and]
  · rw [isOpen_outside inside, isOpen_outside (sameSize ▸ inside)]

/-- The unit of the wall above a place of the board. -/
theorem isSolid_above (maze : Maze) (place : Coord) :
    maze.isSolid (2 * place.x.toNat + 1) (2 * place.y.toNat) = !maze.isOpen place .up := by
  have column : (2 * place.x.toNat + 1) / 2 = place.x.toNat := by omega
  simp [isSolid, column, drawsAbove_eq]

/-- The unit of the wall to the left of a place of the board. -/
theorem isSolid_left (maze : Maze) (place : Coord) :
    maze.isSolid (2 * place.x.toNat) (2 * place.y.toNat + 1) = !maze.isOpen place .left := by
  have row : (2 * place.y.toNat + 1) / 2 = place.y.toNat := by omega
  simp [isSolid, row, drawsLeft_eq]

/-- Mazes with one picture have one size: it tells its height by the number of its lines, and
    its width by the length of each. -/
theorem size_eq_of_picture_eq {first second : Maze} (same : first.picture = second.picture) :
    first.size = second.size := by
  have heights : first.pictureHeight = second.pictureHeight := by
    rw [← length_picture, ← length_picture, same]
  have top : first.picture[0]? = second.picture[0]? := by rw [same]
  rw [getElem?_picture (Nat.succ_pos _), getElem?_picture (Nat.succ_pos _)] at top
  have widths := congrArg String.length (Option.some.inj top)
  rw [length_pictureLine, length_pictureLine] at widths
  simp only [pictureHeight, pictureWidth] at heights widths
  exact Size.eq_of_dimensions (UInt8.toNat_inj.mp (by omega)) (UInt8.toNat_inj.mp (by omega))

/-- Mazes with one picture have the same units drawn. -/
theorem isSolid_eq_of_picture_eq {first second : Maze} (same : first.picture = second.picture)
    {column row : Nat} (inLine : column < first.pictureWidth) (inPicture : row < first.pictureHeight) :
    first.isSolid column row = second.isSolid column row := by
  have sameSize := size_eq_of_picture_eq same
  have inLine' : column < second.pictureWidth := by rwa [pictureWidth, ← sameSize]
  have inPicture' : row < second.pictureHeight := by rwa [pictureHeight, ← sameSize]
  have blank : BlankAt first.picture column row ↔ BlankAt second.picture column row := by rw [same]
  simp only [blankAt_picture, inLine, inPicture, inLine', inPicture', true_and] at blank
  rwa [Bool.eq_iff_iff, ← not_iff_not, Bool.not_eq_true, Bool.not_eq_true]

/-- Mazes with one picture have the same walls above and to the left of their cells. -/
theorem wall_stored_eq_of_picture_eq {first second : Maze} (same : first.picture = second.picture)
    {place : Coord} {side : Side} (stored : side = .up ∨ side = .left)
    (inside : first.size.Contains place) (across : first.size.Contains (place.step side)) :
    first.wall place side = second.wall place side := by
  have column : place.x.toNat < first.size.width.toNat := inside.1
  have row : place.y.toNat < first.size.height.toNat := inside.2
  have cellColumn : 2 * place.x.toNat + 1 < first.pictureWidth := by
    simp only [pictureWidth]
    omega
  have cellRow : 2 * place.y.toNat + 1 < first.pictureHeight := by
    simp only [pictureHeight]
    omega
  have samePassage : first.isOpen place side = second.isOpen place side := by
    rcases stored with rfl | rfl
    · have above := isSolid_eq_of_picture_eq same cellColumn (Nat.lt_of_succ_lt cellRow)
      rwa [isSolid_above, isSolid_above, Bool.not_inj_iff] at above
    · have left := isSolid_eq_of_picture_eq same (Nat.lt_of_succ_lt cellColumn) cellRow
      rwa [isSolid_left, isSolid_left, Bool.not_inj_iff] at left
  rwa [isOpen_eq_not_wall across, isOpen_eq_not_wall (size_eq_of_picture_eq same ▸ across),
    Bool.not_inj_iff] at samePassage

/-- Mazes with one picture have the same walls between their cells: each wall is stored above or
    to the left of one of the two. -/
theorem wall_eq_of_picture_eq {first second : Maze} (same : first.picture = second.picture)
    {place : Coord} {side : Side} (inside : first.size.Contains place)
    (across : first.size.Contains (place.step side)) :
    first.wall place side = second.wall place side := by
  have sameSize := size_eq_of_picture_eq same
  have back : first.size.Contains ((place.step side).step side.opposite) := by
    rwa [step_opposite across]
  have readBack (stored : side.opposite = .up ∨ side.opposite = .left) :
      first.wall place side = second.wall place side :=
    calc first.wall place side
      _ = first.wall (place.step side) side.opposite := (wall_opposite inside across).symm
      _ = second.wall (place.step side) side.opposite :=
        wall_stored_eq_of_picture_eq same stored across back
      _ = second.wall place side := wall_opposite (sameSize ▸ inside) (sameSize ▸ across)
  cases side with
  | up => exact wall_stored_eq_of_picture_eq same (.inl rfl) inside across
  | left => exact wall_stored_eq_of_picture_eq same (.inr rfl) inside across
  | down => exact readBack (.inl rfl)
  | right => exact readBack (.inr rfl)

/-- Mazes of one size with the same walls between their cells have one picture. -/
theorem picture_congr {first second : Maze} (sameSize : first.size = second.size)
    (walls : ∀ place side, first.size.Contains place → first.size.Contains (place.step side) →
      first.wall place side = second.wall place side) : first.picture = second.picture := by
  have drawn := isSolid_congr (isOpen_congr sameSize walls)
  have lines : first.pictureLine = second.pictureLine := by
    funext row
    simp only [pictureLine, pictureWidth, sameSize, drawn]
  simp only [picture, pictureHeight, sameSize, lines]

/-- A wall at the edge of the board is not drawn as it is stored. -/
theorem picture_setWall_edge {place : Coord} {side : Side}
    (edge : ¬ maze.size.Contains (place.step side)) (stands : Bool) :
    (maze.setWall place side stands).picture = maze.picture := by
  by_cases kept : maze.size.Contains (place.keeper side)
  · apply picture_congr (size_setWall ..)
    intro other otherSide inside across
    rw [size_setWall] at inside across
    rw [wall_setWall kept, if_neg]
    intro samePair
    have member : place.step side ∈ s(other, other.step otherSide) := samePair ▸ Sym2.mem_mk_right ..
    rcases Sym2.mem_iff.mp member with same | same
    · exact edge (same ▸ inside)
    · exact edge (same ▸ across)
  · rw [setWall_outside kept]

/-- Two mazes have one picture exactly if they have one size and the same walls between their
    cells. So no such wall is lost, and neither the flags are drawn nor the walls stored
    towards the edge of the board. -/
theorem picture_tells_inner_walls (first second : Maze) :
    (first.picture = second.picture ↔ first.size = second.size ∧
      ∀ place side, first.size.Contains place → first.size.Contains (place.step side) →
        first.wall place side = second.wall place side) ∧
    ∀ place, (∀ value, (first.setEmpty place value).picture = first.picture ∧
        (first.setVisited place value).picture = first.picture) ∧
      ∀ side stands, ¬ first.size.Contains (place.step side) →
        (first.setWall place side stands).picture = first.picture := by
  refine ⟨⟨?_, ?_⟩, ?_⟩
  · intro same
    exact ⟨size_eq_of_picture_eq same, fun _ _ => wall_eq_of_picture_eq same⟩
  · rintro ⟨sameSize, walls⟩
    exact picture_congr sameSize walls
  · intro place
    refine ⟨fun value => ⟨?_, ?_⟩, ?_⟩
    · exact picture_congr (size_setEmpty ..) fun other side _ _ => wall_setEmpty ..
    · exact picture_congr (size_setVisited ..) fun other side _ _ => wall_setVisited ..
    · exact fun side stands edge => picture_setWall_edge edge stands

/-- Of four walled cells, the picture shows the wall between the upper two, and not the one
    above the first. -/
theorem picture_tells_inner_walls_fourCells :
    let walled := fresh { width := 2, height := 2 }
    (walled.setWall ⟨0, 0⟩ .right false).picture ≠ walled.picture ∧
      (walled.setWall ⟨0, 0⟩ .up false).wall ⟨0, 0⟩ .up ≠ walled.wall ⟨0, 0⟩ .up ∧
      (walled.setWall ⟨0, 0⟩ .up false).picture = walled.picture := by
  intro walled
  refine ⟨?_, by decide +kernel, ?_⟩
  · intro same
    obtain ⟨-, walls⟩ := (picture_tells_inner_walls _ _).1.mp same
    have shown := walls ⟨0, 0⟩ .right (by decide) (by decide)
    exact absurd shown (by decide +kernel)
  · exact ((picture_tells_inner_walls walled walled).2 ⟨0, 0⟩).2 .up false (by decide)

end Maze

end MazeDial
