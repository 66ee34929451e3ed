import MazeDial.Proofs.Pictures

/-!
# Finding one's way in a picture

The blank units of a picture, joined where they lie side by side or one above the other,
are a graph. Between cells one gets exactly as far in it as in the maze.

Each unit is drawn for a cell: its own, or the one below or to the right of it. From a
blank unit to a blank unit beside it one comes to the same cell, or across a wall that is
out: a unit in an even column is blank only if a passage leads to the left of its cell,
and one in an even row only if a passage leads up. This holds of corners as well, since
these are blank only if all four walls that meet there are out. The other way round, a
passage has a blank unit between its two cells. And no passage leads off the board, so
that no unit at the edge is blank.
-/

namespace MazeDial

/-- What leads from one place to another in a graph leads from image to image in a second one,
    if each step does. -/
theorem reachable_of_steps {α β : Type} {graph : SimpleGraph α} {other : SimpleGraph β}
    (image : α → β)
    (steps : ∀ here next, graph.Adj here next → other.Reachable (image here) (image next))
    {start last : α} (reachable : graph.Reachable start last) :
    other.Reachable (image start) (image last) := by
  rw [SimpleGraph.reachable_iff_reflTransGen] at reachable
  induction reachable with
  | refl => exact .rfl
  | tail _ adjacent inductionHypothesis => exact inductionHypothesis.trans (steps _ _ adjacent)

/-- Two units, by column and row, lie side by side or one above the other. -/
def Beside (unit other : Nat × Nat) : Prop :=
  unit.2 = other.2 ∧ (unit.1 + 1 = other.1 ∨ other.1 + 1 = unit.1) ∨
    unit.1 = other.1 ∧ (unit.2 + 1 = other.2 ∨ other.2 + 1 = unit.2)

theorem Beside.symm {unit other : Nat × Nat} (beside : Beside unit other) : Beside other unit := by
  unfold Beside at beside ⊢
  omega

/-- The blank units of some lines of text, joined where they lie beside each other. -/
def blankGraph (lines : List String) : SimpleGraph (Nat × Nat) where
  Adj unit other :=
    Beside unit other ∧ BlankAt lines unit.1 unit.2 ∧ BlankAt lines other.1 other.2
  symm := ⟨fun _ _ ⟨beside, here, there⟩ => ⟨beside.symm, there, here⟩⟩
  loopless := ⟨by
    rintro unit ⟨beside, -⟩
    unfold Beside at beside
    omega⟩

/-- A blank unit beside two others joins them. -/
theorem reachable_through {lines : List String} {unit other : Nat × Nat} (middle : Nat × Nat)
    (first : Beside unit middle) (second : Beside middle other)
    (here : BlankAt lines unit.1 unit.2) (between : BlankAt lines middle.1 middle.2)
    (there : BlankAt lines other.1 other.2) : (blankGraph lines).Reachable unit other := by
  have onto : (blankGraph lines).Adj unit middle := ⟨first, here, between⟩
  have off : (blankGraph lines).Adj middle other := ⟨second, between, there⟩
  exact onto.reachable.trans off.reachable

/-- The unit that shows a cell. -/
def Coord.unit (place : Coord) : Nat × Nat :=
  (2 * place.x.toNat + 1, 2 * place.y.toNat + 1)

/-- On the board a step up lowers the row by one, and a step to the left the column. -/
theorem Size.toNat_step {size : Size} {place : Coord} (inside : size.Contains place) :
    (size.Contains (place.step .up) → (place.step .up).y.toNat + 1 = place.y.toNat) ∧
      (size.Contains (place.step .left) → (place.step .left).x.toNat + 1 = place.x.toNat) := by
  obtain ⟨up, left⟩ := contains_step_iff inside
  exact ⟨fun across => toNat_pred (up.mp across), fun across => toNat_pred (left.mp across)⟩

/-- The cell that a unit is drawn for: the one it shows, or the one below or to the right. -/
def drawnFor (column row : Nat) : Coord :=
  ⟨(column / 2).toUInt8, (row / 2).toUInt8⟩

theorem drawnFor_unit (place : Coord) : drawnFor place.unit.1 place.unit.2 = place := by
  have column : (2 * place.x.toNat + 1) / 2 = place.x.toNat := by omega
  have row : (2 * place.y.toNat + 1) / 2 = place.y.toNat := by omega
  simp [drawnFor, Coord.unit, column, row]

/-- To the left of an even column and above an even row one comes to units of the next cell. -/
theorem step_drawnFor {column row : Nat} :
    (column % 2 = 1 → (drawnFor (column + 1) row).step .left = drawnFor column row) ∧
      (row % 2 = 1 → (drawnFor column (row + 1)).step .up = drawnFor column row) := by
  constructor
  · intro odd
    have next : (column + 1) / 2 = column / 2 + 1 := by omega
    simp [drawnFor, Coord.step, next]
  · intro odd
    have next : (row + 1) / 2 = row / 2 + 1 := by omega
    simp [drawnFor, Coord.step, next]

namespace Maze

variable {maze : Maze} {column row : Nat}

/-- Which of the walls of its cell a unit shows is told by its column and row. -/
theorem isSolid_eq (maze : Maze) (column row : Nat) :
    maze.isSolid column row =
      if row % 2 = 0 then
        if column % 2 = 0 then maze.drawsCorner (drawnFor column row)
        else maze.drawsAbove (drawnFor column row)
      else if column % 2 = 0 then maze.drawsLeft (drawnFor column row) else false :=
  rfl

/-- A corner is blank only if all the four walls that meet there are out. -/
theorem drawsCorner_eq_false {place : Coord} (blank : maze.drawsCorner place = false) :
    maze.isOpen place .up = true ∧ maze.isOpen place .left = true := by
  simp only [drawsCorner, drawsAbove_eq, drawsLeft_eq, Bool.or_eq_false_iff,
    Bool.not_eq_false'] at blank
  exact ⟨blank.1.1.1, blank.1.2⟩

/-- In an even column a unit is blank only if a passage leads to the left. -/
theorem isOpen_left_of_blank (even : column % 2 = 0) (blank : maze.isSolid column row = false) :
    maze.isOpen (drawnFor column row) .left = true := by
  rw [isSolid_eq] at blank
  by_cases between : row % 2 = 0
  · rw [if_pos between, if_pos even] at blank
    exact (drawsCorner_eq_false blank).2
  · rwa [if_neg between, if_pos even, drawsLeft_eq, Bool.not_eq_false'] at blank

/-- In an even row a unit is blank only if a passage leads up. -/
theorem isOpen_up_of_blank (even : row % 2 = 0) (blank : maze.isSolid column row = false) :
    maze.isOpen (drawnFor column row) .up = true := by
  rw [isSolid_eq, if_pos even] at blank
  by_cases between : column % 2 = 0
  · rw [if_pos between] at blank
    exact (drawsCorner_eq_false blank).1
  · rwa [if_neg between, drawsAbove_eq, Bool.not_eq_false'] at blank

/-- From a blank unit to the one on its right one comes to the same cell or through a passage. -/
theorem reachable_of_blank_right (blank : maze.isSolid (column + 1) row = false) :
    maze.graph.Reachable (drawnFor column row) (drawnFor (column + 1) row) := by
  rcases Nat.mod_two_eq_zero_or_one column with even | odd
  · have same : (column + 1) / 2 = column / 2 := by omega
    rw [drawnFor, drawnFor, same]
  · have back : maze.graph.Adj (drawnFor (column + 1) row) (drawnFor column row) :=
      ⟨.left, isOpen_left_of_blank (by omega) blank, step_drawnFor.1 odd⟩
    exact back.reachable.symm

/-- The same holds of the one below. -/
theorem reachable_of_blank_below (blank : maze.isSolid column (row + 1) = false) :
    maze.graph.Reachable (drawnFor column row) (drawnFor column (row + 1)) := by
  rcases Nat.mod_two_eq_zero_or_one row with even | odd
  · have same : (row + 1) / 2 = row / 2 := by omega
    rw [drawnFor, drawnFor, same]
  · have back : maze.graph.Adj (drawnFor column (row + 1)) (drawnFor column row) :=
      ⟨.up, isOpen_up_of_blank (by omega) blank, step_drawnFor.2 odd⟩
    exact back.reachable.symm

/-- Each step between blank units stays at a cell or takes a passage. -/
theorem reachable_of_adj_blank {unit other : Nat × Nat}
    (adjacent : (blankGraph maze.picture).Adj unit other) :
    maze.graph.Reachable (drawnFor unit.1 unit.2) (drawnFor other.1 other.2) := by
  obtain ⟨beside, here, there⟩ := adjacent
  obtain ⟨-, -, here⟩ := blankAt_picture.mp here
  obtain ⟨-, -, there⟩ := blankAt_picture.mp there
  obtain ⟨column, row⟩ := unit
  obtain ⟨otherColumn, otherRow⟩ := other
  dsimp only [Beside] at beside here there ⊢
  rcases beside with ⟨rfl, rfl | rfl⟩ | ⟨rfl, rfl | rfl⟩
  · exact reachable_of_blank_right there
  · exact (reachable_of_blank_right here).symm
  · exact reachable_of_blank_below there
  · exact (reachable_of_blank_below here).symm

/-- The unit of a cell is blank. -/
theorem blankAt_unit {place : Coord} (inside : maze.size.Contains place) :
    BlankAt maze.picture place.unit.1 place.unit.2 := by
  have column : place.x.toNat < maze.size.width.toNat := inside.1
  have row : place.y.toNat < maze.size.height.toNat := inside.2
  refine blankAt_picture.mpr ⟨?_, ?_, ?_⟩
  · simp only [Coord.unit, pictureWidth]
    omega
  · simp only [Coord.unit, pictureHeight]
    omega
  · simp [isSolid, Coord.unit]

/-- Through a passage up the unit above is blank, and through one to the left the unit to the
    left. -/
theorem blankAt_passage {place : Coord} :
    (maze.isOpen place .up = true →
      BlankAt maze.picture (2 * place.x.toNat + 1) (2 * place.y.toNat)) ∧
    (maze.isOpen place .left = true →
      BlankAt maze.picture (2 * place.x.toNat) (2 * place.y.toNat + 1)) := by
  constructor
  · intro isOpen
    obtain ⟨inLine, inPicture, -⟩ := blankAt_picture.mp (blankAt_unit (contains_of_isOpen isOpen))
    have undrawn := isSolid_above maze place
    rw [isOpen, Bool.not_true] at undrawn
    exact blankAt_picture.mpr ⟨inLine, Nat.lt_of_succ_lt inPicture, undrawn⟩
  · intro isOpen
    obtain ⟨inLine, inPicture, -⟩ := blankAt_picture.mp (blankAt_unit (contains_of_isOpen isOpen))
    have undrawn := isSolid_left maze place
    rw [isOpen, Bool.not_true] at undrawn
    exact blankAt_picture.mpr ⟨Nat.lt_of_succ_lt inLine, inPicture, undrawn⟩

/-- A passage up or to the left is shown: the unit in its middle is blank. -/
theorem reachable_units_of_isOpen {place : Coord} {side : Side} (stored : side = .up ∨ side = .left)
    (isOpen : maze.isOpen place side = true) :
    (blankGraph maze.picture).Reachable place.unit (place.step side).unit := by
  have inside := contains_of_isOpen isOpen
  have across := (isOpen_iff.mp isOpen).1
  rcases stored with rfl | rfl
  · have moved := (Size.toNat_step inside).1 across
    have further : 2 * (place.step .up).y.toNat + 1 + 1 = 2 * place.y.toNat := by omega
    exact reachable_through (2 * place.x.toNat + 1, 2 * place.y.toNat) (.inr ⟨rfl, .inr rfl⟩)
      (.inr ⟨rfl, .inr further⟩) (blankAt_unit inside) (blankAt_passage.1 isOpen)
      (blankAt_unit across)
  · have moved := (Size.toNat_step inside).2 across
    have further : 2 * (place.step .left).x.toNat + 1 + 1 = 2 * place.x.toNat := by omega
    exact reachable_through (2 * place.x.toNat, 2 * place.y.toNat + 1) (.inl ⟨rfl, .inr rfl⟩)
      (.inl ⟨rfl, .inr further⟩) (blankAt_unit inside) (blankAt_passage.2 isOpen)
      (blankAt_unit across)

/-- Each passage is shown, since it leads up or to the left from one of its two ends. -/
theorem reachable_units_of_adj {place other : Coord} (adjacent : maze.graph.Adj place other) :
    (blankGraph maze.picture).Reachable place.unit other.unit := by
  have listed : s(place, other) ∈ maze.graph.edgeSet := adjacent
  rw [edgeSet_eq_passages] at listed
  obtain ⟨start, side, stored, isOpen, same⟩ := mem_passages.mp listed
  have shown := reachable_units_of_isOpen stored isOpen
  rcases Sym2.eq_iff.mp same with ⟨rfl, rfl⟩ | ⟨rfl, rfl⟩
  · exact shown
  · exact shown.symm

/-- Between cells the blank units lead as far as the passages. -/
theorem reachable_units_iff {place other : Coord} :
    (blankGraph maze.picture).Reachable place.unit other.unit ↔
      maze.graph.Reachable place other := by
  constructor
  · intro reachable
    have found := reachable_of_steps (fun unit => drawnFor unit.1 unit.2)
      (fun _ _ => reachable_of_adj_blank) reachable
    rwa [drawnFor_unit, drawnFor_unit] at found
  · exact reachable_of_steps Coord.unit fun _ _ => reachable_units_of_adj

/-- No blank unit lies at the edge: its passage would lead off the board. -/
theorem inner_of_blank (blank : BlankAt maze.picture column row) :
    0 < column ∧ column < 2 * maze.size.width.toNat ∧
      0 < row ∧ row < 2 * maze.size.height.toNat := by
  obtain ⟨inLine, inPicture, undrawn⟩ := blankAt_picture.mp blank
  simp only [pictureWidth, pictureHeight] at inLine inPicture
  have narrow : maze.size.width.toNat < UInt8.size := maze.size.width.toNat_lt
  have low : maze.size.height.toNat < UInt8.size := maze.size.height.toNat_lt
  have cell : (drawnFor column row).x.toNat = column / 2 ∧ (drawnFor column row).y.toNat = row / 2 :=
    ⟨UInt8.toNat_ofNat_of_lt' (by omega), UInt8.toNat_ofNat_of_lt' (by omega)⟩
  have columns : 0 < column ∧ column < 2 * maze.size.width.toNat := by
    rcases Nat.mod_two_eq_zero_or_one column with even | odd
    · have isOpen := isOpen_left_of_blank even undrawn
      have inside := contains_of_isOpen isOpen
      have moved := (Size.toNat_step inside).2 (isOpen_iff.mp isOpen).1
      have bounded : (drawnFor column row).x.toNat < maze.size.width.toNat := inside.1
      omega
    · omega
  have rows : 0 < row ∧ row < 2 * maze.size.height.toNat := by
    rcases Nat.mod_two_eq_zero_or_one row with even | odd
    · have isOpen := isOpen_up_of_blank even undrawn
      have inside := contains_of_isOpen isOpen
      have moved := (Size.toNat_step inside).1 (isOpen_iff.mp isOpen).1
      have bounded : (drawnFor column row).y.toNat < maze.size.height.toNat := inside.2
      omega
    · omega
  exact ⟨columns.1, columns.2, rows.1, rows.2⟩

/-- A maze is drawn as twice as many rows of units as it has, and one, each of twice as many
    units as it has columns, and one. Two cells can be joined by a chain of blank units, each
    beside the next, exactly if they can reach each other through passages; and no blank unit
    lies at the edge of the picture. -/
theorem blank_units_connect_as_passages (maze : Maze) :
    maze.picture.length = 2 * maze.size.height.toNat + 1 ∧
    (∀ line ∈ maze.picture, line.length = 2 * (2 * maze.size.width.toNat + 1)) ∧
    (∀ place other, maze.size.Contains place → maze.size.Contains other →
      BlankAt maze.picture place.unit.1 place.unit.2 ∧
      ((blankGraph maze.picture).Reachable place.unit other.unit ↔
        maze.graph.Reachable place other)) ∧
    ∀ column row, BlankAt maze.picture column row →
      0 < column ∧ column < 2 * maze.size.width.toNat ∧
        0 < row ∧ row < 2 * maze.size.height.toNat := by
  refine ⟨length_picture maze, ?_, ?_, fun _ _ => inner_of_blank⟩
  · intro line member
    obtain ⟨row, -, rfl⟩ := List.mem_map.mp member
    exact length_pictureLine maze row
  · intro place other inside _
    exact ⟨blankAt_unit inside, reachable_units_iff⟩

/-- Of four cells with one passage, the picture joins the two at its ends, and not the first
    with the one below it. -/
theorem blank_units_connect_as_passages_onePassage :
    let maze := (fresh { width := 2, height := 2 }).setWall ⟨0, 0⟩ .right false
    (blankGraph maze.picture).Reachable (1, 1) (3, 1) ∧
      ¬ (blankGraph maze.picture).Reachable (1, 1) (1, 3) := by
  intro maze
  obtain ⟨-, -, connect, -⟩ := blank_units_connect_as_passages maze
  constructor
  · have across : maze.graph.Adj ⟨0, 0⟩ ⟨1, 0⟩ := ⟨.right, by decide +kernel, rfl⟩
    exact (connect ⟨0, 0⟩ ⟨1, 0⟩ (by decide) (by decide)).2.mpr across.reachable
  · intro joined
    obtain ⟨way⟩ := (connect ⟨0, 0⟩ ⟨0, 1⟩ (by decide) (by decide)).2.mp joined |>.symm
    cases way with
    | cons first _ =>
      obtain ⟨side, isOpen, -⟩ := first
      have closed : ∀ side ∈ Side.all, maze.isOpen ⟨0, 1⟩ side = false := by decide +kernel
      rw [closed side (Side.mem_all side)] at isOpen
      cases isOpen

end Maze

end MazeDial
