import MazeDial.Proofs.Passages
import MazeDial.Repair.Boundary
import Mathlib.Algebra.Order.BigOperators.Group.List

/-!
# The boundary of a flood

A scan looks at two sides of each cell only, and yet at every pair of neighbours:
the other two sides are looked at from the neighbours there. So where no scanned
pair leaks, cells that reach each other have both been flooded or neither has, and
where no scanned pair divides, all cells of the board have been or none has.
-/

namespace MazeDial

namespace Maze

variable {maze : Maze} {place : Coord} {side : Side}

theorem divides_iff : maze.divides place side = true ↔
    maze.size.Contains (place.step side) ∧
      (maze.get (place.step side)).visited ≠ (maze.get place).visited := by
  simp [divides]

/-- A place leaks if the flood has reached exactly one of it and a neighbour to which
    a passage leads. -/
theorem leaks_iff : maze.leaks place = true ↔
    ∃ side ∈ scannedSides, maze.isOpen place side = true ∧
      (maze.get (place.step side)).visited ≠ (maze.get place).visited := by
  simp only [leaks, List.any_eq_true, Bool.and_eq_true, Bool.not_eq_true', divides_iff, isOpen_iff]
  constructor
  · rintro ⟨side, scanned, ⟨across, differ⟩, down⟩
    exact ⟨side, scanned, ⟨across, down⟩, differ⟩
  · rintro ⟨side, scanned, ⟨across, down⟩, differ⟩
    exact ⟨side, scanned, ⟨across, differ⟩, down⟩

/-- Every side is scanned from the place or from the neighbour there. -/
theorem scanned_or_opposite (side : Side) : side ∈ scannedSides ∨ side.opposite ∈ scannedSides := by
  cases side <;> decide

/-- If no place of the board leaks, passages lead from flooded cells to flooded ones
    and from others to others. -/
theorem visited_eq_of_isOpen (sealed : ∀ place, maze.size.Contains place → ¬ maze.leaks place = true)
    (isOpen : maze.isOpen place side = true) :
    (maze.get place).visited = (maze.get (place.step side)).visited := by
  by_contra differ
  have across : maze.size.Contains (place.step side) := (isOpen_iff.mp isOpen).1
  rcases scanned_or_opposite side with scanned | scanned
  · exact sealed place (contains_of_isOpen isOpen) (leaks_iff.mpr ⟨side, scanned, isOpen, Ne.symm differ⟩)
  · refine sealed _ across (leaks_iff.mpr ⟨_, scanned, isOpen_opposite isOpen, ?_⟩)
    rwa [step_opposite across]

/-- If no place of the board leaks, cells that reach each other are flooded alike. -/
theorem visited_eq_of_reachable
    (sealed : ∀ place, maze.size.Contains place → ¬ maze.leaks place = true) {first second : Coord}
    (reachable : maze.graph.Reachable first second) :
    (maze.get first).visited = (maze.get second).visited := by
  rw [SimpleGraph.reachable_iff_reflTransGen] at reachable
  induction reachable with
  | refl => rfl
  | tail _ adjacent inductionHypothesis =>
    obtain ⟨side, isOpen, rfl⟩ := adjacent
    exact inductionHypothesis.trans (visited_eq_of_isOpen sealed isOpen)

theorem mem_boundaryPairs : (place, side) ∈ maze.boundaryPairs ↔
    maze.size.Contains place ∧ side ∈ scannedSides ∧ maze.divides place side = true := by
  simp [boundaryPairs, Size.mem_coords, and_assoc]

/-- A boundary has at most two pairs for each cell. -/
theorem length_boundaryPairs_le (maze : Maze) :
    maze.boundaryPairs.length ≤ 2 * maze.size.area := by
  have two : ∀ count ∈ maze.size.coords.map fun place =>
      ((scannedSides.filter (maze.divides place)).map fun side => (place, side)).length,
      count ≤ 2 := by
    intro count member
    obtain ⟨place, -, rfl⟩ := List.mem_map.mp member
    rw [List.length_map]
    exact List.length_filter_le ..
  rw [boundaryPairs, List.length_flatMap]
  calc _ ≤ maze.size.coords.length * 2 := by simpa using List.sum_le_card_nsmul _ 2 two
    _ = 2 * maze.size.area := by rw [Size.length_coords, Nat.mul_comm]

/-- A boundary has fewer pairs than there are numbers to draw. -/
theorem length_boundaryPairs_lt (maze : Maze) : maze.boundaryPairs.length < 2 ^ 64 := by
  have most := maze.length_boundaryPairs_le
  have area := maze.size.area_bounds.2
  omega

/-- If no scanned pair divides the board, its cells are flooded alike. -/
theorem visited_eq_of_boundaryPairs (undivided : maze.boundaryPairs = []) {first second : Coord}
    (firstInside : maze.size.Contains first) (secondInside : maze.size.Contains second) :
    (maze.get first).visited = (maze.get second).visited := by
  have scannedAlike {place : Coord} {side : Side} (inside : maze.size.Contains place)
      (across : maze.size.Contains (place.step side)) (scanned : side ∈ scannedSides) :
      (maze.get place).visited = (maze.get (place.step side)).visited := by
    by_contra differ
    have member : (place, side) ∈ maze.boundaryPairs :=
      mem_boundaryPairs.mpr ⟨inside, scanned, divides_iff.mpr ⟨across, Ne.symm differ⟩⟩
    rw [undivided] at member
    exact absurd member List.not_mem_nil
  have shared : ∀ place side, maze.size.Contains place → maze.size.Contains (place.step side) →
      ((maze.get place).visited = true ↔ (maze.get (place.step side)).visited = true) := by
    intro place side inside across
    rw [← Bool.eq_iff_iff]
    rcases scanned_or_opposite side with scanned | scanned
    · exact scannedAlike inside across scanned
    · have back := scannedAlike across (by rwa [step_opposite across]) scanned
      rw [step_opposite across] at back
      exact back.symm
  rw [Bool.eq_iff_iff]
  exact @shared_of_step maze.size (fun place => (maze.get place).visited = true) shared _ _
    firstInside secondInside

/-- What is found at the boundary: a place that leaks; or, where none does, all pairs
    that divide the board, if there are any. -/
theorem boundary_spec (maze : Maze) :
    (∃ place, maze.boundary = .open place ∧ maze.size.Contains place ∧ maze.leaks place = true) ∨
      (∀ place, maze.size.Contains place → ¬ maze.leaks place = true) ∧
        (maze.boundaryPairs ≠ [] ∧ maze.boundary = .walled maze.boundaryPairs ∨
          maze.boundaryPairs = [] ∧ maze.boundary = .none) := by
  cases found : maze.size.coords.find? maze.leaks with
  | some place =>
    refine .inl ⟨place, by rw [boundary, found], ?_, List.find?_some found⟩
    exact Size.mem_coords.mp (List.mem_of_find?_eq_some found)
  | none =>
    refine .inr ⟨fun place inside => List.find?_eq_none.mp found place (Size.mem_coords.mpr inside), ?_⟩
    rw [boundary, found]
    cases maze.boundaryPairs with
    | nil => exact .inr ⟨rfl, rfl⟩
    | cons pair rest => exact .inl ⟨nofun, rfl⟩

/-- The walls found at the boundary are all its pairs, and there are some; no place of the
    board leaks. -/
theorem walls_of_boundary {walls : List (Coord × Side)} (walled : maze.boundary = .walled walls) :
    walls = maze.boundaryPairs ∧ walls ≠ [] ∧
      ∀ place, maze.size.Contains place → ¬ maze.leaks place = true := by
  rcases maze.boundary_spec with ⟨place, atPlace, -⟩ | ⟨sealed, ⟨some, all⟩ | ⟨-, none⟩⟩
  · cases walled.symm.trans atPlace
  · obtain rfl := Boundary.walled.inj (walled.symm.trans all)
    exact ⟨rfl, some, sealed⟩
  · cases walled.symm.trans none

/-- A wall parts two components: it stands between two cells of the board, and no way leads
    from one to the other. -/
structure Parts (maze : Maze) (place : Coord) (side : Side) : Prop where
  inside : maze.size.Contains place
  across : maze.size.Contains (place.step side)
  stands : maze.wall place side = true
  apart : ¬ maze.graph.Reachable place (place.step side)

/-- Where no place of the board leaks, every pair on the boundary has a wall that parts two
    components, one of them flooded and the other one not. -/
theorem parts_of_mem_boundaryPairs
    (sealed : ∀ place, maze.size.Contains place → ¬ maze.leaks place = true)
    (member : (place, side) ∈ maze.boundaryPairs) :
    maze.Parts place side ∧
      (maze.get (place.step side)).visited ≠ (maze.get place).visited := by
  obtain ⟨inside, -, divides⟩ := mem_boundaryPairs.mp member
  obtain ⟨across, differ⟩ := divides_iff.mp divides
  have apart : ¬ maze.graph.Reachable place (place.step side) :=
    fun reachable => differ (visited_eq_of_reachable sealed reachable).symm
  refine ⟨⟨inside, across, ?_, apart⟩, differ⟩
  by_contra fallen
  exact apart ((adj_step_iff inside across).mpr (Bool.eq_false_iff.mpr fallen)).reachable

end Maze

end MazeDial
