import MazeDial.Proofs.Walls
import Mathlib.Combinatorics.SimpleGraph.Connectivity.Connected
import Mathlib.Data.Set.Card

/-!
# The graph of a maze

The passages of a maze join its places to a graph. Passages are on the board and
lead both ways, and the number of them that a maze tells is the number of edges.
That each wall is stored in one of its two cells only is not to be seen: it is read
and written alike from both, and however close to 255 a place is, no third reading
is of the same wall.

A maze that arises from another one by taking out walls is described by the
graph of the pairs between which they stood. Nothing is said about cell flags,
so that the same description serves carving, stamping and repair.
-/

namespace MazeDial

namespace Maze

variable {maze : Maze}

/-- An open side leads onto the board and has no wall. -/
theorem isOpen_iff {place : Coord} {side : Side} :
    maze.isOpen place side = true ↔
      maze.size.Contains (place.step side) ∧ maze.wall place side = false := by
  simp [isOpen]

/-- A wall stored outside the board stands. -/
theorem wall_outside {place : Coord} {side : Side}
    (outside : ¬ maze.size.Contains (place.keeper side)) : maze.wall place side = true := by
  rw [wall_eq_wallOf, get_outside outside]
  cases side <;> rfl

/-- A passage starts on the board. -/
theorem contains_of_isOpen {place : Coord} {side : Side} (isOpen : maze.isOpen place side = true) :
    maze.size.Contains place := by
  by_contra outside
  have absent : ¬ maze.size.Contains (place.keeper side) := fun kept =>
    outside (contains_of_keeper kept)
  have stands : maze.wall place side = true := wall_outside absent
  rw [(isOpen_iff.mp isOpen).2] at stands
  exact Bool.noConfusion stands

/-- The wall that would close a passage is stored on the board. -/
theorem contains_keeper_of_isOpen {place : Coord} {side : Side}
    (isOpen : maze.isOpen place side = true) : maze.size.Contains (place.keeper side) :=
  contains_keeper (contains_of_isOpen isOpen) (isOpen_iff.mp isOpen).1

/-- A passage leads both ways. -/
theorem isOpen_opposite {place : Coord} {side : Side} (isOpen : maze.isOpen place side = true) :
    maze.isOpen (place.step side) side.opposite = true := by
  obtain ⟨across, down⟩ := isOpen_iff.mp isOpen
  have inside : maze.size.Contains place := contains_of_isOpen isOpen
  rw [isOpen_iff, step_opposite across, wall_opposite inside across]
  exact ⟨inside, down⟩

/-- Two places are joined if a passage leads from one to the other. -/
def graph (maze : Maze) : SimpleGraph Coord where
  Adj place other := ∃ side, maze.isOpen place side = true ∧ place.step side = other
  symm := ⟨by
    rintro place other ⟨side, isOpen, rfl⟩
    exact ⟨side.opposite, isOpen_opposite isOpen, step_opposite (isOpen_iff.mp isOpen).1⟩⟩
  loopless := ⟨by
    rintro place ⟨side, isOpen, same⟩
    exact step_ne (contains_of_isOpen isOpen) same⟩

/-- Every cell can reach every other one. -/
def Whole (maze : Maze) : Prop :=
  ∀ place other, maze.size.Contains place → maze.size.Contains other →
    maze.graph.Reachable place other

/-- The graph is settled by the walls. -/
theorem graph_eq_of_wall_eq {base : Maze} (size_eq : maze.size = base.size)
    (wall_eq : ∀ place side, maze.wall place side = base.wall place side) :
    maze.graph = base.graph := by
  ext place other
  simp only [graph, isOpen, size_eq, wall_eq]

@[simp] theorem graph_setEmpty (maze : Maze) (place : Coord) (value : Bool) :
    (maze.setEmpty place value).graph = maze.graph :=
  graph_eq_of_wall_eq (size_setEmpty ..) (wall_setEmpty maze place value)

@[simp] theorem graph_setVisited (maze : Maze) (place : Coord) (value : Bool) :
    (maze.setVisited place value).graph = maze.graph :=
  graph_eq_of_wall_eq (size_setVisited ..) (wall_setVisited maze place value)

@[simp] theorem graph_clearVisited (maze : Maze) : maze.clearVisited.graph = maze.graph :=
  graph_eq_of_wall_eq (size_clearVisited maze) (wall_clearVisited maze)

/-- Passages join neighbours on the board. -/
theorem graph_le_grid (maze : Maze) : maze.graph ≤ maze.size.grid := by
  rintro place other ⟨side, isOpen, rfl⟩
  exact ⟨contains_of_isOpen isOpen, (isOpen_iff.mp isOpen).1, side, rfl⟩

/-- Between neighbours on the board there is a passage or a wall. -/
theorem adj_step_iff {place : Coord} {side : Side} (inside : maze.size.Contains place)
    (across : maze.size.Contains (place.step side)) :
    maze.graph.Adj place (place.step side) ↔ maze.wall place side = false := by
  constructor
  · rintro ⟨otherSide, isOpen, same⟩
    obtain rfl : otherSide = side := step_injective inside same
    exact (isOpen_iff.mp isOpen).2
  · intro down
    exact ⟨side, isOpen_iff.mpr ⟨across, down⟩, rfl⟩

/-- Passages do not lead off the board, however many of them are taken. -/
theorem contains_of_reachable {place other : Coord} (reachable : maze.graph.Reachable place other)
    (inside : maze.size.Contains place) : maze.size.Contains other := by
  rw [SimpleGraph.reachable_iff_reflTransGen] at reachable
  induction reachable with
  | refl => exact inside
  | tail _ adjacent _ => exact (graph_le_grid maze adjacent).2.1

/-- The pairs of places that passages join, each listed where its wall is stored. -/
def passages (maze : Maze) : List (Sym2 Coord) :=
  maze.size.coords.flatMap fun place =>
    ([Side.up, .left].filter (maze.isOpen place)).map fun side => s(place, place.step side)

theorem mem_passages {pair : Sym2 Coord} :
    pair ∈ maze.passages ↔
      ∃ place side, (side = .up ∨ side = .left) ∧ maze.isOpen place side = true ∧
        s(place, place.step side) = pair := by
  simp only [passages, List.mem_flatMap, Size.mem_coords, List.mem_map, List.mem_filter,
    List.mem_cons, List.not_mem_nil, or_false]
  constructor
  · rintro ⟨place, _, side, ⟨stored, isOpen⟩, same⟩
    exact ⟨place, side, stored, isOpen, same⟩
  · rintro ⟨place, side, stored, isOpen, same⟩
    exact ⟨place, contains_of_isOpen isOpen, side, ⟨stored, isOpen⟩, same⟩

/-- The pairs listed are the edges of the graph. -/
theorem edgeSet_eq_passages (maze : Maze) : maze.graph.edgeSet = {pair | pair ∈ maze.passages} := by
  ext pair
  induction pair with
  | h place other =>
    rw [SimpleGraph.mem_edgeSet, Set.mem_ofPred_eq, mem_passages]
    constructor
    · rintro ⟨side, isOpen, rfl⟩
      have back : s(place.step side, (place.step side).step side.opposite) =
          s(place, place.step side) := by
        rw [step_opposite (isOpen_iff.mp isOpen).1]
        exact Sym2.eq_swap
      cases side with
      | up => exact ⟨place, .up, .inl rfl, isOpen, rfl⟩
      | left => exact ⟨place, .left, .inr rfl, isOpen, rfl⟩
      | down => exact ⟨_, .up, .inl rfl, isOpen_opposite isOpen, back⟩
      | right => exact ⟨_, .left, .inr rfl, isOpen_opposite isOpen, back⟩
    · rintro ⟨start, side, _, isOpen, same⟩
      rw [← SimpleGraph.mem_edgeSet, ← same, SimpleGraph.mem_edgeSet]
      exact ⟨side, isOpen, rfl⟩

/-- No passage is listed twice: a wall is stored in one cell only. -/
theorem passages_nodup (maze : Maze) : maze.passages.Nodup := by
  have keeper_self (place : Coord) {side : Side} (stored : side ∈ [Side.up, .left]) :
      place.keeper side = place ∧ side.kept = side := by
    simp only [List.mem_cons, List.not_mem_nil, or_false] at stored
    rcases stored with rfl | rfl <;> exact ⟨rfl, rfl⟩
  rw [passages, List.nodup_flatMap]
  constructor
  · intro place inside
    apply List.Nodup.map_on _ (List.Nodup.filter _ (by decide))
    intro first inFirst second inSecond same
    have firstOwn := keeper_self place (List.mem_filter.mp inFirst).1
    have secondOwn := keeper_self place (List.mem_filter.mp inSecond).1
    have kept : maze.size.Contains (place.keeper second) :=
      secondOwn.1.symm ▸ Size.mem_coords.mp inside
    have sameSide : first.kept = second.kept := ((same_wall_iff kept).mpr same).2
    rw [← firstOwn.2, sameSide, secondOwn.2]
  · apply List.Pairwise.imp_of_mem _ maze.size.coords_nodup
    intro first second _ inside different pair inFirst inSecond
    obtain ⟨side, inSide, rfl⟩ := List.mem_map.mp inFirst
    obtain ⟨otherSide, inOther, same⟩ := List.mem_map.mp inSecond
    have firstOwn := keeper_self first (List.mem_filter.mp inSide).1
    have secondOwn := keeper_self second (List.mem_filter.mp inOther).1
    have kept : maze.size.Contains (second.keeper otherSide) :=
      secondOwn.1.symm ▸ Size.mem_coords.mp inside
    have sameKeeper : first.keeper side = second.keeper otherSide :=
      ((same_wall_iff kept).mpr same.symm).1
    rw [firstOwn.1, secondOwn.1] at sameKeeper
    exact different sameKeeper

/-- A list without repetitions has as many members as entries. -/
theorem ncard_listed {α : Type} {entries : List α} (distinct : entries.Nodup) :
    {entry | entry ∈ entries}.ncard = entries.length := by
  classical
  rw [← List.coe_toFinset, Set.ncard_coe_finset, List.toFinset_card_of_nodup distinct]

/-- The number of passages is the number of edges. -/
theorem openEdgeCount_eq_ncard (maze : Maze) : maze.openEdgeCount = maze.graph.edgeSet.ncard := by
  have listed : maze.passages.length = maze.openEdgeCount := by
    rw [openEdgeCount, ← List.sum_eq_foldr]
    simp [passages, List.length_flatMap, List.countP_eq_length_filter]
  rw [edgeSet_eq_passages, ncard_listed maze.passages_nodup, listed]

theorem finite_edgeSet (maze : Maze) : maze.graph.edgeSet.Finite := by
  rw [edgeSet_eq_passages]
  exact maze.passages.finite_toSet

/-- A maze arises from another one by taking out the walls between the places
    that a graph joins. -/
structure Opened (base : Maze) (opened : SimpleGraph Coord) (maze : Maze) : Prop where
  size_eq : maze.size = base.size
  wall_iff : ∀ place side, maze.wall place side = true ↔
    base.wall place side = true ∧ ¬ opened.Adj place (place.step side)

namespace Opened

variable {base middle : Maze} {opened further : SimpleGraph Coord}

protected theorem refl (maze : Maze) : Opened maze ⊥ maze :=
  ⟨rfl, fun _ _ => by simp⟩

protected theorem trans (first : Opened base opened middle) (second : Opened middle further maze) :
    Opened base (opened ⊔ further) maze := by
  constructor
  · exact second.size_eq.trans first.size_eq
  · intro place side
    rw [second.wall_iff, first.wall_iff, SimpleGraph.sup_adj, not_or, and_assoc]

/-- Where the places were neighbours on the board, they are joined by passages now. -/
theorem graph_eq (taken : Opened base opened maze) (onBoard : opened ≤ base.size.grid) :
    maze.graph = base.graph ⊔ opened := by
  ext place other
  rw [SimpleGraph.sup_adj]
  by_cases neighbors : base.size.grid.Adj place other
  · obtain ⟨inside, across, side, rfl⟩ := neighbors
    have inside' : maze.size.Contains place := taken.size_eq ▸ inside
    have across' : maze.size.Contains (place.step side) := taken.size_eq ▸ across
    rw [adj_step_iff inside' across', adj_step_iff inside across, ← Bool.not_eq_true,
      taken.wall_iff, not_and_or, not_not, Bool.not_eq_true]
  · have notNow : ¬ maze.graph.Adj place other := by
      intro adjacent
      exact neighbors (taken.size_eq ▸ graph_le_grid maze adjacent)
    have notBefore : ¬ base.graph.Adj place other := by
      intro adjacent
      exact neighbors (graph_le_grid base adjacent)
    have notOpened : ¬ opened.Adj place other := by
      intro adjacent
      exact neighbors (onBoard adjacent)
    simp only [notNow, notBefore, notOpened, or_self]

end Opened

/-- Taking out one wall. -/
theorem opened_setWall {place : Coord} {side : Side}
    (kept : maze.size.Contains (place.keeper side)) :
    Opened maze (SimpleGraph.edge place (place.step side)) (maze.setWall place side false) := by
  constructor
  · exact size_setWall ..
  · intro other otherSide
    rw [wall_setWall kept, SimpleGraph.adj_edge]
    by_cases same : s(other, other.step otherSide) = s(place, place.step side)
    · have apart : other ≠ other.step otherSide := by
        intro fixed
        rw [← fixed] at same
        have diagonal : (s(place, place.step side)).IsDiag := same ▸ rfl
        exact step_ne (contains_of_keeper kept) (Sym2.mk_isDiag_iff.mp diagonal).symm
      simp [same, apart]
    · simp [same, Ne.symm same]

/-- A passage from any place leads from the board to the board, and back to where it came from.
    A wall between two places of the board is written alike from its two sides and read from
    them as it was written; no other reading of a wall and no flag changes. A wall that is
    stored outside the board cannot be written at all. -/
theorem walls_have_two_sides (maze : Maze) (place : Coord) (side : Side) :
    (maze.isOpen place side = true →
      maze.size.Contains place ∧ maze.size.Contains (place.step side) ∧
        maze.isOpen (place.step side) side.opposite = true ∧
        (place.step side).step side.opposite = place) ∧
    (maze.size.Contains place → maze.size.Contains (place.step side) → ∀ stands,
      let written := maze.setWall place side stands
      maze.setWall (place.step side) side.opposite stands = written ∧
        written.wall place side = stands ∧
        written.wall (place.step side) side.opposite = stands ∧
        (∀ other otherSide, ¬ (other = place ∧ otherSide = side) →
          ¬ (other = place.step side ∧ otherSide = side.opposite) →
          written.wall other otherSide = maze.wall other otherSide) ∧
        ∀ other, (written.get other).empty = (maze.get other).empty ∧
          (written.get other).visited = (maze.get other).visited) ∧
    ∀ stands, ¬ maze.size.Contains (place.keeper side) →
      maze.setWall place side stands = maze := by
  refine ⟨?_, ?_, fun stands outside => setWall_outside outside stands⟩
  · intro isOpen
    have across : maze.size.Contains (place.step side) := (isOpen_iff.mp isOpen).1
    exact ⟨contains_of_isOpen isOpen, across, isOpen_opposite isOpen, step_opposite across⟩
  · intro inside across stands written
    have reads (other : Coord) (otherSide : Side) : written.wall other otherSide =
        if other = place ∧ otherSide = side ∨ other = place.step side ∧ otherSide = side.opposite
        then stands else maze.wall other otherSide := by
      simp only [← same_pair_iff inside across]
      exact wall_setWall (contains_keeper inside across) stands other otherSide
    refine ⟨setWall_opposite inside across stands, ?_, ?_, ?_, ?_⟩
    · rw [reads, if_pos (.inl ⟨rfl, rfl⟩)]
    · rw [reads, if_pos (.inr ⟨rfl, rfl⟩)]
    · intro other otherSide notHere notThere
      rw [reads, if_neg (not_or.mpr ⟨notHere, notThere⟩)]
    · exact fun other => ⟨empty_setWall .., visited_setWall ..⟩

/-- Of four cells with a passage between the upper two, the passage leads both ways and can be
    closed from either side; the wall to the right of the second column is stored nowhere. -/
theorem walls_have_two_sides_fourCells :
    let maze := (fresh { width := 2, height := 2 }).setWall ⟨0, 0⟩ .right false
    maze.isOpen ⟨0, 0⟩ .right = true ∧ maze.isOpen ⟨1, 0⟩ .left = true ∧
      maze.setWall ⟨1, 0⟩ .left true = maze.setWall ⟨0, 0⟩ .right true ∧
      (maze.setWall ⟨0, 0⟩ .right true).wall ⟨1, 0⟩ .left = true ∧
      maze.setWall ⟨1, 0⟩ .right false = maze := by
  intro maze
  have isOpen : maze.isOpen ⟨0, 0⟩ .right = true := by decide +kernel
  obtain ⟨leads, writes, -⟩ := walls_have_two_sides maze ⟨0, 0⟩ .right
  obtain ⟨inside, across, back, -⟩ := leads isOpen
  obtain ⟨alike, -, read, -⟩ := writes inside across true
  have edge := (walls_have_two_sides maze ⟨1, 0⟩ .right).2.2 false (by decide)
  exact ⟨isOpen, back, alike, read, edge⟩

end Maze

end MazeDial
