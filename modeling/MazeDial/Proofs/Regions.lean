import MazeDial.Proofs.Components
import MazeDial.Proofs.Forest
import MazeDial.Proofs.Strokes

/-!
# Regions

How many walls a cycle takes out in all, told from the stamped board alone. Carving
attaches each empty cell to a region and leaves the regions apart, and repair joins them:
each wall it takes out makes one region of two, until one is left. A board without
regions is given a root, which is a region of its own.

So passages and regions can be counted on the stamped board, and the counts of the
finished maze follow, whatever is drawn and however the cycle is sliced. The finished
maze has one passage fewer than cells exactly if no loop was stamped.
-/

namespace MazeDial

open SimpleGraph

/-- The places of a board, as a set. -/
def Size.board (size : Size) : Set Coord := {place | size.Contains place}

namespace Size

variable (size : Size)

theorem board_eq_coords : size.board = {place | place ∈ size.coords} := by
  ext place
  exact mem_coords.symm

theorem finite_board : size.board.Finite := by
  rw [board_eq_coords]
  exact size.coords.finite_toSet

/-- A board has as many places as its area tells. -/
theorem ncard_board : size.board.ncard = size.area := by
  rw [board_eq_coords, Maze.ncard_listed size.coords_nodup, length_coords]

theorem nonempty_board : size.board.Nonempty :=
  ⟨⟨0, 0⟩, size.contains_corner⟩

end Size

namespace Maze

/-- The cells of a maze that are not empty. -/
def occupied (maze : Maze) : Set Coord :=
  {place | maze.size.Contains place ∧ (maze.get place).empty = false}

/-- The number of regions of a maze: the components that passages make of the cells that
    are not empty. -/
noncomputable def regionCount (maze : Maze) : Nat :=
  Nat.card (maze.graph.induce maze.occupied).ConnectedComponent

variable (maze : Maze)

/-- Passages stay on the board. -/
theorem support_graph_subset : maze.graph.support ⊆ maze.size.board := by
  rintro place ⟨other, adjacent⟩
  exact (graph_le_grid maze adjacent).1

theorem occupied_subset : maze.occupied ⊆ maze.size.board :=
  fun _ held => held.1

theorem finite_occupied : maze.occupied.Finite :=
  maze.size.finite_board.subset maze.occupied_subset

/-- Every cell of the board is empty or is not. -/
theorem ncard_occupied_add_length_emptyCells :
    maze.occupied.ncard + maze.emptyCells.length = maze.size.area := by
  have apart : Disjoint maze.occupied {place | place ∈ maze.emptyCells} := by
    rw [Set.disjoint_left]
    rintro place ⟨-, held⟩ listed
    rw [mem_emptyCells.mp listed] at held
    cases held
  have together : maze.occupied ∪ {place | place ∈ maze.emptyCells} = maze.size.board := by
    ext place
    cases empty : (maze.get place).empty with
    | true =>
      have inside := contains_of_empty empty
      simp [occupied, Size.board, mem_emptyCells, empty, inside]
    | false => simp [occupied, Size.board, mem_emptyCells, empty]
  have counted := Set.ncard_union_eq apart maze.finite_occupied maze.emptyCells.finite_toSet
  rw [together, Size.ncard_board, ncard_listed maze.emptyCells_nodup] at counted
  exact counted.symm

end Maze

/-- In a carvable maze passages stay between cells that are not empty. -/
theorem Carvable.support_subset {maze : Maze} (carvable : Carvable maze) :
    maze.graph.support ⊆ maze.occupied := by
  rintro place ⟨other, adjacent⟩
  refine ⟨(Maze.graph_le_grid maze adjacent).1, ?_⟩
  rw [Bool.eq_false_iff]
  exact fun empty => carvable.isIsolated empty other adjacent

namespace Maze.Vacant

variable {maze : Maze} (vacant : maze.Vacant)

include vacant

theorem occupied_eq_empty : maze.occupied = ∅ := by
  apply Set.eq_empty_of_forall_notMem
  rintro place ⟨inside, held⟩
  exact nomatch held.symm.trans (vacant place inside)

/-- A vacant maze has no regions. -/
theorem regionCount_eq_zero : maze.regionCount = 0 := by
  have : IsEmpty maze.occupied := Set.isEmpty_coe_sort.mpr vacant.occupied_eq_empty
  have : IsEmpty (maze.graph.induce maze.occupied).ConnectedComponent := by
    constructor
    intro component
    induction component using ConnectedComponent.ind with
    | h place => exact isEmptyElim place
  exact Nat.card_of_isEmpty

end Maze.Vacant

section Counts

variable {σ : Type} [RandomSource σ]

/-- Repair leaves one component, so it takes out one wall fewer than there were. -/
theorem Repaired.wallsRemoved_add_one {base : Maze} {source : σ} {final : Maze × σ × RepairReport}
    (repaired : Repaired base source final) :
    final.2.2.wallsRemoved + 1 = (componentsOf base.graph base.size.board).ncard := by
  obtain ⟨taken, -, opened⟩ := repaired.opened
  have same : final.1.size.board = base.size.board := congrArg Size.board opened.size_eq
  have within : final.1.graph.support ⊆ base.size.board := same ▸ final.1.support_graph_subset
  have one : (componentsOf final.1.graph base.size.board).ncard = 1 := by
    rw [← same]
    exact ncard_componentsOf_eq_one (Size.nonempty_board _)
      fun first inside second otherInside => repaired.whole first second inside otherInside
  have counted := repaired.linking.ncard_componentsOf within base.size.finite_board
  omega

/-- Each wall taken out is one passage more. -/
theorem Repaired.openEdgeCount_eq {base : Maze} {source : σ} {final : Maze × σ × RepairReport}
    (repaired : Repaired base source final) :
    final.1.openEdgeCount = base.openEdgeCount + final.2.2.wallsRemoved := by
  rw [Maze.openEdgeCount_eq_ncard, Maze.openEdgeCount_eq_ncard]
  exact (repaired.linking.ncard_edgeSet base.finite_edgeSet).2

namespace CarvesOut

variable [LawfulRandomSource σ] {here there : Station σ} (carvable : Carvable here.maze)
  (carved : CarvesOut here .done there)

include carvable carved

/-- Carving out lets a maze grow. -/
theorem grown : here.maze.Grown there.maze := by
  obtain ⟨-, -, planted, attached, planting, carves⟩ := carved.carves carvable
  exact planting.grown carves

/-- Carving leaves as many components as there were regions, as empty cells are attached to
    regions and no two regions are joined. -/
theorem ncard_componentsOf (held : ¬ here.maze.Vacant) :
    (componentsOf there.maze.graph here.maze.size.board).ncard = here.maze.regionCount := by
  obtain ⟨-, count, linking⟩ := carved.grown carvable
  obtain ⟨reaches, -⟩ := carved.attaches carvable held
  have attached : ∀ place ∈ here.maze.size.board,
      ∃ other ∈ here.maze.occupied, there.maze.graph.Reachable place other := by
    intro place inside
    cases empty : (here.maze.get place).empty with
    | true =>
      obtain ⟨other, within, occupied, reachable⟩ := reaches place empty
      exact ⟨other, ⟨within, occupied⟩, reachable⟩
    | false => exact ⟨place, ⟨inside, empty⟩, Reachable.refl place⟩
  have apart : ∀ first ∈ here.maze.occupied, ∀ second ∈ here.maze.occupied,
      there.maze.graph.Reachable first second → here.maze.graph.Reachable first second :=
    fun first inFirst second inSecond => (carved.reachable_iff carvable inFirst.2 inSecond.2).mp
  calc (componentsOf there.maze.graph here.maze.size.board).ncard
      = (componentsOf there.maze.graph here.maze.occupied).ncard := by
        rw [componentsOf_eq here.maze.occupied_subset attached]
    _ = (componentsOf here.maze.graph here.maze.occupied).ncard :=
        ncard_componentsOf_congr linking.le apart
    _ = here.maze.regionCount := MazeDial.ncard_componentsOf carvable.support_subset

/-- A root is the one component of a vacant maze. -/
theorem ncard_componentsOf_of_vacant (vacant : here.maze.Vacant) :
    (componentsOf there.maze.graph here.maze.size.board).ncard = 1 := by
  have whole := carved.whole carvable vacant
  rw [← carved.size_eq carvable]
  exact ncard_componentsOf_eq_one (Size.nonempty_board _)
    fun first inside second otherInside => whole first second inside otherInside

/-- So repair takes out a wall for each region but one. -/
theorem wallsRemoved_eq {source : σ} {final : Maze × σ × RepairReport}
    (repaired : Repaired there.maze source final) :
    final.2.2.wallsRemoved = here.maze.regionCount - 1 := by
  have removed := repaired.wallsRemoved_add_one
  rw [carved.size_eq carvable] at removed
  by_cases vacant : here.maze.Vacant
  · rw [carved.ncard_componentsOf_of_vacant carvable vacant] at removed
    rw [vacant.regionCount_eq_zero]
    omega
  · rw [carved.ncard_componentsOf carvable vacant] at removed
    omega

/-- In the end there is a passage for each that was stamped, one for each cell that was
    empty, and one for each region but one. -/
theorem openEdgeCount_eq {source : σ} {final : Maze × σ × RepairReport}
    (repaired : Repaired there.maze source final) :
    final.1.openEdgeCount + here.maze.occupied.ncard + 1 =
      here.maze.openEdgeCount + here.maze.size.area + here.maze.regionCount := by
  have removed := repaired.wallsRemoved_add_one
  have mended := repaired.openEdgeCount_eq
  have cells := here.maze.ncard_occupied_add_length_emptyCells
  rw [carved.size_eq carvable] at removed
  by_cases vacant : here.maze.Vacant
  · obtain ⟨-, -, -, -, counted⟩ := carved.attaches_to_root carvable vacant
    rw [carved.ncard_componentsOf_of_vacant carvable vacant] at removed
    rw [vacant.occupied_eq_empty, Set.ncard_empty] at cells ⊢
    rw [vacant.regionCount_eq_zero]
    omega
  · obtain ⟨-, counted⟩ := carved.attaches carvable vacant
    rw [carved.ncard_componentsOf carvable vacant] at removed
    omega

/-- The finished maze has a loop exactly if the stamped board has one. -/
theorem isAcyclic_iff {source : σ} {final : Maze × σ × RepairReport}
    (repaired : Repaired there.maze source final) :
    final.1.graph.IsAcyclic ↔ here.maze.graph.IsAcyclic := by
  obtain ⟨-, count, linking⟩ := (carved.grown carvable).trans repaired.grown
  exact linking.isAcyclic_iff

end CarvesOut

/-- A maze in one piece has one passage fewer than cells exactly if it has no loop. -/
theorem Maze.Whole.isAcyclic_iff {maze : Maze} (whole : maze.Whole) :
    maze.graph.IsAcyclic ↔ maze.openEdgeCount = maze.size.area - 1 := by
  have positive := maze.size.area_bounds.1
  rw [isAcyclic_iff_ncard_edgeSet maze.support_graph_subset maze.size.finite_board
      maze.size.nonempty_board fun first inside second otherInside =>
        whole first second inside otherInside,
    Size.ncard_board, Maze.openEdgeCount_eq_ncard]
  omega

end Counts

namespace Generator

variable {σ : Type} [RandomSource σ] [LawfulRandomSource σ] {generator : Generator σ}

/-- A fitting plan starts a cycle, and the counts of its finished maze are told from the
    stamped board, whatever is drawn and however the cycle is sliced. Repair takes out one
    wall for each region but one, and none if there is no region; it reaches every cell.
    The passages are one fewer than the cells, plus those stamped, less the cells that
    were not empty, plus the regions. So the maze is perfect exactly if no loop was
    stamped. -/
theorem cycle_counts_from_board {plan : List Placement}
    (fitting : ∀ placement ∈ plan, placement.Fitting generator.maze.size)
    (drawable : ∀ placement ∈ plan, placement.Drawable) (reseed : Option UInt64) :
    ∃ started, (generator.start plan reseed).result = .ok started ∧
      started.maze.size = generator.maze.size ∧
      ∀ last, Steps started last → last.phase = .done →
        last.maze.size = generator.maze.size ∧
        last.lastRepair.wallsRemoved = started.maze.regionCount - 1 ∧
        last.lastRepair.reached = last.maze.size.area ∧
        (last.maze.openEdgeCount : Int) =
          last.maze.size.area - 1 +
            (started.maze.openEdgeCount - started.maze.occupied.ncard +
              started.maze.regionCount) ∧
        (last.maze.openEdgeCount = last.maze.size.area - 1 ↔ started.maze.graph.IsAcyclic) := by
  obtain ⟨started, answered⟩ := start_ok fitting drawable reseed
  have size := size_of_start answered
  refine ⟨started, answered, size, ?_⟩
  intro last steps done
  obtain ⟨carvable, carving⟩ := carvable_of_start answered
  obtain ⟨there, carved, joined⟩ := steps.carvesOut carving done
  obtain ⟨-, -, planted, attached, planting, carves⟩ := carved.carves carvable
  obtain ⟨answer, repairs, repaired⟩ := joinRegions_spec carves.carvable.unvisited there.source
  obtain rfl := Except.ok.inj (joined.symm.trans repairs)
  have grown := (carved.grown carvable).trans repaired.grown
  have lastSize : last.maze.size = started.maze.size := grown.size_eq
  have passages : last.maze.openEdgeCount + started.maze.occupied.ncard + 1 =
      started.maze.openEdgeCount + started.maze.size.area + started.maze.regionCount :=
    carved.openEdgeCount_eq carvable repaired
  refine ⟨lastSize.trans size, carved.wallsRemoved_eq carvable repaired, ?_, ?_, ?_⟩
  · have reached : last.lastRepair.reached = there.maze.size.area := repaired.reached
    rw [reached, carved.size_eq carvable, lastSize]
    rfl
  · rw [lastSize]
    omega
  · have whole : last.maze.Whole := repaired.whole
    rw [← whole.isAcyclic_iff]
    exact carved.isAcyclic_iff carvable repaired

/-- Two strokes of two cells each, a cell apart. -/
def twoStrokes : Pattern := ⟨5, 1, #[0xDF, 0x7F]⟩

/-- A generator for a board of twenty cells. -/
def twentyCells : Generator KeyStream :=
  new (Maze.fresh { width := 5, height := 4 }) (KeyStream.ofSeed 1) (.ofMillis 5)

/-- One wall is taken out between two strokes, and the maze of twenty cells has nineteen passages;
    so the strokes were two regions, without a loop. -/
theorem cycle_counts_from_board_twoStrokes :
    ∃ started last, (twentyCells.start [.fixed ⟨0, 0⟩ twoStrokes] none).result = .ok started ∧
      Steps started last ∧ last.lastRepair.wallsRemoved = 1 ∧ last.maze.openEdgeCount = 19 ∧
      started.maze.regionCount = 2 ∧ started.maze.graph.IsAcyclic := by
  have seen : (twentyCells.start [.fixed ⟨0, 0⟩ twoStrokes] none >>= fun started =>
      started.step 1000 (⟨.zero, .zero⟩ : ManualClock)).result.toOption.map
        (fun last =>
          (last.1.phase, last.1.lastRepair.wallsRemoved, last.1.maze.openEdgeCount)) =
      some (.done, 1, 19) := by
    decide +kernel
  have fitting : ∀ placement ∈ [Placement.fixed ⟨0, 0⟩ twoStrokes],
      placement.Fitting twentyCells.maze.size :=
    List.forall_mem_singleton.mpr ⟨by decide, by decide⟩
  have drawable : ∀ placement ∈ [Placement.fixed ⟨0, 0⟩ twoStrokes], placement.Drawable :=
    List.forall_mem_singleton.mpr trivial
  obtain ⟨started, begun, -, counts⟩ := cycle_counts_from_board fitting drawable none
  obtain ⟨⟨last, _⟩, answered, viewed⟩ := Logged.exists_of_seen seen
  obtain ⟨cycle, cycleBegun, stepped⟩ := Logged.result_bind_eq_ok.mp answered
  obtain rfl := Except.ok.inj (begun.symm.trans cycleBegun)
  simp only [Prod.mk.injEq] at viewed
  obtain ⟨done, taken, passages⟩ := viewed
  have steps : Steps started last := .step stepped .refl
  obtain ⟨size, removed, -, -, perfect⟩ := counts last steps done
  have area : last.maze.size.area = 20 := congrArg Size.area size
  have regions : started.maze.regionCount = 2 := by
    rw [taken] at removed
    omega
  have acyclic : started.maze.graph.IsAcyclic := by
    rw [← perfect, passages, area]
  exact ⟨started, last, begun, steps, taken, passages, regions, acyclic⟩

end Generator

end MazeDial
