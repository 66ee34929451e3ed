import MazeDial.Proofs.Carving
import MazeDial.Proofs.Flooding
import MazeDial.Proofs.Stamping

/-!
# Carved mazes as forests

When carving is done, every part that the maze had before has grown into a region
of its own: the parts are joined no further, every other cell has been attached to
one of them, and no loop has been closed. A maze of empty cells only has grown from
its root to a single tree, and repair finds nothing to do there.
-/

namespace MazeDial

namespace Maze

/-- Whether every cell of a maze is empty. -/
def Vacant (maze : Maze) : Prop :=
  ∀ place, maze.size.Contains place → (maze.get place).empty = true

theorem vacant_fresh (size : Size) : (fresh size).Vacant :=
  fun _ inside => empty_fresh inside

/-- A fresh maze has no passages. -/
theorem graph_fresh (size : Size) : (fresh size).graph = ⊥ := by
  ext place other
  apply iff_of_false _ id
  rintro ⟨side, isOpen, rfl⟩
  have empty : ((fresh size).get place).empty = true :=
    vacant_fresh size place (contains_of_isOpen isOpen)
  exact (carvable_fresh size).isIsolated empty _ ⟨side, isOpen, rfl⟩

theorem openEdgeCount_fresh (size : Size) : (fresh size).openEdgeCount = 0 := by
  rw [openEdgeCount_eq_ncard, graph_fresh, SimpleGraph.edgeSet_bot, Set.ncard_empty]

/-- As many cells are listed as empty in a vacant maze as it has. -/
theorem Vacant.length_emptyCells {maze : Maze} (vacant : maze.Vacant) :
    maze.emptyCells.length = maze.size.area := by
  have all : maze.emptyCells = maze.size.coords := by
    apply List.filter_eq_self.mpr
    intro place member
    exact vacant place (Size.mem_coords.mp member)
  rw [all, Size.length_coords]

/-- A root takes one cell from the empty ones. -/
theorem length_emptyCells_setEmpty {maze : Maze} {root : Coord}
    (empty : (maze.get root).empty = true) :
    maze.emptyCells.length = (maze.setEmpty root false).emptyCells.length + 1 := by
  rw [← List.length_cons (a := root)]
  have absent : root ∉ (maze.setEmpty root false).emptyCells := by
    simp [mem_emptyCells, (flags_clearEmpty root root).1]
  have distinct : (root :: (maze.setEmpty root false).emptyCells).Nodup :=
    List.nodup_cons.mpr ⟨absent, emptyCells_nodup _⟩
  apply List.Perm.length_eq
  apply (List.perm_ext_iff_of_nodup maze.emptyCells_nodup distinct).mpr
  intro place
  rw [List.mem_cons, mem_emptyCells, mem_emptyCells, (flags_clearEmpty root place).1]
  by_cases same : place = root
  · simp [same, empty]
  · simp [same]

end Maze

namespace CarvesOut

variable {σ : Type} [RandomSource σ] [LawfulRandomSource σ] {here there : Station σ}
  (carvable : Carvable here.maze) (carved : CarvesOut here .done there)

include carvable carved

/-- Cells that were not empty reach each other exactly as before. -/
theorem reachable_iff {first second : Coord} (firstOccupied : (here.maze.get first).empty = false)
    (secondOccupied : (here.maze.get second).empty = false) :
    there.maze.graph.Reachable first second ↔ here.maze.graph.Reachable first second := by
  obtain ⟨-, -, planted, attached, planting, carves⟩ := carved.carves carvable
  rw [carves.reachable_iff (planting.occupied firstOccupied) (planting.occupied secondOccupied),
    planting.graph_eq]

/-- Carving opens walls only, and each of them between places that would not reach each
    other otherwise: it closes no loop. -/
theorem isBridge {first second : Coord} (adjacent : there.maze.graph.Adj first second)
    (added : ¬ here.maze.graph.Adj first second) :
    there.maze.graph.IsBridge s(first, second) := by
  obtain ⟨-, -, planted, attached, planting, carves⟩ := carved.carves carvable
  exact carves.grown.linking.isBridge adjacent (planting.graph_eq ▸ added)

/-- Where some cell was not empty, all that were empty have been attached to the parts
    there were. -/
theorem attaches (occupied : ¬ here.maze.Vacant) :
    (∀ place, (here.maze.get place).empty = true →
      ∃ other, here.maze.size.Contains other ∧ (here.maze.get other).empty = false ∧
        there.maze.graph.Reachable place other) ∧
      there.maze.openEdgeCount = here.maze.openEdgeCount + here.maze.emptyCells.length := by
  obtain ⟨-, full, planted, attached, planting, carves⟩ := carved.carves carvable
  cases planting with
  | root vacant => exact absurd vacant occupied
  | unneeded _ _ same =>
    subst same
    constructor
    · intro place empty
      exact carves.reaches_occupied full empty
    · rw [carves.openEdgeCount_eq, carves.length_attached full]

/-- Where every cell was empty, all others have been attached to the root. -/
theorem attaches_to_root (vacant : here.maze.Vacant) :
    ∃ root drawn, here.maze.chooseStart here.source = .ok (some root, drawn) ∧
      (∀ place, here.maze.size.Contains place → there.maze.graph.Reachable place root) ∧
      there.maze.openEdgeCount + 1 = here.maze.openEdgeCount + here.maze.emptyCells.length := by
  obtain ⟨-, full, planted, attached, planting, carves⟩ := carved.carves carvable
  cases planting with
  | unneeded inside occupied => exact nomatch occupied.symm.trans (vacant _ inside)
  | @root root drawn _ chosen same =>
    subst same
    refine ⟨root, drawn, chosen, ?_, ?_⟩
    · intro place inside
      by_cases atRoot : place = root
      · exact atRoot ▸ SimpleGraph.Reachable.refl place
      · have empty : ((here.maze.setEmpty root false).get place).empty = true := by
          simp [(Maze.flags_clearEmpty root place).1, vacant place inside, atRoot]
        obtain ⟨other, within, occupied, reachable⟩ := carves.reaches_occupied full empty
        have onBoard : here.maze.size.Contains other := by simpa using within
        rw [(Maze.flags_clearEmpty root other).1, vacant other onBoard, Bool.true_and,
          bne_eq_false_iff_eq] at occupied
        exact occupied ▸ reachable
    · have empty : (here.maze.get root).empty = true := Maze.empty_of_chooseStart chosen
      rw [carves.openEdgeCount_eq, carves.length_attached full,
        Maze.length_emptyCells_setEmpty empty, Maze.openEdgeCount_eq_ncard,
        Maze.openEdgeCount_eq_ncard, Maze.graph_setEmpty, Nat.add_assoc]

theorem size_eq : there.maze.size = here.maze.size := by
  obtain ⟨-, -, planted, attached, planting, carves⟩ := carved.carves carvable
  rw [carves.size_eq, planting.size_eq]

/-- A vacant maze becomes one region. -/
theorem whole (vacant : here.maze.Vacant) : there.maze.Whole := by
  obtain ⟨root, _, -, reaches, -⟩ := carved.attaches_to_root carvable vacant
  intro place other inside otherInside
  rw [carved.size_eq carvable] at inside otherInside
  exact (reaches place inside).trans (reaches other otherInside).symm

/-- A maze without passages becomes a maze without loops. -/
theorem isAcyclic (walled : here.maze.graph = ⊥) : there.maze.graph.IsAcyclic := by
  obtain ⟨-, -, planted, attached, planting, carves⟩ := carved.carves carvable
  have linking := carves.grown.linking
  rw [planting.graph_eq, walled] at linking
  exact linking.isAcyclic

/-- Repair takes no wall out of a maze carved from a vacant one, draws nothing and
    leaves every cell as it is. -/
theorem needs_no_repair (vacant : here.maze.Vacant) (source : σ) :
    ∃ repaired report, (joinRegions there.maze source).result = .ok (repaired, source, report) ∧
      report.wallsRemoved = 0 ∧ ∀ place, repaired.get place = there.maze.get place := by
  obtain ⟨-, -, planted, attached, planting, carves⟩ := carved.carves carvable
  obtain ⟨⟨repaired, after, report⟩, answered, joined⟩ :=
    joinRegions_spec carves.carvable.unvisited source
  obtain ⟨none, undrawn, unchanged⟩ :=
    joined.unchanged (carved.whole carvable vacant) carves.carvable.unvisited
  obtain rfl : after = source := undrawn
  exact ⟨repaired, report, answered, none, unchanged⟩

end CarvesOut

/-- Carving out a carvable maze, however it is sliced, grows each of its parts. Cells
    that were not empty reach each other exactly as before. Each empty cell is attached,
    by one passage a cell, to one that was not empty or, if all were, to the root chosen.
    No passage that was opened closes a loop. So a fresh maze becomes a spanning tree,
    and repair leaves it alone. -/
theorem carving_grows_forest {σ : Type} [RandomSource σ] [LawfulRandomSource σ]
    {here there : Station σ} (carvable : Carvable here.maze)
    (carved : CarvesOut here .done there) :
    (∀ first second, (here.maze.get first).empty = false → (here.maze.get second).empty = false →
      (there.maze.graph.Reachable first second ↔ here.maze.graph.Reachable first second)) ∧
    (¬ here.maze.Vacant →
      (∀ place, (here.maze.get place).empty = true →
        ∃ other, here.maze.size.Contains other ∧ (here.maze.get other).empty = false ∧
          there.maze.graph.Reachable place other) ∧
      there.maze.openEdgeCount = here.maze.openEdgeCount + here.maze.emptyCells.length) ∧
    (here.maze.Vacant →
      ∃ root drawn, here.maze.chooseStart here.source = .ok (some root, drawn) ∧
        (∀ place, here.maze.size.Contains place → there.maze.graph.Reachable place root) ∧
        there.maze.openEdgeCount + 1 = here.maze.openEdgeCount + here.maze.emptyCells.length) ∧
    (∀ first second, there.maze.graph.Adj first second → ¬ here.maze.graph.Adj first second →
      there.maze.graph.IsBridge s(first, second)) ∧
    (here.maze = Maze.fresh here.maze.size →
      there.maze.Whole ∧ there.maze.graph.IsAcyclic ∧
      there.maze.openEdgeCount = here.maze.size.area - 1 ∧
      ∀ source : σ, ∃ repaired report,
        (joinRegions there.maze source).result = .ok (repaired, source, report) ∧
          report.wallsRemoved = 0 ∧ ∀ place, repaired.get place = there.maze.get place) := by
  refine ⟨fun first second => carved.reachable_iff carvable, carved.attaches carvable,
    carved.attaches_to_root carvable, fun first second => carved.isBridge carvable, fun fresh => ?_⟩
  have vacant : here.maze.Vacant := by
    rw [fresh]
    exact Maze.vacant_fresh _
  refine ⟨carved.whole carvable vacant, carved.isAcyclic carvable ?_, ?_,
    carved.needs_no_repair carvable vacant⟩
  · rw [fresh, Maze.graph_fresh]
  · obtain ⟨-, -, -, -, counted⟩ := carved.attaches_to_root carvable vacant
    have closed : here.maze.openEdgeCount = 0 := by rw [fresh, Maze.openEdgeCount_fresh]
    rw [vacant.length_emptyCells, closed] at counted
    omega

/-- One call carves a maze of four cells out, to a tree of three passages. -/
theorem carving_grows_forest_fresh :
    ∃ there : Station KeyStream,
      CarvesOut ⟨Maze.fresh { width := 2, height := 2 }, KeyStream.ofSeed 0, ⟨0, 0⟩, none⟩ .done
        there ∧ there.maze.Whole ∧ there.maze.graph.IsAcyclic ∧ there.maze.openEdgeCount = 3 := by
  obtain ⟨slice, answered, done⟩ := exists_carve_done_fresh
  have called := Calls.of_carve answered
  rw [done] at called
  have carved : CarvesOut ⟨Maze.fresh { width := 2, height := 2 }, KeyStream.ofSeed 0, ⟨0, 0⟩, none⟩
      .done slice.station := .last called nofun
  obtain ⟨-, -, -, -, tree⟩ := carving_grows_forest (carvable_fresh _) carved
  obtain ⟨whole, acyclic, counted, -⟩ := tree rfl
  exact ⟨slice.station, carved, whole, acyclic, counted⟩

end MazeDial
