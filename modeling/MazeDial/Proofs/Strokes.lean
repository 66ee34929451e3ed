import MazeDial.Proofs.Cycles

/-!
# Strokes

What a plan has stamped on a board stays as it was stamped. After the stamping a maze
only grows: a path attaches cells that had no passage, and repair takes out walls
between regions that are apart, so that every wall that goes was between two places
that could not reach each other. A walk does raise walls while it erases its loops,
but they are walls of its own trail, which stood in the beginning; between two calls
nothing of that is left to see.

A stroke is therefore never filled in. Nor is it cut through, where it bends back
beside itself: the wall there stands between cells that reach each other along the
stroke.
-/

namespace MazeDial

namespace Maze

variable {base middle maze : Maze}

/-- A maze has grown from another one: walls have been taken out, each between two
    places that could not reach each other until then. -/
structure Grown (base maze : Maze) : Prop where
  size_eq : maze.size = base.size
  linking : ∃ count, Linking base.graph count maze.graph

namespace Grown

protected theorem refl (maze : Maze) : Grown maze maze :=
  ⟨rfl, 0, .start⟩

protected theorem trans (first : Grown base middle) (second : Grown middle maze) :
    Grown base maze := by
  obtain ⟨sameSize, count, grown⟩ := first
  obtain ⟨stillSame, further, more⟩ := second
  exact ⟨stillSame.trans sameSize, count + further, grown.trans more⟩

end Grown

/-- A maze has kept the strokes of a board. Between cells of the board, a wall that was
    down is down, and one that stood between cells reaching each other stands. -/
structure KeepsStrokes (board maze : Maze) : Prop where
  size_eq : maze.size = board.size
  down : ∀ place side, board.size.Contains place → board.size.Contains (place.step side) →
    board.wall place side = false → maze.wall place side = false
  standing : ∀ place side, board.size.Contains place → board.size.Contains (place.step side) →
    board.graph.Reachable place (place.step side) → board.wall place side = true →
      maze.wall place side = true

/-- A maze that has grown keeps the strokes it has grown from. -/
theorem Grown.keepsStrokes {board : Maze} (grown : Grown board maze) :
    board.KeepsStrokes maze := by
  obtain ⟨size_eq, count, linking⟩ := grown
  constructor
  · exact size_eq
  · intro place side inside across down
    have before : board.graph.Adj place (place.step side) := (adj_step_iff inside across).mpr down
    exact (adj_step_iff (size_eq ▸ inside) (size_eq ▸ across)).mp (linking.le before)
  · intro place side inside across reachable stands
    by_contra fallen
    have passage : maze.graph.Adj place (place.step side) :=
      (adj_step_iff (size_eq ▸ inside) (size_eq ▸ across)).mpr (Bool.eq_false_iff.mpr fallen)
    have added : ¬ board.graph.Adj place (place.step side) := by
      rw [adj_step_iff inside across, stands]
      exact Bool.noConfusion
    exact linking.not_reachable_of_added passage added reachable

end Maze

/-- Planting a root and carving from it lets a maze grow. -/
theorem Planted.grown {σ : Type} [RandomSource σ] {maze after : Maze} {source : σ}
    {planted : Maze × σ} {attached : List Coord} (planting : Planted maze source planted)
    (carves : Carves planted.1 attached after) : Maze.Grown maze after := by
  have linking := carves.grown.linking
  rw [planting.graph_eq] at linking
  exact ⟨carves.size_eq.trans planting.size_eq, attached.length, linking⟩

/-- So does repair. -/
theorem Repaired.grown {σ : Type} [RandomSource σ] {maze : Maze} {source : σ}
    {final : Maze × σ × RepairReport} (repaired : Repaired maze source final) :
    Maze.Grown maze final.1 := by
  obtain ⟨taken, -, opened⟩ := repaired.opened
  exact ⟨opened.size_eq, final.2.2.wallsRemoved, repaired.linking⟩

namespace Generator

variable {σ : Type} [RandomSource σ] {generator next : Generator σ}

/-- A cycle starts on a board of the size there was. -/
theorem size_of_start {started : Generator σ} {plan : List Placement} {reseed : Option UInt64}
    (answered : (generator.start plan reseed).result = .ok started) :
    started.maze.size = generator.maze.size := by
  obtain ⟨board, stamped, standing, -⟩ := station_of_start answered
  have kept : ∀ (maze : Maze) place side, maze.size = generator.maze.size →
      (maze.knockDown place side).size = generator.maze.size :=
    fun _ _ _ size => (Maze.size_knockDown ..).trans size
  have fresh : (Maze.fresh generator.maze.size).size = generator.maze.size := rfl
  have same : started.maze = board.1 := congrArg Station.maze standing
  rw [same]
  exact stampAll_stable kept fresh stamped

variable [LawfulRandomSource σ]

/-- A step lets the maze grow. -/
theorem Sound.grown (sound : generator.Sound) (moves : Moves generator next) :
    generator.maze.Grown next.maze := by
  cases moves with
  | rest => exact .refl _
  | paused carving called =>
    obtain ⟨-, planted, attached, planting, carves⟩ := called.carves (sound.carvable carving)
    exact planting.grown carves
  | @finished there final _ carving called joined same =>
    obtain ⟨-, planted, attached, planting, carves⟩ := called.carves (sound.carvable carving)
    obtain ⟨answer, answered, repaired⟩ := joinRegions_spec carves.carvable.unvisited there.source
    obtain rfl := Except.ok.inj (joined.symm.trans answered)
    have mended := repaired.grown
    rw [← same] at mended
    exact (planting.grown carves).trans mended
  | repaired repairing => exact absurd repairing sound.settled

/-- So do any number of steps, and what holds between two calls they preserve. -/
theorem Steps.grown (steps : Steps generator next) (sound : generator.Sound) :
    next.Sound ∧ generator.maze.Grown next.maze := by
  induction steps with
  | refl => exact ⟨sound, .refl _⟩
  | step answered _ inductionHypothesis =>
    have moves := step_moves answered
    obtain ⟨kept, further⟩ := inductionHypothesis (sound.moves moves)
    exact ⟨kept, (sound.grown moves).trans further⟩

/-- A fitting plan starts a cycle. Between any two of its steps, and in the maze that is
    handed out, the strokes of the stamped board are kept: no wall between two cells that
    was down is raised again, and none that stood between two cells reaching each other
    is taken out. -/
theorem cycle_keeps_strokes {generator : Generator σ} {plan : List Placement}
    (fitting : ∀ placement ∈ plan, placement.Fitting generator.maze.size)
    (drawable : ∀ placement ∈ plan, placement.Drawable) (reseed : Option UInt64) :
    ∃ started, (generator.start plan reseed).result = .ok started ∧
      started.maze.size = generator.maze.size ∧
      ∀ later, Steps started later →
        started.maze.KeepsStrokes later.maze ∧
        ∀ handed, later.finished = some handed ∨ later.collect.1 = some handed →
          started.maze.KeepsStrokes handed := by
  obtain ⟨started, answered⟩ := start_ok fitting drawable reseed
  refine ⟨started, answered, size_of_start answered, ?_⟩
  intro later steps
  have kept := (steps.grown (sound_of_start answered)).2.keepsStrokes
  refine ⟨kept, ?_⟩
  intro handed out
  obtain ⟨-, rfl⟩ := done_of_handed_out out
  exact kept

/-- A stroke that leads down, to the right and up again, and ends beside where it began. -/
def bend : Pattern := ⟨2, 2, #[0xF8]⟩

/-- A generator for a board of thirty-six cells. -/
def thirtySixCells : Generator KeyStream :=
  new (Maze.fresh { width := 6, height := 6 }) (KeyStream.ofSeed 1) (.ofMillis 5)

/-- When the maze around a bend is done, the stroke is open, and the wall between its two
    ends stands. -/
theorem cycle_keeps_strokes_bend :
    ∃ started last, (thirtySixCells.start [.fixed ⟨0, 0⟩ bend] none).result = .ok started ∧
      Steps started last ∧ last.phase = .done ∧ last.maze.wall ⟨0, 0⟩ .down = false ∧
      last.maze.wall ⟨0, 0⟩ .right = true := by
  have boardSeen : (thirtySixCells.start [.fixed ⟨0, 0⟩ bend] none).result.toOption.map (fun started =>
      (started.maze.isOpen ⟨0, 0⟩ .down, started.maze.isOpen ⟨0, 1⟩ .right,
        started.maze.isOpen ⟨1, 1⟩ .up, started.maze.wall ⟨0, 0⟩ .right)) =
      some (true, true, true, true) := by
    decide +kernel
  have cycleSeen : (thirtySixCells.start [.fixed ⟨0, 0⟩ bend] none >>= fun started =>
      started.step 1000 (⟨.zero, .zero⟩ : ManualClock)).result.toOption.map
        (fun last => last.1.phase) = some .done := by
    decide +kernel
  have fitting : ∀ placement ∈ [Placement.fixed ⟨0, 0⟩ bend],
      placement.Fitting thirtySixCells.maze.size :=
    List.forall_mem_singleton.mpr ⟨by decide, by decide⟩
  have drawable : ∀ placement ∈ [Placement.fixed ⟨0, 0⟩ bend], placement.Drawable :=
    List.forall_mem_singleton.mpr trivial
  obtain ⟨started, begun, -, keeps⟩ := cycle_keeps_strokes fitting drawable none
  obtain ⟨board, boardBegun, seen⟩ := Logged.exists_of_seen boardSeen
  obtain rfl := Except.ok.inj (begun.symm.trans boardBegun)
  obtain ⟨⟨last, _⟩, answered, done⟩ := Logged.exists_of_seen cycleSeen
  obtain ⟨cycle, cycleBegun, stepped⟩ := Logged.result_bind_eq_ok.mp answered
  obtain rfl := Except.ok.inj (begun.symm.trans cycleBegun)
  simp only [Prod.mk.injEq] at seen
  obtain ⟨down, right, up, stands⟩ := seen
  have steps : Steps started last := .step stepped .refl
  obtain ⟨kept, -⟩ := keeps last steps
  have inside : started.maze.size.Contains ⟨0, 0⟩ := Size.contains_corner _
  have below : started.maze.size.Contains (Coord.step ⟨0, 0⟩ .down) := (Maze.isOpen_iff.mp down).1
  have beside : started.maze.size.Contains (Coord.step ⟨0, 0⟩ .right) := (Maze.isOpen_iff.mp up).1
  have along : started.maze.graph.Reachable ⟨0, 0⟩ (Coord.step ⟨0, 0⟩ .right) := by
    have first : started.maze.graph.Adj ⟨0, 0⟩ ⟨0, 1⟩ := ⟨.down, down, rfl⟩
    have second : started.maze.graph.Adj ⟨0, 1⟩ ⟨1, 1⟩ := ⟨.right, right, rfl⟩
    have third : started.maze.graph.Adj ⟨1, 1⟩ ⟨1, 0⟩ := ⟨.up, up, rfl⟩
    exact first.reachable.trans (second.reachable.trans third.reachable)
  exact ⟨started, last, begun, steps, done,
    kept.down ⟨0, 0⟩ .down inside below (Maze.isOpen_iff.mp down).2,
    kept.standing ⟨0, 0⟩ .right inside beside along stands⟩

end Generator

end MazeDial
