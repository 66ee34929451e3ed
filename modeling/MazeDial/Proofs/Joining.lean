import MazeDial.Proofs.Regions

/-!
# Joining regions, wall by wall

Which walls a repair takes out, in which order, and why no others. It reports each wall
when it takes it out, so that its notes are a record of them; and the maze it leaves is
the one it found with these walls out, and nothing else changed.

A wall is taken out only where a flood is walled in. No passage then leads from the marked
cells to the others, so that each wall on the boundary parts two components of the maze as
it is at that moment. This holds of any flood, wherever it stands and whatever it has
marked. Each wall makes one component of two; that one is left in the end is known of the
floods that start with a clean board, so as many walls were taken out as there were
components, less one.
-/

namespace MazeDial

/-- The wall that a note reports to be taken out, by a cell and its side. -/
def Note.wallTaken : Note → Option (Coord × Side)
  | .opened side place _ => some (place, side)
  | _ => none

/-- The walls that a computation reports to have taken out, the first one first. -/
def Logged.wallsTaken {α : Type} (computation : Logged α) : List (Coord × Side) :=
  computation.notes.filterMap Note.wallTaken

/-- A sequence takes out the walls of its first part, then those of its second. -/
theorem Logged.wallsTaken_bind {α β : Type} {first : Logged α} {next : α → Logged β} {value : α}
    (answered : first.result = .ok value) :
    (first >>= next).wallsTaken = first.wallsTaken ++ (next value).wallsTaken := by
  rw [wallsTaken, notes_bind_of_ok answered, List.filterMap_append]
  rfl

namespace Maze

variable {base maze : Maze} {place : Coord} {side : Side}

/-- Takes out one wall after another. -/
def takeOut (maze : Maze) (walls : List (Coord × Side)) : Maze :=
  walls.foldl (fun maze wall => maze.setWall wall.1 wall.2 false) maze

@[simp] theorem takeOut_nil (maze : Maze) : maze.takeOut [] = maze := rfl

@[simp] theorem takeOut_cons (maze : Maze) (wall : Coord × Side) (rest : List (Coord × Side)) :
    maze.takeOut (wall :: rest) = (maze.setWall wall.1 wall.2 false).takeOut rest := rfl

/-- Each of some walls parts two components when its turn comes to be taken out. -/
def PartsInTurn : Maze → List (Coord × Side) → Prop
  | _, [] => True
  | maze, wall :: rest =>
    maze.Parts wall.1 wall.2 ∧ (maze.setWall wall.1 wall.2 false).PartsInTurn rest

/-- Walls taken out in turn are out, and all others are as they were. -/
theorem wall_takeOut {walls : List (Coord × Side)} (inTurn : maze.PartsInTurn walls) :
    (maze.takeOut walls).wall place side = true ↔
      maze.wall place side = true ∧
        ∀ wall ∈ walls, s(place, place.step side) ≠ s(wall.1, wall.1.step wall.2) := by
  induction walls generalizing maze with
  | nil => simp
  | cons wall rest inductionHypothesis =>
    obtain ⟨parts, later⟩ := inTurn
    rw [takeOut_cons, inductionHypothesis later,
      wall_setWall (contains_keeper parts.inside parts.across), List.forall_mem_cons, ← and_assoc]
    split <;> simp [*]

/-- Two mazes of one size have the same walls. -/
structure SameWalls (base maze : Maze) : Prop where
  size_eq : maze.size = base.size
  wall_eq : ∀ place side, maze.wall place side = base.wall place side

namespace SameWalls

protected theorem refl (maze : Maze) : SameWalls maze maze :=
  ⟨rfl, fun _ _ => rfl⟩

protected theorem trans {middle : Maze} (first : SameWalls base middle)
    (second : SameWalls middle maze) : SameWalls base maze :=
  ⟨second.size_eq.trans first.size_eq,
    fun place side => (second.wall_eq place side).trans (first.wall_eq place side)⟩

/-- Writing the same wall in both leaves them alike. -/
theorem setWall (same : SameWalls base maze) (place : Coord) (side : Side) (stands : Bool) :
    SameWalls (base.setWall place side stands) (maze.setWall place side stands) := by
  refine ⟨by simp [same.size_eq], fun other otherSide => ?_⟩
  by_cases kept : base.size.Contains (place.keeper side)
  · rw [wall_setWall kept, wall_setWall (same.size_eq.symm ▸ kept), same.wall_eq]
  · rw [setWall_outside kept, setWall_outside (same.size_eq.symm ▸ kept), same.wall_eq]

/-- So does taking out the same walls of both. -/
theorem takeOut (same : SameWalls base maze) (walls : List (Coord × Side)) :
    SameWalls (base.takeOut walls) (maze.takeOut walls) := by
  induction walls generalizing base maze with
  | nil => exact same
  | cons wall rest inductionHypothesis => exact inductionHypothesis (same.setWall ..)

/-- The same walls part components of both. -/
theorem parts (same : SameWalls base maze) (parts : maze.Parts place side) :
    base.Parts place side where
  inside := same.size_eq ▸ parts.inside
  across := same.size_eq ▸ parts.across
  stands := (same.wall_eq place side).symm.trans parts.stands
  apart := graph_eq_of_wall_eq same.size_eq same.wall_eq ▸ parts.apart

theorem partsInTurn {walls : List (Coord × Side)} (same : SameWalls base maze)
    (inTurn : maze.PartsInTurn walls) : base.PartsInTurn walls := by
  induction walls generalizing base maze with
  | nil => trivial
  | cons wall rest inductionHypothesis =>
    exact ⟨same.parts inTurn.1, inductionHypothesis (same.setWall ..) inTurn.2⟩

end SameWalls

/-- Marks are no walls. -/
theorem sameWalls_setVisited (maze : Maze) (place : Coord) (value : Bool) :
    SameWalls maze (maze.setVisited place value) :=
  ⟨size_setVisited .., wall_setVisited maze place value⟩

end Maze

namespace Flood

variable {σ : Type} {flood breached final : Flood σ} {walls : List (Coord × Side)}

/-- One flood has come from another by taking out walls, each of which parted two components
    when its turn came. Marks do not count. -/
structure TakesOut (flood : Flood σ) (walls : List (Coord × Side)) (final : Flood σ) : Prop where
  sameWalls : Maze.SameWalls (flood.maze.takeOut walls) final.maze
  inTurn : flood.maze.PartsInTurn walls
  counted : final.report.wallsRemoved = flood.report.wallsRemoved + walls.length

/-- Marking the cursor takes out no wall. -/
theorem takesOut_mark (flood : Flood σ) : flood.TakesOut [] flood.mark := by
  unfold mark
  split
  · exact ⟨.refl _, trivial, rfl⟩
  · exact ⟨Maze.sameWalls_setVisited .., trivial, rfl⟩

/-- Taking out walls after none is taking them out. -/
theorem TakesOut.after {middle : Flood σ} (first : flood.TakesOut [] middle)
    (second : middle.TakesOut walls final) : flood.TakesOut walls final where
  sameWalls := (first.sameWalls.takeOut walls).trans second.sameWalls
  inTurn := first.sameWalls.partsInTurn second.inTurn
  counted := second.counted.trans (congrArg (· + walls.length) first.counted)

/-- A flood that goes on from another place has the walls it had. -/
theorem TakesOut.moved {place : Coord} (takes : TakesOut { flood with cursor := place } walls final) :
    flood.TakesOut walls final :=
  ⟨takes.sameWalls, takes.inTurn, takes.counted⟩

variable [RandomSource σ]

/-- A breach takes out the wall that it reports, which is one of those around the flood. -/
theorem breach_ok (answered : (flood.breach walls).result = .ok breached) :
    ∃ place side, (place, side) ∈ walls ∧ (flood.breach walls).wallsTaken = [(place, side)] ∧
      breached.maze = flood.maze.setWall place side false ∧
      breached.report.wallsRemoved = flood.report.wallsRemoved + 1 := by
  rw [breach, Logged.result_bind_eq_ok] at answered
  obtain ⟨⟨choice, after⟩, drawn, answered⟩ := answered
  rw [breach, Logged.wallsTaken_bind drawn]
  cases chosen : walls[choice]? with
  | none =>
    simp only [chosen] at answered
    cases answered
  | some wall =>
    obtain ⟨place, side⟩ := wall
    simp only [chosen] at answered ⊢
    obtain rfl := Except.ok.inj answered
    exact ⟨place, side, List.mem_of_getElem? chosen, rfl, rfl, rfl⟩

/-- A flood that is walled in takes out a wall that parts two components, and goes on. -/
theorem takesOut_breach {rest : List (Coord × Side)} (walled : flood.frontier = .walled walls)
    (answered : (flood.breach walls).result = .ok breached) (further : breached.TakesOut rest final) :
    flood.TakesOut ((flood.breach walls).wallsTaken ++ rest) final := by
  obtain ⟨place, side, member, reported, opened, counted⟩ := breach_ok answered
  obtain ⟨rfl, -, sealed⟩ := Maze.walls_of_boundary (boundary_of_frontier walled)
  obtain ⟨parts, -⟩ := Maze.parts_of_mem_boundaryPairs sealed member
  have same := further.sameWalls
  rw [opened] at same
  rw [reported]
  refine ⟨same, ⟨parts, opened ▸ further.inTurn⟩, ?_⟩
  · rw [further.counted, counted, List.singleton_append, List.length_cons]
    omega

/-- A flood that comes to an end has taken out the walls that it reports. -/
theorem spread_takesOut {passes : Nat} (spreads : (flood.spread passes).result = .ok final) :
    flood.TakesOut (flood.spread passes).wallsTaken final := by
  induction passes generalizing flood with
  | zero => cases spreads
  | succ passes inductionHypothesis =>
    rw [spread] at spreads ⊢
    apply flood.takesOut_mark.after
    cases next : flood.mark.frontier with
    | «open» place =>
      simp only [next] at spreads ⊢
      exact (inductionHypothesis spreads).moved
    | walled walls =>
      simp only [next, Logged.result_bind_eq_ok] at spreads ⊢
      obtain ⟨breached, answered, spreads⟩ := spreads
      rw [Logged.wallsTaken_bind answered]
      exact takesOut_breach next answered (inductionHypothesis spreads)
    | none =>
      simp only [next] at spreads ⊢
      obtain rfl := Except.ok.inj spreads
      exact ⟨.refl _, trivial, rfl⟩

end Flood

/-- The number of components that passages make of the cells of a maze. -/
noncomputable def Maze.componentCount (maze : Maze) : Nat :=
  Nat.card (maze.graph.induce maze.size.board).ConnectedComponent

variable {σ : Type} [RandomSource σ] {base : Maze} {source : σ}

/-- A repair has taken out the walls that it reports, and as many as it counts. -/
theorem joinRegions_takesOut {final : Maze × σ × RepairReport}
    (joined : (joinRegions base source).result = .ok final) :
    Maze.SameWalls (base.takeOut (joinRegions base source).wallsTaken) final.1 ∧
      base.PartsInTurn (joinRegions base source).wallsTaken ∧
      final.2.2.wallsRemoved = (joinRegions base source).wallsTaken.length := by
  unfold joinRegions at joined ⊢
  split at joined
  · cases joined
  · next clean =>
    obtain ⟨flooded, spreads, answered⟩ := Logged.result_bind_eq_ok.mp joined
    obtain rfl := Except.ok.inj answered
    obtain ⟨sameWalls, inTurn, counted⟩ := Flood.spread_takesOut spreads
    have reported : (pure (flooded.maze.clearVisited, flooded.source, flooded.report) :
      Logged (Maze × σ × RepairReport)).wallsTaken = [] := rfl
    rw [if_neg clean, Logged.wallsTaken_bind spreads, reported, List.append_nil]
    refine ⟨sameWalls.trans ⟨Maze.size_clearVisited _, Maze.wall_clearVisited _⟩, inTurn, ?_⟩
    exact counted.trans (Nat.zero_add _)

/-- Joining the regions of a maze without visited cells always succeeds. It takes out the walls
    that it reports, one for each component but one; each of them stands between two components
    when its turn comes, and is chosen by one draw. Every other wall and all empty flags are as
    before, no cell is visited, and every cell reaches every other one. The report tells
    the cells of the board and the walls taken out. So a maze of one component is left as it is,
    and nothing is drawn for it. -/
theorem joining_takes_one_wall_per_component [LawfulRandomSource σ]
    (unvisited : ∀ place, base.size.Contains place → (base.get place).visited = false) (source : σ) :
    ∃ maze after report walls, (joinRegions base source).result = .ok (maze, after, report) ∧
      (joinRegions base source).wallsTaken = walls ∧
      walls.length + 1 = base.componentCount ∧ base.PartsInTurn walls ∧
      report = ⟨base.size.area, walls.length⟩ ∧ IndexDraws source walls.length after ∧
      maze.size = base.size ∧ maze.Whole ∧
      (∀ place side, maze.wall place side = true ↔ base.wall place side = true ∧
        ∀ wall ∈ walls, s(place, place.step side) ≠ s(wall.1, wall.1.step wall.2)) ∧
      (∀ place, (maze.get place).empty = (base.get place).empty ∧
        (maze.get place).visited = false) ∧
      (base.Whole → after = source ∧ ∀ place, maze.get place = base.get place) := by
  have clean : ∀ place, (base.get place).visited = false := by
    intro place
    by_cases inside : base.size.Contains place
    · exact unvisited place inside
    · rw [Maze.get_outside inside]
      rfl
  obtain ⟨⟨maze, after, report⟩, joined, repaired⟩ := joinRegions_spec clean source
  obtain ⟨sameWalls, inTurn, counted⟩ := joinRegions_takesOut joined
  have components : report.wallsRemoved + 1 = base.componentCount :=
    repaired.wallsRemoved_add_one.trans (ncard_componentsOf base.support_graph_subset)
  have size_eq : maze.size = base.size := by
    obtain ⟨taken, -, opened⟩ := repaired.opened
    exact opened.size_eq
  have counts : report = ⟨base.size.area, (joinRegions base source).wallsTaken.length⟩ := by
    rw [← counted, ← repaired.reached]
  refine ⟨maze, after, report, _, joined, rfl, counted ▸ components, inTurn, counts,
    counted ▸ repaired.draws, size_eq, repaired.whole, ?_, ?_, ?_⟩
  · intro place side
    rw [sameWalls.wall_eq, Maze.wall_takeOut inTurn]
  · exact fun place => ⟨repaired.empty_eq place, repaired.unvisited place⟩
  · intro whole
    obtain ⟨-, undrawn, unchanged⟩ := repaired.unchanged whole clean
    exact ⟨undrawn, unchanged⟩

/-- A board of twenty cells with one passage. -/
def onePassage : Maze := Generator.twentyCells.maze.setWall ⟨0, 0⟩ .right false

/-- Eighteen walls are taken out of it, so it had nineteen components. -/
theorem joining_takes_one_wall_per_component_onePassage :
    (∀ place, onePassage.size.Contains place → (onePassage.get place).visited = false) ∧
      ∃ maze after, (joinRegions onePassage (KeyStream.ofSeed 1)).result =
        .ok (maze, after, ⟨20, 18⟩) ∧ maze.Whole ∧ onePassage.componentCount = 19 := by
  have unvisited : ∀ place, onePassage.size.Contains place →
      (onePassage.get place).visited = false := by
    intro place _
    rw [onePassage, Maze.visited_setWall]
    exact (carvable_fresh _).unvisited place
  have seen : (joinRegions onePassage (KeyStream.ofSeed 1)).result.toOption.map
      (fun final => final.2.2) = some ⟨20, 18⟩ := by
    decide +kernel
  obtain ⟨maze, after, report, walls, joined, -, components, -, counts, -, -, whole, -⟩ :=
    joining_takes_one_wall_per_component unvisited (KeyStream.ofSeed 1)
  obtain ⟨final, answered, viewed⟩ := Logged.exists_of_seen seen
  obtain rfl := Except.ok.inj (joined.symm.trans answered)
  obtain rfl : report = ⟨20, 18⟩ := viewed
  have eighteen : walls.length = 18 := (congrArg RepairReport.wallsRemoved counts).symm
  exact ⟨unvisited, maze, after, joined, whole, by rw [← components, eighteen]⟩

end MazeDial
