import MazeDial.Proofs.Boundaries
import MazeDial.Proofs.Draws
import MazeDial.Proofs.Growth
import MazeDial.Repair.Flood

/-!
# Floods that reach everything

A flood is described by the list of the cells it has marked: they all reach the
cursor, and there is one for each cell counted. A wall that it takes out stands
between a cell marked and one not, while no passage leads from the ones to the
others; so each wall joins two regions that were apart, and a maze of one region
keeps all its walls.

The number of passes is bounded by the cells not yet marked: at an unmarked
cursor the next pass marks one, and a flood never stands at a marked cursor
unless an unmarked cell is one passage away.
-/

namespace MazeDial

open SimpleGraph

variable {σ : Type}

/-- What a flood of a maze has done, with the cells it has marked. -/
structure Floods [RandomSource σ] (base : Maze) (first : σ) (marks : List Coord)
    (flood : Flood σ) : Prop where
  opened : ∃ taken ≤ base.size.grid, Maze.Opened base taken flood.maze
  linking : Linking base.graph flood.report.wallsRemoved flood.maze.graph
  draws : IndexDraws first flood.report.wallsRemoved flood.source
  empty_eq : ∀ place, (flood.maze.get place).empty = (base.get place).empty
  visited_iff : ∀ place, (flood.maze.get place).visited = true ↔ place ∈ marks
  nodup : marks.Nodup
  reached : flood.report.reached = marks.length
  inside : base.size.Contains flood.cursor
  together : ∀ place ∈ marks, flood.maze.graph.Reachable flood.cursor place

/-- A flood can go on by itself: the cursor is unmarked, or an unmarked cell is one
    passage away. -/
def Flood.Ahead (flood : Flood σ) : Prop :=
  (flood.maze.get flood.cursor).visited = false ∨ ∃ next, flood.maze.floodNext flood.cursor = some next

namespace Maze

variable {maze : Maze}

/-- A flood goes on to an unmarked cell one passage away. -/
theorem floodNext_eq_some {place next : Coord} (found : maze.floodNext place = some next) :
    maze.graph.Adj place next ∧ (maze.get next).visited = false := by
  have member := List.mem_of_find?_eq_some found
  obtain ⟨side, listed, rfl⟩ := List.mem_map.mp member
  have unmarked := List.find?_some found
  exact ⟨⟨side, (List.mem_filter.mp listed).2, rfl⟩, by simpa using unmarked⟩

/-- A flood goes on if there is an unmarked cell one passage away. -/
theorem exists_floodNext {place : Coord} {side : Side} (isOpen : maze.isOpen place side = true)
    (unmarked : (maze.get (place.step side)).visited = false) :
    ∃ next, maze.floodNext place = some next := by
  have tried : side ∈ floodOrder := by cases side <;> decide
  have listed : place.step side ∈ (floodOrder.filter (maze.isOpen place)).map place.step :=
    List.mem_map_of_mem (List.mem_filter.mpr ⟨tried, isOpen⟩)
  cases found : maze.floodNext place with
  | some next => exact ⟨next, rfl⟩
  | none =>
    have marked := List.find?_eq_none.mp found _ listed
    simp [unmarked] at marked

end Maze

namespace Flood

variable {flood : Flood σ}

/-- A marked cursor is not marked again. -/
theorem mark_of_visited (marked : (flood.maze.get flood.cursor).visited = true) :
    flood.mark = flood := by
  rw [Flood.mark, if_pos marked]

/-- A flood that finds itself walled in has scanned the boundary. -/
theorem boundary_of_frontier {walls : List (Coord × Side)}
    (walled : flood.frontier = .walled walls) : flood.maze.boundary = .walled walls := by
  unfold frontier at walled
  split at walled
  · cases walled
  · exact walled

/-- At a passage that leads from a marked cell to an unmarked one, whichever of the
    two it starts from, a flood can go on by itself. -/
theorem ahead_of_isOpen {place : Coord} {side : Side} (here : flood.cursor = place)
    (isOpen : flood.maze.isOpen place side = true)
    (differ : (flood.maze.get (place.step side)).visited ≠ (flood.maze.get place).visited) :
    flood.Ahead := by
  subst here
  cases marked : (flood.maze.get flood.cursor).visited with
  | false => exact .inl marked
  | true =>
    rw [marked, ne_eq, Bool.not_eq_true] at differ
    exact .inr (Maze.exists_floodNext isOpen differ)

/-- The flood with a wall taken out, which goes on there. -/
def through (flood : Flood σ) (place : Coord) (side : Side) (source : σ) : Flood σ where
  maze := flood.maze.setWall place side false
  source := source
  cursor := place
  report := { flood.report with wallsRemoved := flood.report.wallsRemoved + 1 }

/-- The wall whose number is drawn is taken out. -/
theorem breach_drawn [RandomSource σ] {walls : List (Coord × Side)} {choice : Nat} {after : σ}
    {place : Coord} {side : Side}
    (drawn : drawIndex 0 (walls.length - 1) flood.source = .ok (choice, after))
    (chosen : walls[choice]? = some (place, side)) :
    (flood.breach walls).result = .ok (flood.through place side after) := by
  rw [breach, Logged.result_bind_eq_ok]
  refine ⟨(choice, after), drawn, ?_⟩
  simp only [chosen]
  rfl

end Flood

namespace Floods

variable [RandomSource σ] {base : Maze} {first : σ} {marks : List Coord} {flood : Flood σ}

theorem size_eq (floods : Floods base first marks flood) : flood.maze.size = base.size := by
  obtain ⟨_, _, opened⟩ := floods.opened
  exact opened.size_eq

/-- Marked cells are on the board. -/
theorem contains (floods : Floods base first marks flood) {place : Coord} (marked : place ∈ marks) :
    base.size.Contains place := by
  by_contra outside
  rw [← floods.size_eq] at outside
  have visited := (floods.visited_iff place).mpr marked
  rw [Maze.get_outside outside] at visited
  cases visited

/-- Not all cells are marked as long as one is not. -/
theorem length_lt (floods : Floods base first marks flood) {place : Coord}
    (inside : base.size.Contains place) (unmarked : place ∉ marks) :
    marks.length < base.size.area := by
  apply Size.length_le_area (List.nodup_cons.mpr ⟨unmarked, floods.nodup⟩)
  intro other member
  rcases List.mem_cons.mp member with rfl | marked
  · exact inside
  · exact floods.contains marked

/-- Not all cells are marked as long as a flood can go on by itself. -/
theorem length_lt_of_ahead (floods : Floods base first marks flood) (ahead : flood.Ahead) :
    marks.length < base.size.area := by
  have absent {place : Coord} (unmarked : (flood.maze.get place).visited = false) :
      place ∉ marks := by
    intro member
    rw [(floods.visited_iff _).mpr member] at unmarked
    cases unmarked
  rcases ahead with unmarked | ⟨next, found⟩
  · exact floods.length_lt floods.inside (absent unmarked)
  · obtain ⟨adjacent, unmarked⟩ := Maze.floodNext_eq_some found
    have inside : base.size.Contains next :=
      floods.size_eq ▸ (Maze.graph_le_grid _ adjacent).2.1
    exact floods.length_lt inside (absent unmarked)

/-- A flood may go on at any place of the board that the cursor reaches. -/
theorem move (floods : Floods base first marks flood) {place : Coord}
    (reachable : flood.maze.graph.Reachable flood.cursor place) :
    Floods base first marks { flood with cursor := place } where
  opened := floods.opened
  linking := floods.linking
  draws := floods.draws
  empty_eq := floods.empty_eq
  visited_iff := floods.visited_iff
  nodup := floods.nodup
  reached := floods.reached
  inside := by
    have inside : flood.maze.size.Contains flood.cursor := floods.size_eq ▸ floods.inside
    exact floods.size_eq ▸ Maze.contains_of_reachable reachable inside
  together other marked := reachable.symm.trans (floods.together other marked)

/-- Marking an unmarked cursor adds it to the marked cells. -/
theorem mark (floods : Floods base first marks flood)
    (unmarked : (flood.maze.get flood.cursor).visited = false) :
    Floods base first (flood.cursor :: marks) flood.mark ∧ flood.mark.cursor = flood.cursor := by
  have absent : flood.cursor ∉ marks := by
    intro member
    rw [(floods.visited_iff _).mpr member] at unmarked
    cases unmarked
  have inside : flood.maze.size.Contains flood.cursor := floods.size_eq ▸ floods.inside
  have unchanged : Maze.Opened flood.maze ⊥ (flood.maze.setVisited flood.cursor true) :=
    ⟨by simp, fun place side => by simp⟩
  obtain ⟨taken, onBoard, opened⟩ := floods.opened
  rw [Flood.mark, if_neg (by simp [unmarked])]
  refine ⟨⟨⟨taken ⊔ ⊥, by simpa using onBoard, opened.trans unchanged⟩, ?_, floods.draws, ?_, ?_,
    List.nodup_cons.mpr ⟨absent, floods.nodup⟩, ?_, floods.inside, ?_⟩, rfl⟩
  · rw [Maze.graph_setVisited]
    exact floods.linking
  · intro place
    rw [← floods.empty_eq, Maze.setVisited, Maze.get_set]
    split
    · next written => rw [written.2]
    · rfl
  · intro place
    rw [List.mem_cons, ← floods.visited_iff, Maze.setVisited, Maze.get_set]
    by_cases same : place = flood.cursor <;> simp [same, inside]
  · simp [floods.reached]
  · intro place member
    rw [Maze.graph_setVisited]
    rcases List.mem_cons.mp member with rfl | marked
    · exact Reachable.refl _
    · exact floods.together place marked

/-- Whichever of two neighbours is marked, the other one is reached from the marked
    cells once a passage leads there. -/
theorem reachable_of_differ (floods : Floods base first marks flood) {place : Coord} {side : Side}
    {graph : SimpleGraph Coord} (larger : flood.maze.graph ≤ graph)
    (adjacent : graph.Adj place (place.step side))
    (differ : (flood.maze.get (place.step side)).visited ≠ (flood.maze.get place).visited) :
    graph.Reachable flood.cursor place := by
  cases marked : (flood.maze.get place).visited with
  | true => exact (floods.together place ((floods.visited_iff place).mp marked)).mono larger
  | false =>
    rw [marked, ne_eq, Bool.not_eq_false] at differ
    have there := floods.together _ ((floods.visited_iff _).mp differ)
    exact (there.mono larger).trans adjacent.symm.reachable

/-- Taking out a wall that parts a marked cell from an unmarked one leaves a flood that can go
    on at the wall. -/
theorem takeOut (floods : Floods base first marks flood) {place : Coord} {side : Side}
    {least greatest choice : Nat} {after : σ} (parts : flood.maze.Parts place side)
    (differ : (flood.maze.get (place.step side)).visited ≠ (flood.maze.get place).visited)
    (drawn : drawIndex least greatest flood.source = .ok (choice, after)) :
    let opened := flood.through place side after
    Floods base first marks opened ∧ opened.Ahead := by
  intro opened
  obtain ⟨inside, across, -, apart⟩ := parts
  have removal : Maze.Opened flood.maze (edge place (place.step side)) opened.maze :=
    Maze.opened_setWall (contains_keeper inside across)
  have neighbors : edge place (place.step side) ≤ flood.maze.size.grid :=
    (edge_le_iff _).mpr (.inr ⟨inside, across, side, rfl⟩)
  have graph_eq : opened.maze.graph = flood.maze.graph ⊔ edge place (place.step side) :=
    removal.graph_eq neighbors
  have adjacent : opened.maze.graph.Adj place (place.step side) := by
    rw [graph_eq]
    exact adj_sup_edge_of_apart apart
  have larger : flood.maze.graph ≤ opened.maze.graph := graph_eq ▸ le_sup_left
  have arrived : opened.maze.graph.Reachable flood.cursor place :=
    floods.reachable_of_differ larger adjacent differ
  have sameMarks (other : Coord) :
      (opened.maze.get other).visited = (flood.maze.get other).visited :=
    Maze.visited_setWall ..
  obtain ⟨taken, onBoard, before⟩ := floods.opened
  constructor
  · refine ⟨⟨_, sup_le onBoard (floods.size_eq ▸ neighbors), before.trans removal⟩, ?_,
      floods.draws.draw drawn, ?_, ?_, floods.nodup, floods.reached, floods.size_eq ▸ inside, ?_⟩
    · rw [graph_eq]
      exact floods.linking.link apart
    · exact fun other => (Maze.empty_setWall ..).trans (floods.empty_eq other)
    · intro other
      rw [sameMarks, floods.visited_iff]
    · intro other marked
      exact arrived.symm.trans ((floods.together other marked).mono larger)
  · have across' : opened.maze.size.Contains (place.step side) := removal.size_eq.symm ▸ across
    have down : opened.maze.wall place side = false :=
      (Maze.adj_step_iff (removal.size_eq.symm ▸ inside) across').mp adjacent
    apply Flood.ahead_of_isOpen rfl (Maze.isOpen_iff.mpr ⟨across', down⟩)
    rw [sameMarks, sameMarks]
    exact differ

section Lawful

variable [LawfulRandomSource σ]

/-- Where a flood is walled in, one of the walls around it is taken out; it joins two
    regions that were apart, and the flood can go on there. -/
theorem breach (floods : Floods base first marks flood)
    (sealed : ∀ place, flood.maze.size.Contains place → ¬ flood.maze.leaks place = true)
    (some : flood.maze.boundaryPairs ≠ []) :
    ∃ breached, (flood.breach flood.maze.boundaryPairs).result = .ok breached ∧
      Floods base first marks breached ∧ breached.Ahead := by
  obtain ⟨⟨place, side⟩, member, choice, after, drawn, chosen⟩ :=
    exists_of_number some (Nat.le_of_lt flood.maze.length_boundaryPairs_lt) flood.source
  obtain ⟨parts, differ⟩ := Maze.parts_of_mem_boundaryPairs sealed member
  exact ⟨_, Flood.breach_drawn drawn chosen, floods.takeOut parts differ drawn⟩

/-- A flood with a marked cursor goes on, at a place that it can go on from, or has
    marked the whole board. -/
theorem frontier (floods : Floods base first marks flood) (marked : flood.cursor ∈ marks) :
    (∃ place, flood.frontier = .open place ∧
        Floods base first marks { flood with cursor := place } ∧
        Flood.Ahead { flood with cursor := place }) ∨
      (∃ walls breached, flood.frontier = .walled walls ∧
        (flood.breach walls).result = .ok breached ∧
        Floods base first marks breached ∧ breached.Ahead) ∨
      flood.frontier = .none ∧ ∀ place, base.size.Contains place → place ∈ marks := by
  cases found : flood.maze.floodNext flood.cursor with
  | some next =>
    obtain ⟨adjacent, unmarked⟩ := Maze.floodNext_eq_some found
    refine .inl ⟨next, ?_, floods.move adjacent.reachable, .inl unmarked⟩
    rw [Flood.frontier, found]
  | none =>
    have scanned : flood.frontier = flood.maze.boundary := by rw [Flood.frontier, found]
    rw [scanned]
    rcases flood.maze.boundary_spec with ⟨place, atPlace, -, leaks⟩ | ⟨sealed, walled | undivided⟩
    · obtain ⟨side, -, isOpen, differ⟩ := Maze.leaks_iff.mp leaks
      have arrived := floods.reachable_of_differ le_rfl ⟨side, isOpen, rfl⟩ differ
      exact .inl ⟨place, atPlace, floods.move arrived, Flood.ahead_of_isOpen rfl isOpen differ⟩
    · obtain ⟨breached, answered, after⟩ := floods.breach sealed walled.1
      exact .inr (.inl ⟨_, breached, walled.2, answered, after⟩)
    · refine .inr (.inr ⟨undivided.2, fun place inside => ?_⟩)
      have alike := Maze.visited_eq_of_boundaryPairs undivided.1
        (floods.size_eq.symm ▸ inside : flood.maze.size.Contains place)
        (floods.size_eq.symm ▸ floods.inside : flood.maze.size.Contains flood.cursor)
      rw [← floods.visited_iff, alike, floods.visited_iff]
      exact marked

/-- With passes for the cells not yet marked, a flood that can go on marks the whole
    board. Each pass at an unmarked cursor pays for itself and for one at a marked
    cursor after it. -/
theorem spread {passes : Nat} (floods : Floods base first marks flood) (ahead : flood.Ahead)
    (enough : 2 * base.size.area + (flood.maze.get flood.cursor).visited.toNat ≤
      passes + 2 * marks.length + 1) :
    ∃ final after, (flood.spread passes).result = .ok final ∧ Floods base first after final ∧
      ∀ place, base.size.Contains place → place ∈ after := by
  induction passes generalizing flood marks with
  | zero =>
    have short : marks.length < base.size.area := floods.length_lt_of_ahead ahead
    omega
  | succ passes inductionHypothesis =>
    rw [Flood.spread]
    cases visited : (flood.maze.get flood.cursor).visited with
    | true =>
      obtain ⟨next, found⟩ := ahead.resolve_left (by simp [visited])
      obtain ⟨adjacent, unmarked⟩ := Maze.floodNext_eq_some found
      rw [visited, Bool.toNat_true] at enough
      simp only [Flood.mark_of_visited visited, Flood.frontier, found]
      apply inductionHypothesis (floods.move adjacent.reachable) (.inl unmarked)
      rw [unmarked, Bool.toNat_false]
      omega
    | false =>
      obtain ⟨marked, here⟩ := floods.mark visited
      have fits (cursor : Bool) :
          2 * base.size.area + cursor.toNat ≤ passes + 2 * (flood.cursor :: marks).length + 1 := by
        have bit := cursor.toNat_le
        rw [List.length_cons]
        omega
      rcases marked.frontier (here ▸ List.mem_cons_self) with
        ⟨place, next, after, further⟩ | ⟨walls, breached, next, answered, after, further⟩ |
        ⟨next, full⟩
      · simp only [next]
        exact inductionHypothesis after further (fits _)
      · simp only [next, Logged.result_bind_eq_ok]
        obtain ⟨final, last, spreads, rest⟩ := inductionHypothesis after further (fits _)
        exact ⟨final, last, ⟨breached, answered, spreads⟩, rest⟩
      · simp only [next]
        exact ⟨_, _, rfl, marked, full⟩

end Lawful

end Floods

variable [RandomSource σ] {base : Maze} {first : σ} {final : Maze × σ × RepairReport}

/-- What joining the regions of a maze achieves: walls were taken out between places that
    could not reach each other, one draw for each, until every cell reaches every
    other one. -/
structure Repaired (base : Maze) (first : σ) (final : Maze × σ × RepairReport) : Prop where
  opened : ∃ taken ≤ base.size.grid, Maze.Opened base taken final.1
  linking : Linking base.graph final.2.2.wallsRemoved final.1.graph
  draws : IndexDraws first final.2.2.wallsRemoved final.2.1
  empty_eq : ∀ place, (final.1.get place).empty = (base.get place).empty
  unvisited : ∀ place, (final.1.get place).visited = false
  whole : final.1.Whole
  reached : final.2.2.reached = base.size.area

/-- A flood that has marked the whole board has joined its regions. -/
theorem Floods.repaired {marks : List Coord} {flood : Flood σ}
    (floods : Floods base first marks flood)
    (full : ∀ place, base.size.Contains place → place ∈ marks) :
    Repaired base first (flood.maze.clearVisited, flood.source, flood.report) := by
  obtain ⟨taken, onBoard, opened⟩ := floods.opened
  constructor
  · exact ⟨taken, onBoard, by simp [opened.size_eq], fun place side => by simp [opened.wall_iff]⟩
  · simpa using floods.linking
  · exact floods.draws
  · intro place
    rw [Maze.get_clearVisited, floods.empty_eq]
  · intro place
    rw [Maze.get_clearVisited]
  · intro place other inside otherInside
    rw [Maze.size_clearVisited, opened.size_eq] at inside otherInside
    rw [Maze.graph_clearVisited]
    exact (floods.together place (full place inside)).symm.trans
      (floods.together other (full other otherInside))
  · have listed : marks.Perm base.size.coords := by
      apply (List.perm_ext_iff_of_nodup floods.nodup base.size.coords_nodup).mpr
      intro place
      rw [Size.mem_coords]
      exact ⟨floods.contains, full place⟩
    rw [floods.reached, listed.length_eq, Size.length_coords]

/-- A flood that is about to start: in the bottom-right corner, with nothing marked. -/
def Flood.start (maze : Maze) (source : σ) : Flood σ :=
  ⟨maze, source, ⟨maze.size.width - 1, maze.size.height - 1⟩, .none⟩

/-- It has done nothing, if the maze has no visited cells. -/
theorem Floods.start (unvisited : ∀ place, (base.get place).visited = false) (first : σ) :
    Floods base first [] (.start base first) where
  opened := ⟨⊥, bot_le, .refl base⟩
  linking := .start
  draws := .none
  empty_eq := fun _ => rfl
  visited_iff := fun place => by simp [Flood.start, unvisited]
  nodup := List.nodup_nil
  reached := rfl
  inside := by
    have wide := base.size.width_bounds
    have high := base.size.height_bounds
    exact ⟨by grind [Flood.start], by grind [Flood.start]⟩
  together := fun place marked => absurd marked List.not_mem_nil

/-- Joining the regions of a maze without visited cells gives what its flood comes to, with the
    marks cleared. -/
theorem joinRegions_of_spread {flood : Flood σ}
    (unvisited : ∀ place, (base.get place).visited = false)
    (spreads : ((Flood.start base first).spread (2 * base.size.area + 1)).result = .ok flood) :
    (joinRegions base first).result = .ok (flood.maze.clearVisited, flood.source, flood.report) := by
  have clean : ¬ base.size.coords.any (fun place => (base.get place).visited) = true := by
    simp [unvisited]
  rw [joinRegions, if_neg clean, Logged.result_bind_eq_ok]
  exact ⟨flood, spreads, rfl⟩

/-- The regions of any maze without visited cells are joined. -/
theorem joinRegions_spec [LawfulRandomSource σ]
    (unvisited : ∀ place, (base.get place).visited = false) (first : σ) :
    ∃ final, (joinRegions base first).result = .ok final ∧ Repaired base first final := by
  have enough : 2 * base.size.area +
      (base.get (Flood.start base first).cursor).visited.toNat ≤
      2 * base.size.area + 1 + 2 * ([] : List Coord).length + 1 := by
    rw [unvisited, Bool.toNat_false]
    omega
  obtain ⟨flood, marks, spreads, floods, full⟩ :=
    (Floods.start unvisited first).spread (.inl (unvisited _)) enough
  exact ⟨_, joinRegions_of_spread unvisited spreads, floods.repaired full⟩

/-- Repair leaves a maze of one region alone. -/
theorem Repaired.unchanged (repaired : Repaired base first final) (whole : base.Whole)
    (unvisited : ∀ place, (base.get place).visited = false) :
    final.2.2.wallsRemoved = 0 ∧ final.2.1 = first ∧
      ∀ place, final.1.get place = base.get place := by
  obtain ⟨taken, onBoard, opened⟩ := repaired.opened
  have joined : ∀ one ∈ {place | base.size.Contains place},
      ∀ other ∈ {place | base.size.Contains place}, base.graph.Reachable one other := by
    intro one inside other otherInside
    exact whole one other inside otherInside
  have none : final.2.2.wallsRemoved = 0 := by
    apply repaired.linking.count_eq_zero joined
    intro one other adjacent
    obtain ⟨inside, otherInside, -⟩ := opened.size_eq ▸ Maze.graph_le_grid final.1 adjacent
    exact ⟨inside, otherInside⟩
  have graph_eq : final.1.graph = base.graph := repaired.linking.eq_of_count_eq_zero none
  refine ⟨none, repaired.draws.eq_of_count_eq_zero none, Maze.get_eq_of_walls ?_ repaired.empty_eq
    fun place => (repaired.unvisited place).trans (unvisited place).symm⟩
  intro place side
  rw [Bool.eq_iff_iff, opened.wall_iff, and_iff_left_iff_imp]
  intro stands taking
  -- A wall between neighbours that was taken out would be a passage now, and is none.
  obtain ⟨inside, across, -⟩ := onBoard taking
  have adjacent : final.1.graph.Adj place (place.step side) := by
    rw [opened.graph_eq onBoard]
    exact .inr taking
  rw [graph_eq, Maze.adj_step_iff inside across, stands] at adjacent
  cases adjacent

end MazeDial
