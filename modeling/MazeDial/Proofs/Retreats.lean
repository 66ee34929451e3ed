import MazeDial.Proofs.Trail

/-!
# Retreats through any maze

In the maze of a trail a retreat finds back, because its latest place has one open side only.
Here nothing is known of the maze: it may have branches and loops, cells may carry any flags,
and the target may lie where no passage leads. A retreat then follows the first open side of
each place it comes to, and may well come to one again.

It ends all the same. What it leaves behind it raises a wall where a passage was, so that the
number of passages is one less after each pass; and it goes on only through a passage that is
still there. So a retreat passes through each passage once at most, and when it cannot go on it
stands on its target or at a place whose sides are all closed. The bound that a retreat is given
on its passes leaves room for twice as many as there are cells, which no board has passages for.
-/

namespace MazeDial

namespace Maze

variable {maze after : Maze} {place target last : Coord} {side : Side}
  {passes : List (Coord × Side)}

/-- After a pass a side is open if it was before and does not lead through the wall raised. -/
theorem isOpen_withdraw_iff (isOpen : maze.isOpen place side = true) (other : Coord)
    (otherSide : Side) :
    (maze.withdraw place side).isOpen other otherSide = true ↔
      maze.isOpen other otherSide = true ∧
        s(other, other.step otherSide) ≠ s(place, place.step side) := by
  rw [isOpen_iff, isOpen_iff, size_withdraw, ← Bool.not_eq_true, ← Bool.not_eq_true,
    wall_withdraw (contains_keeper_of_isOpen isOpen)]
  tauto

/-- One passage is there no more. -/
theorem graph_withdraw (isOpen : maze.isOpen place side = true) :
    (maze.withdraw place side).graph = maze.graph.deleteEdges {s(place, place.step side)} := by
  ext one other
  rw [SimpleGraph.deleteEdges_adj, Set.mem_singleton_iff]
  constructor
  · rintro ⟨otherSide, stillOpen, rfl⟩
    obtain ⟨wasOpen, apart⟩ := (isOpen_withdraw_iff isOpen ..).mp stillOpen
    exact ⟨⟨otherSide, wasOpen, rfl⟩, apart⟩
  · rintro ⟨⟨otherSide, wasOpen, rfl⟩, apart⟩
    exact ⟨otherSide, (isOpen_withdraw_iff isOpen ..).mpr ⟨wasOpen, apart⟩, rfl⟩

/-- So there is one passage less. -/
theorem openEdgeCount_withdraw (isOpen : maze.isOpen place side = true) :
    (maze.withdraw place side).openEdgeCount + 1 = maze.openEdgeCount := by
  have passage : s(place, place.step side) ∈ maze.graph.edgeSet := ⟨side, isOpen, rfl⟩
  rw [openEdgeCount_eq_ncard, openEdgeCount_eq_ncard, graph_withdraw isOpen,
    SimpleGraph.edgeSet_deleteEdges]
  exact Set.ncard_sdiff_singleton_add_one passage maze.finite_edgeSet

/-- A board has at most two passages for each cell, since a cell stores two walls. -/
theorem openEdgeCount_le (maze : Maze) : maze.openEdgeCount ≤ 2 * maze.size.area := by
  have most : ∀ count ∈ maze.size.coords.map fun place =>
      [Side.up, .left].countP (maze.isOpen place), count ≤ 2 := by
    intro count member
    obtain ⟨place, -, rfl⟩ := List.mem_map.mp member
    exact List.countP_le_length
  have total := List.sum_le_card_nsmul _ 2 most
  rw [List.length_map, Size.length_coords, smul_eq_mul, Nat.mul_comm] at total
  rwa [openEdgeCount, ← List.sum_eq_foldr]

/-- A retreat without a bound on its passes, each told by the cell it leaves and the side, until
    it stands on its target or no side is open. -/
inductive Retreats (target : Coord) : Maze → Coord → List (Coord × Side) → Maze → Coord → Prop
  | rest {maze : Maze} {place : Coord}
      (ended : place = target ∨ ∀ side, maze.isOpen place side = false) :
      Retreats target maze place [] maze place
  | pass {maze after : Maze} {place last : Coord} {side : Side} {passes : List (Coord × Side)}
      (apart : place ≠ target) (found : Side.all.find? (maze.isOpen place) = some side)
      (further : Retreats target (maze.withdraw place side) (place.step side) passes after last) :
      Retreats target maze place ((place, side) :: passes) after last

/-- A place whose first open side is none has all sides closed. -/
theorem find?_isOpen_eq_none :
    Side.all.find? (maze.isOpen place) = none ↔ ∀ side, maze.isOpen place side = false := by
  simp [List.find?_eq_none, Side.mem_all]

/-- From any place a retreat comes to an end. The induction is on the number of passages. -/
theorem exists_retreats (maze : Maze) (place target : Coord) :
    ∃ passes after last, Retreats target maze place passes after last := by
  induction counted : maze.openEdgeCount using Nat.strong_induction_on generalizing maze place with
  | _ count inductionHypothesis =>
    by_cases arrived : place = target
    · exact ⟨[], maze, place, .rest (.inl arrived)⟩
    · cases found : Side.all.find? (maze.isOpen place) with
      | none => exact ⟨[], maze, place, .rest (.inr (find?_isOpen_eq_none.mp found))⟩
      | some side =>
        have fewer := openEdgeCount_withdraw (List.find?_some found)
        obtain ⟨passes, after, last, further⟩ := inductionHypothesis
          (maze.withdraw place side).openEdgeCount (by omega) (maze.withdraw place side)
          (place.step side) rfl
        exact ⟨_, after, last, .pass arrived found further⟩

/-- What some passes of a retreat have done to a maze. Each raised the wall of a passage that
    there was in the beginning, and no two the same one; the cells they left are empty and
    unvisited. Nothing else differs. -/
structure Withdrawn (maze : Maze) (passes : List (Coord × Side)) (after : Maze) : Prop where
  size_eq : after.size = maze.size
  isOpen : ∀ pass ∈ passes, maze.isOpen pass.1 pass.2 = true
  nodup : (passes.map fun pass => s(pass.1, pass.1.step pass.2)).Nodup
  wall_iff : ∀ place side, after.wall place side = true ↔
    s(place, place.step side) ∈ passes.map (fun pass => s(pass.1, pass.1.step pass.2)) ∨
      maze.wall place side = true
  empty_iff : ∀ place, (after.get place).empty = true ↔
    place ∈ passes.map Prod.fst ∨ (maze.get place).empty = true
  visited_iff : ∀ place, (after.get place).visited = true ↔
    place ∉ passes.map Prod.fst ∧ (maze.get place).visited = true

/-- A pass before others adds its passage and its cell to theirs. The passage is none of theirs,
    because its wall stands when they begin. -/
theorem Withdrawn.cons (isOpen : maze.isOpen place side = true)
    (withdrawn : Withdrawn (maze.withdraw place side) passes after) :
    Withdrawn maze ((place, side) :: passes) after where
  size_eq := withdrawn.size_eq.trans (size_withdraw ..)
  isOpen := by
    rw [List.forall_mem_cons]
    refine ⟨isOpen, fun pass member => ?_⟩
    exact ((isOpen_withdraw_iff isOpen ..).mp (withdrawn.isOpen pass member)).1
  nodup := by
    rw [List.map_cons, List.nodup_cons]
    refine ⟨?_, withdrawn.nodup⟩
    intro again
    obtain ⟨pass, member, same⟩ := List.mem_map.mp again
    exact ((isOpen_withdraw_iff isOpen ..).mp (withdrawn.isOpen pass member)).2 same
  wall_iff other otherSide := by
    rw [withdrawn.wall_iff, wall_withdraw (contains_keeper_of_isOpen isOpen), List.map_cons,
      List.mem_cons]
    tauto
  empty_iff other := by
    rw [withdrawn.empty_iff, (flags_withdraw (contains_of_isOpen isOpen) side other).1,
      List.map_cons, List.mem_cons, Bool.or_eq_true, beq_iff_eq]
    tauto
  visited_iff other := by
    rw [withdrawn.visited_iff, (flags_withdraw (contains_of_isOpen isOpen) side other).2,
      List.map_cons, List.mem_cons, Bool.and_eq_true, bne_iff_ne]
    tauto

namespace Retreats

/-- The passes of a retreat, and what it comes to, are determined. -/
theorem unique {others : List (Coord × Side)} {otherMaze : Maze} {otherLast : Coord}
    (retreats : Retreats target maze place passes after last)
    (otherwise : Retreats target maze place others otherMaze otherLast) :
    others = passes ∧ otherMaze = after ∧ otherLast = last := by
  induction retreats generalizing others otherMaze otherLast with
  | rest ended =>
    cases otherwise with
    | rest => exact ⟨rfl, rfl, rfl⟩
    | pass apart found =>
      rw [find?_isOpen_eq_none.mpr (ended.resolve_left apart)] at found
      cases found
  | pass apart found _ inductionHypothesis =>
    cases otherwise with
    | rest ended =>
      rw [find?_isOpen_eq_none.mpr (ended.resolve_left apart)] at found
      cases found
    | pass _ again further =>
      obtain rfl := Option.some.inj (found.symm.trans again)
      obtain ⟨rfl, rfl, rfl⟩ := inductionHypothesis further
      exact ⟨rfl, rfl, rfl⟩

/-- A bound on the passes changes nothing, unless they are more. -/
theorem retreatWithin_eq (retreats : Retreats target maze place passes after last) (bound : Nat) :
    retreatWithin bound maze place target =
      if passes.length ≤ bound then if last = target then .back after else .stuck after last
      else .unfinished := by
  induction retreats generalizing bound with
  | @rest maze place ended =>
    unfold retreatWithin
    by_cases arrived : place = target
    · simp [arrived]
    · simp [arrived, find?_isOpen_eq_none.mpr (ended.resolve_left arrived)]
  | pass apart found _ inductionHypothesis =>
    unfold retreatWithin
    cases bound with
    | zero => simp [apart, found]
    | succ bound => simp [apart, found, inductionHypothesis]

/-- Each pass takes one passage. -/
theorem length_add_openEdgeCount (retreats : Retreats target maze place passes after last) :
    passes.length + after.openEdgeCount = maze.openEdgeCount := by
  induction retreats with
  | rest => exact Nat.zero_add _
  | pass _ found _ inductionHypothesis =>
    have fewer := openEdgeCount_withdraw (List.find?_some found)
    rw [List.length_cons]
    omega

theorem withdrawn (retreats : Retreats target maze place passes after last) :
    Withdrawn maze passes after := by
  induction retreats with
  | rest => exact ⟨rfl, by simp, List.nodup_nil, by simp, by simp, by simp⟩
  | pass _ found _ inductionHypothesis => exact inductionHypothesis.cons (List.find?_some found)

/-- A retreat that starts on the board stays there. -/
theorem contains (retreats : Retreats target maze place passes after last)
    (inside : maze.size.Contains place) : maze.size.Contains last := by
  induction retreats with
  | rest => exact inside
  | pass _ found _ inductionHypothesis =>
    have across := (isOpen_iff.mp (List.find?_some found)).1
    simpa using inductionHypothesis (by simpa using across)

/-- It ends on its target or where all sides are closed. -/
theorem ended (retreats : Retreats target maze place passes after last) :
    last = target ∨ ∀ side, after.isOpen last side = false := by
  induction retreats with
  | rest ended => exact ended
  | pass _ _ _ inductionHypothesis => exact inductionHypothesis

end Retreats

/-- In any maze, a retreat from a place of the board to any target comes to an end, in one way
    only. Each of its passes raises the wall of another passage of the maze, so that they are at
    most as many as there are passages, and a bound that leaves room for them changes nothing.
    It stands on its target then, or it is stuck at another place of the board that has no
    open side left. The walls of its passes are raised and the cells it left are empty and
    unvisited; all other walls and flags are as they were. -/
theorem retreat_ends_by_closing_passages (maze : Maze) {place : Coord}
    (inside : maze.size.Contains place) (target : Coord) :
    ∃ passes after last, Retreats target maze place passes after last ∧
      (∀ others other stop, Retreats target maze place others other stop →
        others = passes ∧ other = after ∧ stop = last) ∧
      (∀ bound, retreatWithin bound maze place target =
        if passes.length ≤ bound then maze.retreat place target else .unfinished) ∧
      passes.length + after.openEdgeCount = maze.openEdgeCount ∧
      Withdrawn maze passes after ∧
      (maze.retreat place target = .back after ∧ last = target ∨
        maze.retreat place target = .stuck after last ∧ maze.size.Contains last ∧
          last ≠ target ∧ ∀ side, after.isOpen last side = false) := by
  obtain ⟨passes, after, last, retreats⟩ := exists_retreats maze place target
  have taken := retreats.length_add_openEdgeCount
  have most := maze.openEdgeCount_le
  have enough : passes.length ≤ 2 * maze.size.area := by omega
  have outcome : maze.retreat place target =
      if last = target then .back after else .stuck after last := by
    rw [retreat, retreats.retreatWithin_eq, if_pos enough]
  refine ⟨passes, after, last, retreats, fun _ _ _ => retreats.unique, ?_, taken,
    retreats.withdrawn, ?_⟩
  · intro bound
    rw [retreats.retreatWithin_eq, outcome]
  · rw [outcome]
    by_cases arrived : last = target
    · exact .inl ⟨if_pos arrived, arrived⟩
    · exact .inr ⟨if_neg arrived, retreats.contains inside, arrived,
        retreats.ended.resolve_left arrived⟩

/-- Of four cells in a ring, a retreat to a place that is nowhere goes once around and is stuck
    where it began: three passes are too few for it. -/
theorem retreat_ends_by_closing_passages_ring :
    let ring := ((((fresh { width := 2, height := 2 }).setWall ⟨0, 0⟩ .right false).setWall
      ⟨0, 0⟩ .down false).setWall ⟨1, 1⟩ .up false).setWall ⟨1, 1⟩ .left false
    ring.size.Contains ⟨0, 0⟩ ∧ ∃ passes after,
      Retreats ⟨9, 9⟩ ring ⟨0, 0⟩ passes after ⟨0, 0⟩ ∧ passes.length = 4 ∧
        ring.retreat ⟨0, 0⟩ ⟨9, 9⟩ = .stuck after ⟨0, 0⟩ ∧
        ∀ side, after.isOpen ⟨0, 0⟩ side = false := by
  intro ring
  have inside : ring.size.Contains ⟨0, 0⟩ := by decide
  have four : ring.openEdgeCount = 4 := by decide +kernel
  have short : (retreatWithin 3 ring ⟨0, 0⟩ ⟨9, 9⟩ matches .unfinished) = true := by decide +kernel
  have stuck : (ring.retreat ⟨0, 0⟩ ⟨9, 9⟩ matches .stuck _ ⟨0, 0⟩) = true := by decide +kernel
  obtain ⟨passes, after, last, retreats, -, bounded, counted, -, outcome⟩ :=
    retreat_ends_by_closing_passages ring inside ⟨9, 9⟩
  rcases outcome with ⟨back, -⟩ | ⟨ended, -, -, closed⟩
  · rw [back] at stuck
    cases stuck
  · have more : 3 < passes.length := by
      by_contra enough
      rw [bounded 3, if_pos (not_lt.mp enough), ended] at short
      cases short
    rw [ended] at stuck
    split at stuck
    · next same =>
      obtain ⟨-, rfl⟩ := Retreat.stuck.inj same
      exact ⟨inside, passes, after, retreats, by omega, ended, closed⟩
    · cases stuck

end Maze

end MazeDial
