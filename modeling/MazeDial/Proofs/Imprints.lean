import MazeDial.Proofs.Strokes

/-!
# What stamps leave on a board

A stamp takes out walls one after another, and with each of them it clears the empty flags of
the cells on both sides, of which one may lie outside its rectangle or off the board. Stamps
may overlap, touch each other and the edge, and take out one wall twice. None of that shows
in what they leave behind. A plan comes to a list of walls, each stored in a cell of the
board; a wall is down exactly if it is listed, and a cell is empty exactly if all four of its
walls stand. The first is kept by each wall that is knocked down, the second because the
cells whose flags are cleared are the two that the wall belongs to.

So a stamped board is told by its stamps, in whatever order they were put on it.
-/

namespace MazeDial

namespace Maze

variable {maze : Maze}

/-- The maze with the walls of a list knocked down, each named by a place and its side. -/
def knockDownAll (maze : Maze) (walls : List (Coord × Side)) : Maze :=
  walls.foldl (fun maze wall => maze.knockDown wall.1 wall.2) maze

theorem knockDownAll_append (maze : Maze) (first second : List (Coord × Side)) :
    maze.knockDownAll (first ++ second) = (maze.knockDownAll first).knockDownAll second :=
  List.foldl_append

@[simp] theorem size_knockDownAll (maze : Maze) (walls : List (Coord × Side)) :
    (maze.knockDownAll walls).size = maze.size := by
  induction walls generalizing maze with
  | nil => rfl
  | cons wall rest inductionHypothesis => exact (inductionHypothesis _).trans (size_knockDown ..)

/-- A wall that is stored on the board is knocked down, and no other. -/
theorem wall_knockDown {place : Coord} {side : Side} (kept : maze.size.Contains (place.keeper side))
    (other : Coord) (otherSide : Side) :
    (maze.knockDown place side).wall other otherSide = false ↔
      maze.wall other otherSide = false ∨ s(other, other.step otherSide) = s(place, place.step side) := by
  rw [knockDown, wall_setEmpty, wall_setEmpty, wall_setWall kept]
  split
  · next same => exact iff_of_true rfl (.inr same)
  · next apart => exact (or_iff_left apart).symm

/-- What is down after walls have been knocked down was down before, or is one of them. -/
theorem wall_knockDownAll {walls : List (Coord × Side)}
    (kept : ∀ wall ∈ walls, maze.size.Contains (wall.1.keeper wall.2)) (other : Coord)
    (otherSide : Side) :
    (maze.knockDownAll walls).wall other otherSide = false ↔
      maze.wall other otherSide = false ∨
        ∃ wall ∈ walls, s(other, other.step otherSide) = s(wall.1, wall.1.step wall.2) := by
  induction walls generalizing maze with
  | nil => simp [knockDownAll]
  | cons wall rest inductionHypothesis =>
    obtain ⟨first, others⟩ := List.forall_mem_cons.mp kept
    have still : ∀ wall' ∈ rest,
        (maze.knockDown wall.1 wall.2).size.Contains (wall'.1.keeper wall'.2) := by
      intro wall' member
      rw [size_knockDown]
      exact others wall' member
    have after := inductionHypothesis still
    rw [wall_knockDown first] at after
    simp only [List.exists_mem_cons_iff, ← or_assoc]
    exact after

/-- The flags of a board are told by its walls: no cell is visited, and a cell is empty exactly
    if the walls on all four sides of it stand, those of the outer edge included. -/
structure FlagsFollowWalls (maze : Maze) : Prop where
  unvisited : ∀ place, (maze.get place).visited = false
  empty_iff : ∀ place, maze.size.Contains place →
    ((maze.get place).empty = true ↔ ∀ side, maze.wall place side = true)

theorem flagsFollowWalls_fresh (size : Size) : (fresh size).FlagsFollowWalls where
  unvisited := (carvable_fresh size).unvisited
  empty_iff place inside :=
    iff_of_true (empty_fresh inside) fun side => wall_fresh size place side

/-- The cells that a wall belongs to are those whose flags are cleared with it. -/
theorem flagsFollowWalls_knockDown (follow : maze.FlagsFollowWalls) {place : Coord} {side : Side}
    (kept : maze.size.Contains (place.keeper side)) :
    (maze.knockDown place side).FlagsFollowWalls where
  unvisited other := by rw [(flags_knockDown place other side).2, follow.unvisited]
  empty_iff other inside := by
    rw [size_knockDown] at inside
    have touched : (∃ otherSide, s(other, other.step otherSide) = s(place, place.step side)) ↔
        other = place ∨ other = place.step side := by
      constructor
      · rintro ⟨otherSide, same⟩
        rcases Sym2.eq_iff.mp same with ⟨here, -⟩ | ⟨there, -⟩
        · exact .inl here
        · exact .inr there
      · rintro (rfl | rfl)
        · exact ⟨side, rfl⟩
        · exact ⟨side.opposite, by rw [step_opposite inside, Sym2.eq_swap]⟩
    have stands (otherSide : Side) : (maze.knockDown place side).wall other otherSide = true ↔
        maze.wall other otherSide = true ∧
          s(other, other.step otherSide) ≠ s(place, place.step side) := by
      rw [← Bool.not_eq_false, wall_knockDown kept, not_or, Bool.not_eq_false]
    rw [(flags_knockDown place other side).1, Bool.and_eq_true, Bool.and_eq_true, bne_iff_ne,
      bne_iff_ne, and_assoc, follow.empty_iff other inside]
    simp only [stands, forall_and, ← not_exists, touched, not_or]

theorem flagsFollowWalls_knockDownAll (follow : maze.FlagsFollowWalls) {walls : List (Coord × Side)}
    (kept : ∀ wall ∈ walls, maze.size.Contains (wall.1.keeper wall.2)) :
    (maze.knockDownAll walls).FlagsFollowWalls := by
  induction walls generalizing maze with
  | nil => exact follow
  | cons wall rest inductionHypothesis =>
    obtain ⟨first, others⟩ := List.forall_mem_cons.mp kept
    refine inductionHypothesis (flagsFollowWalls_knockDown follow first) ?_
    intro wall' member
    rw [size_knockDown]
    exact others wall' member

end Maze

/-- The sides of its cell on which a mark keeps no wall. -/
def Mark.bare (mark : Mark) : List Side :=
  (if mark.keepLeft then [] else [.left]) ++ if mark.keepUp then [] else [.up]

theorem Mark.mem_bare {mark : Mark} {side : Side} :
    side ∈ mark.bare ↔ side = .left ∧ mark.keepLeft = false ∨ side = .up ∧ mark.keepUp = false := by
  obtain ⟨keepLeft, keepUp⟩ := mark
  cases keepLeft <;> cases keepUp <;> cases side <;> decide

/-- A pattern with its corner at a place. -/
structure Stamp where
  origin : Coord
  pattern : Pattern
  deriving DecidableEq

namespace Stamp

variable {stamp : Stamp} {size : Size}

/-- Whether a stamp stays on the board and has data enough. -/
def FitsOn (stamp : Stamp) (size : Size) : Prop :=
  stamp.pattern.Fits stamp.origin size ∧ stamp.pattern.area ≤ stamp.pattern.covered

instance (stamp : Stamp) (size : Size) : Decidable (stamp.FitsOn size) :=
  inferInstanceAs (Decidable (_ ∧ _))

/-- Whether a stamp covers a place, and with which mark. Its columns and rows are counted
    from the corner without coming round at 255. -/
def Marks (stamp : Stamp) (place : Coord) (mark : Mark) : Prop :=
  ∃ offset : Coord, offset.x < stamp.pattern.width ∧ offset.y < stamp.pattern.height ∧
    place.x.toNat = stamp.origin.x.toNat + offset.x.toNat ∧
    place.y.toNat = stamp.origin.y.toNat + offset.y.toNat ∧ stamp.pattern.mark offset = .ok mark

/-- The walls that a stamp takes out, each at the cell that stores it. -/
def walls (stamp : Stamp) : List (Coord × Side) :=
  stamp.pattern.offsets.flatMap fun offset =>
    match stamp.pattern.mark offset with
    | .ok mark => mark.bare.map fun side => (stamp.origin.shift offset, side)
    | .error _ => []

theorem mem_walls {place : Coord} {side : Side} :
    (place, side) ∈ stamp.walls ↔ ∃ offset ∈ stamp.pattern.offsets, ∃ mark,
      stamp.pattern.mark offset = .ok mark ∧ stamp.origin.shift offset = place ∧ side ∈ mark.bare := by
  rw [walls, List.mem_flatMap]
  apply exists_congr
  intro offset
  cases stamp.pattern.mark offset <;> simp [and_comm]

/-- A stamp that fits takes a wall out exactly if it covers the cell that stores it with a
    mark that does not keep it. -/
theorem FitsOn.mem_walls (fits : stamp.FitsOn size) {place : Coord} {side : Side} :
    (place, side) ∈ stamp.walls ↔ ∃ mark, stamp.Marks place mark ∧ side ∈ mark.bare := by
  rw [Stamp.mem_walls]
  constructor
  · rintro ⟨offset, member, mark, found, rfl, bare⟩
    obtain ⟨column, row⟩ := Pattern.mem_offsets.mp member
    obtain ⟨-, x, y⟩ := fits.1.contains_shift member
    exact ⟨mark, ⟨offset, column, row, x, y, found⟩, bare⟩
  · rintro ⟨mark, ⟨offset, column, row, x, y, found⟩, bare⟩
    have member := Pattern.mem_offsets.mpr ⟨column, row⟩
    obtain ⟨-, shiftedX, shiftedY⟩ := fits.1.contains_shift member
    have same : stamp.origin.shift offset = place := congrArg₂ Coord.mk
      (UInt8.toNat_inj.mp (shiftedX.trans x.symm)) (UInt8.toNat_inj.mp (shiftedY.trans y.symm))
    exact ⟨offset, member, mark, found, same, bare⟩

/-- The walls that a stamp takes out are stored on the board, and on the sides they are
    stored on. -/
theorem FitsOn.kept (fits : stamp.FitsOn size) {wall : Coord × Side} (member : wall ∈ stamp.walls) :
    size.Contains (wall.1.keeper wall.2) ∧ wall.1.keeper wall.2 = wall.1 ∧
      wall.2.kept = wall.2 := by
  obtain ⟨place, side⟩ := wall
  obtain ⟨offset, listed, mark, -, rfl, bare⟩ := Stamp.mem_walls.mp member
  have inside := (fits.1.contains_shift listed).1
  rcases Mark.mem_bare.mp bare with ⟨rfl, -⟩ | ⟨rfl, -⟩ <;> exact ⟨inside, rfl, rfl⟩

end Stamp

namespace Maze

variable {maze : Maze}

/-- A mark knocks down the walls that it does not keep. -/
theorem imprint_eq (maze : Maze) (place : Coord) (mark : Mark) :
    maze.imprint place mark = maze.knockDownAll (mark.bare.map fun side => (place, side)) := by
  obtain ⟨keepLeft, keepUp⟩ := mark
  cases keepLeft <;> cases keepUp <;> simp [imprint, Mark.bare, knockDownAll]

/-- A stamp that fits knocks its walls down. -/
theorem stamp_eq {stamp : Stamp} (fits : stamp.FitsOn maze.size) :
    maze.stamp stamp.origin stamp.pattern = .ok (maze.knockDownAll stamp.walls) := by
  have marked : ∀ offset ∈ stamp.pattern.offsets, ∃ mark, stamp.pattern.mark offset = .ok mark :=
    fun _ => stamp.pattern.exists_mark fits.2
  rw [Maze.stamp, if_neg (not_not.mpr fits.1), if_neg (Nat.not_lt.mpr fits.2), Stamp.walls]
  clear fits
  generalize stamp.pattern.offsets = offsets at marked
  induction offsets generalizing maze with
  | nil => rfl
  | cons offset rest inductionHypothesis =>
    obtain ⟨⟨mark, found⟩, others⟩ := List.forall_mem_cons.mp marked
    rw [List.foldlM_cons, List.flatMap_cons, knockDownAll_append, found]
    simp only [← imprint_eq]
    exact inductionHypothesis others

/-- What a board holds that stamps have been put on, and nothing else: a wall is down exactly
    if some stamp covers the cell that stores it with a mark that does not keep it, no cell is
    visited, and a cell is empty exactly if all four of its walls stand. -/
structure StampedWith (maze : Maze) (stamps : List Stamp) : Prop extends FlagsFollowWalls maze where
  left_iff : ∀ place, maze.size.Contains place → ((maze.get place).wallLeft = false ↔
    ∃ stamp ∈ stamps, ∃ mark, stamp.Marks place mark ∧ mark.keepLeft = false)
  up_iff : ∀ place, maze.size.Contains place → ((maze.get place).wallUp = false ↔
    ∃ stamp ∈ stamps, ∃ mark, stamp.Marks place mark ∧ mark.keepUp = false)

/-- Stamps that fit, put on a board as it was made. -/
theorem stampedWith_of_fits {size : Size} {stamps : List Stamp}
    (fits : ∀ stamp ∈ stamps, stamp.FitsOn size) :
    ((fresh size).knockDownAll (stamps.flatMap Stamp.walls)).StampedWith stamps := by
  have kept : ∀ wall ∈ stamps.flatMap Stamp.walls,
      size.Contains (wall.1.keeper wall.2) ∧ wall.1.keeper wall.2 = wall.1 ∧ wall.2.kept = wall.2 := by
    intro wall member
    obtain ⟨stamp, listed, taken⟩ := List.mem_flatMap.mp member
    exact (fits stamp listed).kept taken
  have onBoard : ∀ wall ∈ stamps.flatMap Stamp.walls, (fresh size).size.Contains (wall.1.keeper wall.2) :=
    fun wall member => (kept wall member).1
  have listed (place : Coord) (side : Side) :
      (place, side) ∈ stamps.flatMap Stamp.walls ↔
        ∃ stamp ∈ stamps, ∃ mark, stamp.Marks place mark ∧ side ∈ mark.bare := by
    rw [List.mem_flatMap]
    apply exists_congr
    intro stamp
    exact and_congr_right fun member => (fits stamp member).mem_walls
  have down (place : Coord) (side : Side) (keeper : place.keeper side = place)
      (own : side.kept = side) :
      ((fresh size).knockDownAll (stamps.flatMap Stamp.walls)).wall place side = false ↔
        ∃ stamp ∈ stamps, ∃ mark, stamp.Marks place mark ∧ side ∈ mark.bare := by
    rw [wall_knockDownAll onBoard, wall_fresh, ← listed]
    simp only [Bool.true_eq_false, false_or]
    constructor
    · rintro ⟨wall, member, same⟩
      obtain ⟨inside, itsKeeper, itsOwn⟩ := kept wall member
      obtain ⟨sameKeeper, sameSide⟩ := (same_wall_iff inside).mpr same
      rw [keeper, itsKeeper] at sameKeeper
      rw [own, itsOwn] at sameSide
      rwa [sameKeeper, sameSide]
    · intro member
      exact ⟨_, member, rfl⟩
  refine ⟨flagsFollowWalls_knockDownAll (flagsFollowWalls_fresh size) onBoard, ?_, ?_⟩
  · intro place _
    have left := down place .left rfl rfl
    simpa only [wall, Mark.mem_bare, true_and, reduceCtorEq, false_and, or_false] using left
  · intro place _
    have up := down place .up rfl rfl
    simpa only [wall, Mark.mem_bare, true_and, reduceCtorEq, false_and, false_or] using up

/-- Two boards of one size that the same stamps have been put on, in any order and however
    often, hold the same cells. -/
theorem StampedWith.get_eq {first second : Maze} {firstStamps secondStamps : List Stamp}
    (firstStamped : first.StampedWith firstStamps) (secondStamped : second.StampedWith secondStamps)
    (size : first.size = second.size) (same : ∀ stamp, stamp ∈ firstStamps ↔ stamp ∈ secondStamps)
    (place : Coord) : first.get place = second.get place := by
  have walls (place : Coord) (side : Side) : first.wall place side = second.wall place side := by
    by_cases inside : first.size.Contains (place.keeper side)
    · have left := firstStamped.left_iff _ inside
      have up := firstStamped.up_iff _ inside
      simp only [same] at left up
      rw [← secondStamped.left_iff _ (size ▸ inside)] at left
      rw [← secondStamped.up_iff _ (size ▸ inside)] at up
      rw [wall_eq_wallOf, wall_eq_wallOf, ← Bool.not_inj_iff, Bool.eq_iff_iff, Bool.not_eq_true',
        Bool.not_eq_true']
      cases side with
      | up | down => exact up
      | left | right => exact left
    · rw [wall_outside inside, wall_outside (size ▸ inside)]
  have visited (place : Coord) : (first.get place).visited = (second.get place).visited := by
    rw [firstStamped.unvisited, secondStamped.unvisited]
  have empty (place : Coord) : (first.get place).empty = (second.get place).empty := by
    by_cases inside : first.size.Contains place
    · rw [Bool.eq_iff_iff, firstStamped.empty_iff place inside,
        secondStamped.empty_iff place (size ▸ inside)]
      simp only [walls]
    · rw [get_outside inside, get_outside (size ▸ inside)]
  exact get_eq_of_walls walls empty visited place

end Maze

section Plans

variable {σ : Type} [RandomSource σ]

/-- The stamps that a plan comes to. A corner that is left to the source is drawn when it is
    the placement's turn. -/
def settleAll : List Placement → σ → Except Fault (List Stamp × σ)
  | [], source => .ok ([], source)
  | placement :: rest, source => do
    let ((origin, pattern), source) ← placement.settle source
    let (stamps, source) ← settleAll rest source
    return (⟨origin, pattern⟩ :: stamps, source)

/-- A placement that leaves a choice is settled. -/
theorem Placement.exists_settle {placement : Placement} (drawable : placement.Drawable)
    (source : σ) : ∃ origin pattern drawn, placement.settle source = .ok ((origin, pattern), drawn) := by
  cases placement with
  | fixed origin pattern => exact ⟨origin, pattern, source, rfl⟩
  | scattered pattern left right top bottom =>
    obtain ⟨columns, rows⟩ := drawable
    simp only [settle, drawByte_ok columns, drawByte_ok rows, bind, Except.bind, pure, Except.pure]
    exact ⟨_, _, _, rfl⟩

/-- A plan that leaves a choice everywhere comes to stamps. If its placements fit wherever
    they are drawn, the stamps fit. -/
theorem exists_settleAll [LawfulRandomSource σ] {plan : List Placement}
    (drawable : ∀ placement ∈ plan, placement.Drawable) (source : σ) :
    ∃ stamps drawn, settleAll plan source = .ok (stamps, drawn) ∧
      ∀ size, (∀ placement ∈ plan, placement.Fitting size) →
        ∀ stamp ∈ stamps, stamp.FitsOn size := by
  induction plan generalizing source with
  | nil => exact ⟨[], source, rfl, fun _ _ => List.forall_mem_nil _⟩
  | cons placement rest inductionHypothesis =>
    obtain ⟨first, others⟩ := List.forall_mem_cons.mp drawable
    obtain ⟨origin, pattern, between, settled⟩ := Placement.exists_settle first source
    obtain ⟨stamps, drawn, settledRest, restFit⟩ := inductionHypothesis others between
    refine ⟨⟨origin, pattern⟩ :: stamps, drawn, ?_, ?_⟩
    · simp only [settleAll, settled, settledRest, bind, Except.bind, pure, Except.pure]
    · intro size fitting
      obtain ⟨firstFits, othersFit⟩ := List.forall_mem_cons.mp fitting
      obtain ⟨_, _, _, same, fits, enough⟩ := Placement.settle_fits firstFits first source
      obtain ⟨⟨rfl, rfl⟩, -⟩ := by simpa using settled.symm.trans same
      exact List.forall_mem_cons.mpr ⟨⟨fits, enough⟩, restFit size othersFit⟩

/-- A plan knocks down the walls of the stamps that it comes to. -/
theorem stampAll_eq {plan : List Placement} {stamps : List Stamp} {maze : Maze} {source drawn : σ}
    (settled : settleAll plan source = .ok (stamps, drawn))
    (fits : ∀ stamp ∈ stamps, stamp.FitsOn maze.size) :
    stampAll plan maze source = .ok (maze.knockDownAll (stamps.flatMap Stamp.walls), drawn) := by
  induction plan generalizing maze source stamps with
  | nil =>
    obtain ⟨rfl, rfl⟩ := Prod.mk.inj (Except.ok.inj settled)
    rfl
  | cons placement rest inductionHypothesis =>
    simp only [settleAll, bind, Except.bind] at settled
    cases settledOne : placement.settle source with
    | error fault =>
      rw [settledOne] at settled
      cases settled
    | ok corner =>
      obtain ⟨⟨origin, pattern⟩, between⟩ := corner
      simp only [settledOne] at settled
      cases settledRest : settleAll rest between with
      | error fault =>
        rw [settledRest] at settled
        cases settled
      | ok others =>
        rw [settledRest] at settled
        obtain ⟨rfl, rfl⟩ := Prod.mk.inj (Except.ok.inj settled)
        obtain ⟨first, restFit⟩ := List.forall_mem_cons.mp fits
        have stamped : maze.stamp origin pattern = .ok (maze.knockDownAll _) := Maze.stamp_eq first
        simp only [stampAll, settledOne, stamped, bind, Except.bind]
        rw [List.flatMap_cons, Maze.knockDownAll_append]
        apply inductionHypothesis settledRest
        rwa [Maze.size_knockDownAll]

end Plans

namespace Generator

variable {σ : Type} [RandomSource σ]

/-- A plan that comes to stamps that fit starts a cycle, on a board that holds those stamps
    and nothing else. -/
theorem start_stampedWith {generator : Generator σ} {plan : List Placement} {reseed : Option UInt64}
    {stamps : List Stamp} {drawn : σ}
    (settled : settleAll plan (seedSource generator.source reseed) = .ok (stamps, drawn))
    (fits : ∀ stamp ∈ stamps, stamp.FitsOn generator.maze.size) :
    ∃ started, (generator.start plan reseed).result = .ok started ∧ started.source = drawn ∧
      started.maze.size = generator.maze.size ∧ started.maze.StampedWith stamps := by
  have stamped : stampAll plan (Maze.fresh generator.maze.size)
      (seedSource generator.source reseed) = .ok (_, drawn) := stampAll_eq settled fits
  rw [start_result, Maze.reset_eq_fresh, stamped]
  exact ⟨_, rfl, rfl, Maze.size_knockDownAll .., Maze.stampedWith_of_fits fits⟩

variable [LawfulRandomSource σ]

/-- A plan that leaves a choice everywhere comes to stamps, which fit if its placements fit
    wherever they are drawn. If they fit, a cycle starts; of each cell of its board the left
    wall is down exactly if a stamp covers the cell with a mark that does not keep that wall,
    and so is the wall above; no cell is visited, and a cell is empty exactly if all four of
    its walls stand. No byte past the data of a pattern is read. A plan that comes to the same
    stamps in another order, on any generator with a board of that size, starts a cycle on a
    board of the same cells. -/
theorem board_told_by_stamps (generator : Generator σ) {plan : List Placement}
    (drawable : ∀ placement ∈ plan, placement.Drawable) (reseed : Option UInt64) :
    ∃ stamps drawn, settleAll plan (seedSource generator.source reseed) = .ok (stamps, drawn) ∧
      ((∀ placement ∈ plan, placement.Fitting generator.maze.size) →
        ∀ stamp ∈ stamps, stamp.FitsOn generator.maze.size) ∧
      ((∀ stamp ∈ stamps, stamp.FitsOn generator.maze.size) →
        ∃ started, (generator.start plan reseed).result = .ok started ∧ started.source = drawn ∧
          started.maze.size = generator.maze.size ∧ started.maze.StampedWith stamps ∧
          (∀ stamp ∈ stamps, ∀ offset ∈ stamp.pattern.offsets,
            (offset.y.toNat * stamp.pattern.width.toNat + offset.x.toNat) / 4 <
              stamp.pattern.data.size) ∧
          ∀ {other : Generator σ} {otherPlan : List Placement} {otherReseed : Option UInt64}
            {otherStamps : List Stamp} {otherDrawn : σ}, other.maze.size = generator.maze.size →
            settleAll otherPlan (seedSource other.source otherReseed) =
              .ok (otherStamps, otherDrawn) → otherStamps.Perm stamps →
            ∃ otherStarted, (other.start otherPlan otherReseed).result = .ok otherStarted ∧
              ∀ place, otherStarted.maze.get place = started.maze.get place) := by
  obtain ⟨stamps, drawn, settled, fitting⟩ :=
    exists_settleAll drawable (seedSource generator.source reseed)
  refine ⟨stamps, drawn, settled, fitting generator.maze.size, ?_⟩
  intro fits
  obtain ⟨started, answered, left, size, stamped⟩ := start_stampedWith settled fits
  refine ⟨started, answered, left, size, stamped, ?_, ?_⟩
  · intro stamp member offset listed
    exact stamp.pattern.byte_lt_size (fits stamp member).2 listed
  · intro other otherPlan otherReseed otherStamps otherDrawn sameSize otherSettled same
    have otherFits : ∀ stamp ∈ otherStamps, stamp.FitsOn other.maze.size := by
      intro stamp member
      rw [sameSize]
      exact fits stamp (same.mem_iff.mp member)
    obtain ⟨otherStarted, otherAnswered, -, otherSize, otherStamped⟩ :=
      start_stampedWith otherSettled otherFits
    refine ⟨otherStarted, otherAnswered, ?_⟩
    exact otherStamped.get_eq stamped (otherSize.trans (sameSize.trans size.symm))
      fun _ => same.mem_iff

/-- One cell that keeps its wall above, but not the one to the left. -/
def notch : Pattern := ⟨1, 1, #[0x40]⟩

/-- Two bends that share a cell, a notch in the edge, and a short line somewhere beside it. -/
def overlapping : List Placement :=
  [.fixed ⟨0, 0⟩ bend, .fixed ⟨1, 1⟩ bend, .fixed ⟨0, 5⟩ notch, .scattered Pattern.blank 1 2 3 4]

/-- Put on the board the other way round they leave the same cells behind. A notch in the edge
    leads nowhere, but its cell is not empty. -/
theorem board_told_by_stamps_overlapping :
    ∃ started turned, (thirtySixCells.start overlapping (some 4)).result = .ok started ∧
      (thirtySixCells.start overlapping.reverse (some 4)).result = .ok turned ∧
      (∀ place, turned.maze.get place = started.maze.get place) ∧
      started.maze.openNeighbors ⟨0, 5⟩ = [] ∧ (started.maze.get ⟨0, 5⟩).empty = false := by
  have drawable : ∀ placement ∈ overlapping, placement.Drawable := by
    simp only [overlapping, List.forall_mem_cons, Placement.Drawable, true_and]
    exact ⟨by decide, List.forall_mem_nil _⟩
  have settledSeen : (settleAll overlapping (seedSource thirtySixCells.source (some 4))).toOption.map
      Prod.fst = some [⟨⟨0, 0⟩, bend⟩, ⟨⟨1, 1⟩, bend⟩, ⟨⟨0, 5⟩, notch⟩, ⟨⟨2, 4⟩, Pattern.blank⟩] := by
    decide +kernel
  have turnedSeen : (settleAll overlapping.reverse (seedSource thirtySixCells.source
      (some 4))).toOption.map Prod.fst =
        some [⟨⟨2, 4⟩, Pattern.blank⟩, ⟨⟨0, 5⟩, notch⟩, ⟨⟨1, 1⟩, bend⟩, ⟨⟨0, 0⟩, bend⟩] := by
    decide +kernel
  have boardSeen : (thirtySixCells.start overlapping (some 4)).result.toOption.map (fun started =>
      (started.maze.openNeighbors ⟨0, 5⟩, (started.maze.get ⟨0, 5⟩).empty)) = some ([], false) := by
    decide +kernel
  obtain ⟨stamps, drawn, settled, -, cycle⟩ :=
    board_told_by_stamps thirtySixCells drawable (some 4)
  rw [settled] at settledSeen
  obtain rfl := Option.some.inj settledSeen
  cases turnedSettled : settleAll overlapping.reverse (seedSource thirtySixCells.source (some 4)) with
  | error fault =>
    rw [turnedSettled] at turnedSeen
    cases turnedSeen
  | ok answer =>
    obtain ⟨turnedStamps, turnedDrawn⟩ := answer
    rw [turnedSettled] at turnedSeen
    obtain rfl := Option.some.inj turnedSeen
    obtain ⟨started, answered, -, -, -, -, inAnyOrder⟩ := cycle (by decide)
    obtain ⟨turned, turnedAnswered, same⟩ := inAnyOrder rfl turnedSettled (by decide)
    obtain ⟨board, boardAnswered, seen⟩ := Logged.exists_of_seen boardSeen
    obtain rfl := Except.ok.inj (answered.symm.trans boardAnswered)
    obtain ⟨closed, occupied⟩ := Prod.mk.inj seen
    exact ⟨started, turned, answered, turnedAnswered, same, closed, occupied⟩

end Generator

end MazeDial
