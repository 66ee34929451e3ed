import MazeDial.Carving.Walk
import MazeDial.Proofs.Draws
import MazeDial.Proofs.Growth
import MazeDial.Proofs.Passages

/-!
# The trail of a walk

A walk keeps no record of its way; it finds back by the walls it took out. Here
the way is put beside it as a trail, a list of places with the latest first, and
the half-carved maze is described by it: exactly the walls between successive
places of the trail are out, and exactly its places are taken. The description
holds at every moment of a walk through a carvable maze.

It follows that a retreat cannot err. The latest place of a trail has one open
side, which leads to the place before it; raising the wall there and giving the
cell back leaves the maze of the shorter trail. So a retreat undoes the loop it
closes exactly, whichever open side it looks for first.
-/

namespace MazeDial

open SimpleGraph

/-- The graph of a trail: each place is joined to the one before it. -/
def trailGraph : List Coord → SimpleGraph Coord
  | latest :: earlier :: rest => edge latest earlier ⊔ trailGraph (earlier :: rest)
  | _ => ⊥

/-- The graph of a trail joins places of the trail. -/
theorem mem_of_adj_trailGraph {trail : List Coord} {place other : Coord}
    (adjacent : (trailGraph trail).Adj place other) : place ∈ trail := by
  induction trail with
  | nil => exact adjacent.elim
  | cons latest rest inductionHypothesis =>
    cases rest with
    | nil => exact adjacent.elim
    | cons earlier rest =>
      rcases adjacent with first | later
      · rcases ((edge_adj ..).mp first).1 with ⟨rfl, _⟩ | ⟨rfl, _⟩ <;> simp
      · exact List.mem_cons_of_mem _ (inductionHypothesis later)

/-- Where successive places are neighbours, the graph of a trail joins neighbours. -/
theorem trailGraph_le {trail : List Coord} {graph : SimpleGraph Coord}
    (linked : trail.IsChain graph.Adj) : trailGraph trail ≤ graph := by
  induction trail with
  | nil => exact bot_le
  | cons latest rest inductionHypothesis =>
    cases rest with
    | nil => exact bot_le
    | cons earlier rest =>
      rw [List.isChain_cons_cons] at linked
      exact sup_le ((edge_le_iff _).mpr (.inr linked.1)) (inductionHypothesis linked.2)

/-- On a trail without repetitions the latest place is joined to the one before it only. -/
theorem adj_latest_iff {latest earlier other : Coord} {rest : List Coord}
    (distinct : (latest :: earlier :: rest).Nodup) :
    (trailGraph (latest :: earlier :: rest)).Adj latest other ↔ other = earlier := by
  have absent : latest ∉ earlier :: rest := (List.nodup_cons.mp distinct).1
  have apart : latest ≠ earlier := fun same => absent (same ▸ List.mem_cons_self)
  constructor
  · rintro (first | later)
    · rcases ((edge_adj ..).mp first).1 with ⟨_, same⟩ | ⟨same, _⟩
      · exact same
      · exact absurd same apart
    · exact absurd (mem_of_adj_trailGraph later) absent
  · rintro rfl
    exact .inl ((edge_adj ..).mpr ⟨.inl ⟨rfl, rfl⟩, apart⟩)

/-- The trail from a place on it back to the start; nothing if it never was there. -/
def rewind (target : Coord) : List Coord → List Coord
  | [] => []
  | place :: rest => if place = target then place :: rest else rewind target rest

/-- A rewound trail ends at its target, and is a part of the trail. -/
theorem rewind_of_mem {target : Coord} {trail : List Coord} (member : target ∈ trail) :
    ∃ rest, rewind target trail = target :: rest ∧ (target :: rest) <:+ trail := by
  induction trail with
  | nil => exact absurd member List.not_mem_nil
  | cons place rest inductionHypothesis =>
    by_cases same : place = target
    · subst same
      exact ⟨rest, by simp [rewind], List.suffix_refl _⟩
    · obtain ⟨tail, rewound, part⟩ :=
        inductionHypothesis ((List.mem_cons.mp member).resolve_left (Ne.symm same))
      exact ⟨tail, by simp [rewind, same, rewound], part.trans (List.suffix_cons _ _)⟩

/-- The trail after a walk has gone on to a place: its loop erased, if it closed one. -/
def advance (trail : List Coord) (next : Coord) : List Coord :=
  if next ∈ trail then rewind next trail else next :: trail

/-- The latest place of an advanced trail is where the walk has gone. -/
theorem advance_eq_cons (trail : List Coord) (next : Coord) :
    ∃ rest, advance trail next = next :: rest := by
  unfold advance
  split
  · next member =>
    obtain ⟨rest, rewound, _⟩ := rewind_of_mem member
    exact ⟨rest, rewound⟩
  · exact ⟨trail, rfl⟩

/-- A maze that carving can go on from: no cell is visited, and every empty cell has
    its wall on each side that leads to a place of the board. -/
structure Carvable (maze : Maze) : Prop where
  unvisited : ∀ place, (maze.get place).visited = false
  walled : ∀ place side, (maze.get place).empty = true → maze.size.Contains (place.step side) →
    maze.wall place side = true

/-- No passage leads from an empty cell of a carvable maze. -/
theorem Carvable.isIsolated {maze : Maze} (carvable : Carvable maze) {place : Coord}
    (empty : (maze.get place).empty = true) : maze.graph.IsIsolated place := by
  rintro _ ⟨side, isOpen, rfl⟩
  obtain ⟨across, down⟩ := Maze.isOpen_iff.mp isOpen
  rw [carvable.walled place side empty across] at down
  exact Bool.noConfusion down

/-- A trail through empty cells of a maze, from neighbour to neighbour and without
    repetitions. -/
structure IsTrail (base : Maze) (trail : List Coord) : Prop where
  nodup : trail.Nodup
  empty : ∀ place ∈ trail, (base.get place).empty = true
  linked : trail.IsChain base.size.grid.Adj

namespace IsTrail

variable {base : Maze} {trail : List Coord}

/-- The earlier part of a trail is a trail. -/
theorem of_suffix {earlier : List Coord} (isTrail : IsTrail base trail)
    (part : earlier <:+ trail) : IsTrail base earlier where
  nodup := isTrail.nodup.sublist part.sublist
  empty place member := isTrail.empty place (part.subset member)
  linked := isTrail.linked.suffix part

/-- A trail visits every cell once at most. -/
theorem length_le (isTrail : IsTrail base trail) : trail.length ≤ base.size.area :=
  Size.length_le_area isTrail.nodup fun place member =>
    Maze.contains_of_empty (isTrail.empty place member)

/-- Going on to a neighbouring empty cell leads from a trail to a trail. -/
theorem advance {cursor next : Coord} {rest : List Coord} (isTrail : IsTrail base (cursor :: rest))
    (neighbors : base.size.grid.Adj next cursor) (empty : (base.get next).empty = true) :
    IsTrail base (MazeDial.advance (cursor :: rest) next) := by
  unfold MazeDial.advance
  split
  · next member =>
    obtain ⟨tail, rewound, part⟩ := rewind_of_mem member
    rw [rewound]
    exact isTrail.of_suffix part
  · next absent =>
    refine ⟨List.nodup_cons.mpr ⟨absent, isTrail.nodup⟩, ?_, ?_⟩
    · intro place member
      rcases List.mem_cons.mp member with rfl | before
      · exact empty
      · exact isTrail.empty place before
    · exact List.isChain_cons_cons.mpr ⟨neighbors, isTrail.linked⟩

end IsTrail

namespace Maze

variable {maze : Maze}

@[simp] theorem size_claim (maze : Maze) (place : Coord) : (maze.claim place).size = maze.size := by
  simp [claim]

@[simp] theorem size_release (maze : Maze) (place : Coord) :
    (maze.release place).size = maze.size := by
  simp [release]

@[simp] theorem wall_claim (maze : Maze) (place other : Coord) (side : Side) :
    (maze.claim place).wall other side = maze.wall other side :=
  wall_set_of_walls (fun side => by cases side <;> rfl) other side

@[simp] theorem wall_release (maze : Maze) (place other : Coord) (side : Side) :
    (maze.release place).wall other side = maze.wall other side :=
  wall_set_of_walls (fun side => by cases side <;> rfl) other side

/-- A cell taken is neither empty nor unvisited; the others stay as they are. -/
theorem flags_claim {place : Coord} (inside : maze.size.Contains place) (other : Coord) :
    ((maze.claim place).get other).empty = ((maze.get other).empty && other != place) ∧
      ((maze.claim place).get other).visited = ((maze.get other).visited || other == place) := by
  rw [claim, get_set]
  by_cases same : other = place <;> simp [same, inside]

/-- A cell given back is empty and unvisited; the others stay as they are. -/
theorem flags_release {place : Coord} (inside : maze.size.Contains place) (other : Coord) :
    ((maze.release place).get other).empty = ((maze.get other).empty || other == place) ∧
      ((maze.release place).get other).visited = ((maze.get other).visited && other != place) := by
  rw [release, get_set]
  by_cases same : other = place <;> simp [same, inside]

@[simp] theorem size_withdraw (maze : Maze) (place : Coord) (side : Side) :
    (maze.withdraw place side).size = maze.size := by
  simp [withdraw]

/-- A step of a retreat raises the wall that it goes through, and no other. -/
theorem wall_withdraw {place : Coord} {side : Side} (kept : maze.size.Contains (place.keeper side))
    (other : Coord) (otherSide : Side) :
    (maze.withdraw place side).wall other otherSide = true ↔
      s(other, other.step otherSide) = s(place, place.step side) ∨
        maze.wall other otherSide = true := by
  rw [withdraw, wall_release, wall_setWall kept]
  split <;> simp [*]

/-- It gives back the cell that it leaves, and no other. -/
theorem flags_withdraw {place : Coord} (inside : maze.size.Contains place) (side : Side)
    (other : Coord) :
    ((maze.withdraw place side).get other).empty = ((maze.get other).empty || other == place) ∧
      ((maze.withdraw place side).get other).visited =
        ((maze.get other).visited && other != place) := by
  have inside' : (maze.setWall place side true).size.Contains place := by simpa using inside
  obtain ⟨empty, visited⟩ := flags_release inside' other
  rw [empty_setWall] at empty
  rw [visited_setWall] at visited
  exact ⟨empty, visited⟩

/-- A cell whose empty flag is cleared is not empty; all other flags stay as they are. -/
theorem flags_clearEmpty (place other : Coord) :
    ((maze.setEmpty place false).get other).empty = ((maze.get other).empty && other != place) ∧
      ((maze.setEmpty place false).get other).visited = (maze.get other).visited := by
  rw [setEmpty, get_set]
  by_cases inside : maze.size.Contains place
  · by_cases same : other = place <;> simp [same, inside]
  · by_cases same : other = place <;> simp [same, inside, get_outside, Cell.closed]

/-- Clearing an empty flag leaves a carvable maze carvable. -/
theorem carvable_clearEmpty (carvable : Carvable maze) (place : Coord) :
    Carvable (maze.setEmpty place false) where
  unvisited other := by rw [(flags_clearEmpty place other).2, carvable.unvisited]
  walled other side empty across := by
    rw [(flags_clearEmpty place other).1, Bool.and_eq_true] at empty
    rw [size_setEmpty] at across
    rw [wall_setEmpty]
    exact carvable.walled other side empty.1 across

/-- A maze in which a trail has been laid: the walls along the trail are out, and the
    places taken are neither empty nor unvisited. Nothing else differs. While a walk
    goes on, all places of its trail are taken; the last one of a completed walk was
    part of the maze before. -/
structure Laid (base : Maze) (trail taken : List Coord) (maze : Maze) : Prop
    extends Opened base (trailGraph trail) maze where
  empty_iff : ∀ place, (maze.get place).empty = true ↔
    (base.get place).empty = true ∧ place ∉ taken
  visited_iff : ∀ place, (maze.get place).visited = true ↔ place ∈ taken

variable {base : Maze}

/-- A walk starts by taking its first cell. -/
theorem laid_claim (carvable : Carvable base) {start : Coord}
    (empty : (base.get start).empty = true) : Laid base [start] [start] (base.claim start) where
  size_eq := size_claim ..
  wall_iff place side := by simp [trailGraph]
  empty_iff place := by
    rw [(flags_claim (contains_of_empty empty) place).1]
    simp
  visited_iff place := by
    rw [(flags_claim (contains_of_empty empty) place).2, carvable.unvisited]
    simp

namespace Laid

variable {cursor next earlier : Coord} {rest trail taken : List Coord}

/-- Taking out the wall to a further place makes it the latest of the trail. -/
theorem breach (laid : Laid base (cursor :: rest) taken maze) {side : Side}
    (inside : maze.size.Contains cursor) (across : maze.size.Contains (cursor.step side)) :
    Laid base (cursor.step side :: cursor :: rest) taken (maze.setWall cursor side false) where
  toOpened := by
    have extended : edge (cursor.step side) cursor ⊔ trailGraph (cursor :: rest) =
        trailGraph (cursor :: rest) ⊔ edge cursor (cursor.step side) := by
      rw [sup_comm, edge_comm]
    rw [trailGraph, extended]
    exact laid.toOpened.trans (opened_setWall (contains_keeper inside across))
  empty_iff place := by rw [empty_setWall, laid.empty_iff]
  visited_iff place := by rw [visited_setWall, laid.visited_iff]

/-- Taking a cell adds it to the places taken, if it was not one of them before. -/
theorem claim (laid : Laid base trail taken maze) {place : Coord}
    (inside : maze.size.Contains place) : Laid base trail (place :: taken) (maze.claim place) where
  size_eq := (size_claim ..).trans laid.size_eq
  wall_iff other side := by rw [wall_claim, laid.wall_iff]
  empty_iff other := by
    rw [(flags_claim inside other).1, Bool.and_eq_true, laid.empty_iff, List.mem_cons, not_or,
      bne_iff_ne, and_assoc, and_comm (a := other ∉ taken)]
  visited_iff other := by
    rw [(flags_claim inside other).2, Bool.or_eq_true, laid.visited_iff, List.mem_cons, beq_iff_eq,
      or_comm]

/-- Which of the places taken are listed more than once makes no difference. -/
theorem congr_taken {listed : List Coord} (laid : Laid base trail taken maze)
    (same : ∀ place, place ∈ taken ↔ place ∈ listed) : Laid base trail listed maze where
  toOpened := laid.toOpened
  empty_iff place := by rw [laid.empty_iff, same]
  visited_iff place := by rw [laid.visited_iff, same]

/-- The latest place of a trail has one open side, which leads to the place before. -/
theorem isOpen_latest_iff (carvable : Carvable base) (isTrail : IsTrail base (cursor :: earlier :: rest))
    (laid : Laid base (cursor :: earlier :: rest) taken maze) {side : Side} :
    maze.isOpen cursor side = true ↔ cursor.step side = earlier := by
  have latest : (trailGraph (cursor :: earlier :: rest)).Adj cursor (cursor.step side) ↔
      cursor.step side = earlier := adj_latest_iff isTrail.nodup
  rw [isOpen_iff, laid.size_eq, ← latest, ← Bool.not_eq_true, laid.wall_iff]
  constructor
  · rintro ⟨across, down⟩
    by_contra apart
    exact down ⟨carvable.walled cursor side (isTrail.empty cursor List.mem_cons_self) across, apart⟩
  · intro adjacent
    constructor
    · rw [latest.mp adjacent]
      exact contains_of_empty (isTrail.empty earlier (by simp))
    · exact fun stands => stands.2 adjacent

/-- Walking back from the latest place of a trail leaves the maze of the earlier part:
    the wall raised again is the one the walk took out, and it stood in the beginning. -/
theorem withdraw (carvable : Carvable base) (isTrail : IsTrail base (cursor :: earlier :: rest))
    (laid : Laid base (cursor :: earlier :: rest) (cursor :: earlier :: rest) maze) {side : Side}
    (back : cursor.step side = earlier) :
    Laid base (earlier :: rest) (earlier :: rest) (maze.withdraw cursor side) := by
  have absent : cursor ∉ earlier :: rest := (List.nodup_cons.mp isTrail.nodup).1
  have emptyCursor : (base.get cursor).empty = true := isTrail.empty cursor List.mem_cons_self
  have inside : base.size.Contains cursor := contains_of_empty emptyCursor
  have across : base.size.Contains (cursor.step side) := by
    rw [back]
    exact contains_of_empty (isTrail.empty earlier (by simp))
  have kept : base.size.Contains (cursor.keeper side) := contains_keeper inside across
  constructor
  · refine ⟨(size_withdraw ..).trans laid.size_eq, fun other otherSide => ?_⟩
    rw [wall_withdraw (laid.size_eq.symm ▸ kept)]
    by_cases same : s(other, other.step otherSide) = s(cursor, cursor.step side)
    · have stood : base.wall other otherSide = true := by
        rw [wall_eq_of_pair kept same]
        exact carvable.walled cursor side emptyCursor across
      have apart : ¬ (trailGraph (earlier :: rest)).Adj other (other.step otherSide) := by
        intro adjacent
        rcases Sym2.eq_iff.mp same with ⟨here, _⟩ | ⟨_, there⟩
        · exact absent (here ▸ mem_of_adj_trailGraph adjacent)
        · exact absent (there ▸ mem_of_adj_trailGraph adjacent.symm)
      simp [same, stood, apart]
    · rw [or_iff_right same, laid.wall_iff, trailGraph, sup_adj, not_or, adj_edge, ← back]
      simp [Ne.symm same]
  · intro place
    rw [(flags_withdraw (laid.size_eq.symm ▸ inside) side place).1, Bool.or_eq_true,
      laid.empty_iff, beq_iff_eq, List.mem_cons, not_or]
    by_cases same : place = cursor
    · subst same
      simp [emptyCursor, absent]
    · simp [same]
  · intro place
    rw [(flags_withdraw (laid.size_eq.symm ▸ inside) side place).2, Bool.and_eq_true,
      laid.visited_iff, bne_iff_ne, List.mem_cons]
    by_cases same : place = cursor
    · subst same
      simp [absent]
    · simp [same]

end Laid

end Maze

end MazeDial
