import MazeDial.Proofs.LoopErasure
import MazeDial.Proofs.Scripts
import Mathlib.Combinatorics.SimpleGraph.Paths

/-!
# Ways out of a walk

A walk may not leave a place by the way it came, and every other way may lead back into its
own trail. It is not trapped there. Each edge of the board is a side of a square, so that
the three other sides lead around it to the place before: either one of the places on the
way is not empty and the walk joins there, or one of them was on the earlier part of the
trail, or the walk closes a loop at the place before. In all cases but the first the trail
is now shorter than it was. From a trail of a single place the walk can go straight to any
cell that is not empty.

That there are such directions does not say that a random walk comes to draw them. It says
that no draws, however unlucky, bring a walk to a state that it cannot leave.
-/

namespace MazeDial

open SimpleGraph

/-- Takes directions one after another, as long as the walk goes on. -/
def Maze.strideAlong (maze : Maze) (cursor : Coord) : List UInt8 → Except Fault Maze.Stride
  | [] => .ok (.onward maze cursor)
  | direction :: directions =>
    match maze.stride cursor (Side.ofIndex direction) with
    | .ok (.onward next place) => next.strideAlong place directions
    | ended => ended

/-- Directions taken in two parts are taken one part after the other. -/
theorem Maze.strideAlong_append {maze next : Maze} {cursor place : Coord} {taken : List UInt8}
    (reached : maze.strideAlong cursor taken = .ok (.onward next place)) (further : List UInt8) :
    maze.strideAlong cursor (taken ++ further) = next.strideAlong place further := by
  induction taken generalizing maze cursor with
  | nil =>
    obtain ⟨rfl, rfl⟩ := Maze.Stride.onward.inj (Except.ok.inj reached)
    rfl
  | cons direction taken inductionHypothesis =>
    rw [List.cons_append, strideAlong]
    rw [strideAlong] at reached
    split at reached
    · exact inductionHypothesis reached
    · next unending =>
      exact absurd reached (unending _ _)

section Draws

variable {σ : Type} [RandomSource σ]

/-- The directions that a source draws one after another, and what is then left of it. -/
inductive DrawsDirections : σ → List UInt8 → σ → Prop
  | none {source : σ} : DrawsDirections source [] source
  | next {source after last : σ} {direction : UInt8} {directions : List UInt8}
      (drawn : drawByte 0 3 source = .ok (direction, after))
      (further : DrawsDirections after directions last) :
      DrawsDirections source (direction :: directions) last

/-- A walk takes the directions that its source draws. -/
theorem walkOn_of_draws {source after : σ} {directions : List UInt8} {maze last : Maze}
    {cursor place : Coord} {ending : Maze.Ending} {strides : Nat}
    (draws : DrawsDirections source directions after)
    (ended : maze.strideAlong cursor directions = .ok (.ended last place ending))
    (ample : directions.length ≤ strides) :
    ∃ path, walkOn strides maze source cursor = .ok path ∧ path.maze = last ∧
      path.cursor = place ∧ path.ending = ending := by
  induction draws generalizing maze cursor strides with
  | none => cases ended
  | @next source after _ direction directions drawn _ inductionHypothesis =>
    obtain ⟨strides, rfl⟩ := Nat.exists_eq_add_of_le' (Nat.le_of_add_left_le ample)
    rw [walkOn, drawn]
    rw [Maze.strideAlong] at ended
    cases strode : maze.stride cursor (Side.ofIndex direction) with
    | error fault =>
      rw [strode] at ended
      cases ended
    | ok stride =>
      rw [strode] at ended
      simp only [strode]
      cases stride with
      | onward next here => exact inductionHypothesis ended (Nat.le_of_succ_le_succ ample)
      | ended final here how =>
        obtain ⟨sameMaze, samePlace, sameEnding⟩ := Maze.Stride.ended.inj (Except.ok.inj ended)
        exact ⟨_, rfl, sameMaze, samePlace, sameEnding⟩

/-- Directions that are written down are drawn. -/
theorem Script.draws (numbers : List Nat) {directions : List UInt8}
    (small : ∀ direction ∈ directions, direction ≤ 3) :
    DrawsDirections (⟨directions.map UInt8.toNat⟩ : Script numbers) directions ⟨[]⟩ := by
  induction directions with
  | nil => exact .none
  | cons direction directions inductionHypothesis =>
    obtain ⟨first, others⟩ := List.forall_mem_cons.mp small
    exact .next (drawByte_script UInt8.zero_le first _) (inductionHypothesis others)

end Draws

/-- Between neighbours, all of the board can be reached. -/
theorem Size.grid_reachable {size : Size} {place other : Coord} (inside : size.Contains place)
    (otherInside : size.Contains other) : size.grid.Reachable place other := by
  have shared (here : Coord) (side : Side) (within : size.Contains here)
      (across : size.Contains (here.step side)) :
      size.grid.Reachable place here ↔ size.grid.Reachable place (here.step side) := by
    have neighbors : size.grid.Adj here (here.step side) := ⟨within, across, side, rfl⟩
    exact ⟨fun reached => reached.trans neighbors.reachable,
      fun reached => reached.trans neighbors.symm.reachable⟩
  exact (shared_of_step shared inside otherInside).mp (Reachable.refl place)

namespace Walking

variable {base maze : Maze} {cursor : Coord} {rest : List Coord} {side : Side}

/-- A walk may leave a place by every side that leads to a place of the board, but for the
    one it came by. -/
theorem isBreachable (carvable : Carvable base) (walking : Walking base (cursor :: rest) maze)
    (across : base.size.Contains (cursor.step side))
    (ahead : rest.head? ≠ some (cursor.step side)) : maze.isBreachable cursor side = true := by
  have standing : base.wall cursor side = true :=
    carvable.walled cursor side (walking.isTrail.empty cursor List.mem_cons_self) across
  have apart : ¬ (trailGraph (cursor :: rest)).Adj cursor (cursor.step side) := by
    cases rest with
    | nil => exact id
    | cons earlier rest =>
      rw [adj_latest_iff walking.isTrail.nodup]
      rintro back
      exact ahead (congrArg some back.symm)
  simp only [Maze.isBreachable, Bool.and_eq_true, decide_eq_true_eq]
  exact ⟨walking.laid.size_eq.symm ▸ across, (walking.laid.wall_iff _ _).mpr ⟨standing, apart⟩⟩

/-- There always is such a side, at right angles to the one that the walk came by. -/
theorem exists_ahead (walking : Walking base (cursor :: rest) maze) :
    ∃ side, base.size.Contains (cursor.step side) ∧ rest.head? ≠ some (cursor.step side) := by
  cases rest with
  | nil =>
    obtain ⟨turn, -, across⟩ := exists_crossing walking.inside .up
    exact ⟨turn, across, nofun⟩
  | cons earlier rest =>
    obtain ⟨-, -, back, rfl⟩ := (List.isChain_cons_cons.mp walking.isTrail.linked).1
    obtain ⟨turn, crosses, across⟩ := exists_crossing walking.inside back
    refine ⟨turn, across, ?_⟩
    intro same
    exact crosses.1 (step_injective walking.inside (Option.some.inj same)).symm

/-- A direction after which the walk goes on leaves it at the end of a trail. -/
theorem stride (carvable : Carvable base) (walking : Walking base (cursor :: rest) maze)
    {next : Maze} {place : Coord} (strode : maze.stride cursor side = .ok (.onward next place)) :
    ∃ tail, Walking base (place :: tail) next := by
  by_cases breachable : maze.isBreachable cursor side = true
  · cases empty : (base.get (cursor.step side)).empty with
    | true =>
      obtain ⟨tail, after, advanced, -, onward⟩ := walking.onward carvable breachable empty
      obtain ⟨rfl, rfl⟩ := Maze.Stride.onward.inj (Except.ok.inj (strode.symm.trans advanced))
      exact ⟨tail, onward⟩
    | false =>
      obtain ⟨after, joined, -⟩ := Maze.stride_join walking.isTrail walking.laid breachable empty
      exact nomatch Except.ok.inj (strode.symm.trans joined)
  · rw [Maze.stride_of_not_breachable breachable] at strode
    obtain ⟨rfl, rfl⟩ := Maze.Stride.onward.inj (Except.ok.inj strode)
    exact ⟨rest, walking⟩

/-- So do any directions. -/
theorem strideAlong (carvable : Carvable base) (walking : Walking base (cursor :: rest) maze)
    {taken : List UInt8} {next : Maze} {place : Coord}
    (reached : maze.strideAlong cursor taken = .ok (.onward next place)) :
    ∃ tail, Walking base (place :: tail) next := by
  induction taken generalizing maze cursor rest with
  | nil =>
    obtain ⟨rfl, rfl⟩ := Maze.Stride.onward.inj (Except.ok.inj reached)
    exact ⟨rest, walking⟩
  | cons direction taken inductionHypothesis =>
    rw [Maze.strideAlong] at reached
    split at reached
    · next strode =>
      obtain ⟨tail, onward⟩ := walking.stride carvable strode
      exact inductionHypothesis onward reached
    · next unending =>
      exact absurd reached (unending _ _)

end Walking

/-- Some directions bring a walk to a cell that was not empty, where it joins the maze. -/
def Escapes (base maze : Maze) (cursor : Coord) : Prop :=
  ∃ directions : List UInt8, (∀ direction ∈ directions, direction ≤ 3) ∧
    ∃ last place, maze.strideAlong cursor directions = .ok (.ended last place .joined) ∧
      base.size.Contains place ∧ (base.get place).empty = false

/-- A trail that comes back to a place of its earlier part is no longer than that part. -/
theorem length_advance_lt {front earlier tail : List Coord} {next : Coord} (absent : next ∉ front)
    (member : next ∈ earlier) (shape : advance (front ++ earlier) next = next :: tail) :
    tail.length < earlier.length := by
  have rewound : rewind next (front ++ earlier) = rewind next earlier := by
    clear shape
    induction front with
    | nil => rfl
    | cons place front inductionHypothesis =>
      rw [List.mem_cons, not_or] at absent
      simp only [List.cons_append, rewind, Ne.symm absent.1, if_false,
        inductionHypothesis absent.2]
  obtain ⟨rest, same, part⟩ := rewind_of_mem member
  rw [advance, if_pos (List.mem_append_right _ member), rewound, same] at shape
  obtain ⟨-, rfl⟩ := List.cons.inj shape
  exact part.length_le

/-- A trail that goes on to a place comes back to its earlier part, or grows by that place. -/
theorem advance_shape {front earlier tail : List Coord} {next : Coord} (absent : next ∉ front)
    (shape : advance (front ++ earlier) next = next :: tail) :
    tail.length < earlier.length ∨ tail = front ++ earlier := by
  by_cases member : next ∈ earlier
  · exact .inl (length_advance_lt absent member shape)
  · have fresh : next ∉ front ++ earlier := fun listed =>
      (List.mem_append.mp listed).elim absent member
    rw [advance, if_neg fresh] at shape
    exact .inr (List.cons.inj shape).2.symm

section Escape

variable {base maze : Maze} {cursor : Coord} {rest : List Coord}

/-- A walk that may go on to a place has a way out if it joins there, or if there is one from
    the trail advanced to that place. -/
theorem Walking.escapes_ahead (carvable : Carvable base)
    (walking : Walking base (cursor :: rest) maze) {side : Side}
    (across : base.size.Contains (cursor.step side))
    (ahead : rest.head? ≠ some (cursor.step side))
    (further : ∀ tail after, advance (cursor :: rest) (cursor.step side) = cursor.step side :: tail →
      Walking base (cursor.step side :: tail) after → Escapes base after (cursor.step side)) :
    Escapes base maze cursor := by
  obtain ⟨direction, small, named⟩ := side.exists_index
  have breachable := walking.isBreachable carvable across ahead
  cases empty : (base.get (cursor.step side)).empty with
  | true =>
    obtain ⟨tail, after, strode, shape, onward⟩ := walking.onward carvable breachable empty
    obtain ⟨directions, allSmall, last, place, ended, joined⟩ := further tail after shape onward
    refine ⟨direction :: directions, List.forall_mem_cons.mpr ⟨small, allSmall⟩, last, place, ?_,
      joined⟩
    rw [Maze.strideAlong, named, strode]
    exact ended
  | false =>
    obtain ⟨after, strode, -⟩ := Maze.stride_join walking.isTrail walking.laid breachable empty
    refine ⟨[direction], List.forall_mem_singleton.mpr small, after, cursor.step side, ?_, across,
      empty⟩
    rw [Maze.strideAlong, named, strode]

/-- Along a path on the board that stays off its own trail a walk comes to a cell that is not
    empty. The induction follows the path; the trail grows by each of its places. -/
theorem Walking.escapes_along (carvable : Carvable base) {target : Coord}
    (occupied : (base.get target).empty = false) (way : base.size.grid.Walk cursor target)
    (isPath : way.IsPath) (apart : ∀ place ∈ way.support, place ∉ rest)
    (walking : Walking base (cursor :: rest) maze) : Escapes base maze cursor := by
  induction way generalizing rest maze with
  | nil =>
    have empty := walking.isTrail.empty _ List.mem_cons_self
    rw [occupied] at empty
    cases empty
  | @cons cursor next target neighbors way inductionHypothesis =>
    obtain ⟨straight, unvisited⟩ := (Walk.cons_isPath_iff ..).mp isPath
    have off : ∀ place ∈ way.support, place ∉ rest :=
      fun place visited => apart place (List.mem_cons_of_mem _ visited)
    obtain ⟨-, across, side, rfl⟩ := neighbors
    have fresh : cursor.step side ∉ cursor :: rest := by
      intro member
      rcases List.mem_cons.mp member with same | earlier
      · exact step_ne walking.inside same
      · exact off _ way.start_mem_support earlier
    apply walking.escapes_ahead carvable across
    · intro latest
      exact fresh (List.mem_cons_of_mem _ (List.mem_of_head? latest))
    · intro tail after shape onward
      rw [advance, if_neg fresh] at shape
      obtain ⟨-, rfl⟩ := List.cons.inj shape
      refine inductionHypothesis occupied straight ?_ onward
      intro place visited member
      rcases List.mem_cons.mp member with rfl | earlier
      · exact unvisited visited
      · exact off place visited earlier

/-- Every walk has a way out, if some cell of the maze is not empty. The induction is on the
    length of the trail: around a square the walk comes to the place before the last one,
    or to an earlier one, unless it joins. -/
theorem Walking.escapes (carvable : Carvable base) {target : Coord}
    (within : base.size.Contains target) (occupied : (base.get target).empty = false)
    (walking : Walking base (cursor :: rest) maze) : Escapes base maze cursor := by
  generalize long : rest.length = length
  induction length using Nat.strong_induction_on generalizing rest cursor maze with
  | _ length inductionHypothesis =>
    subst long
    cases rest with
    | nil =>
      obtain ⟨way, straight⟩ := (Size.grid_reachable walking.inside within).exists_isPath
      exact walking.escapes_along carvable occupied way straight (fun _ _ => List.not_mem_nil)
    | cons earlier rest =>
      obtain ⟨inside, across, back, rfl⟩ := (List.isChain_cons_cons.mp walking.isTrail.linked).1
      obtain ⟨turn, besideInside, cornerInside, home, distinct⟩ := exists_detour inside across
      simp only [List.nodup_cons, List.mem_cons, List.not_mem_nil, or_false, not_or] at distinct
      obtain ⟨⟨homeCorner, homeBeside, homeCursor⟩, ⟨cornerBeside, cornerCursor⟩, besideCursor, -⟩ :=
        distinct
      -- The walk turns off; if that leads back into the earlier part of its trail, it is done.
      refine walking.escapes_ahead carvable besideInside
        (fun latest => homeBeside (Option.some.inj latest)) ?_
      intro tail after shape beside
      rcases advance_shape (List.mem_singleton.not.mpr besideCursor) shape with shorter | rfl
      · exact inductionHypothesis _ shorter beside rfl
      -- So it is if the fourth place of the square does.
      refine beside.escapes_ahead carvable cornerInside
        (fun latest => cornerCursor (Option.some.inj latest).symm) ?_
      intro tail later shape corner
      have corner_fresh : (cursor.step turn).step back ∉ [cursor.step turn, cursor] := by
        simp [cornerBeside, cornerCursor]
      rcases advance_shape corner_fresh shape with shorter | rfl
      · exact inductionHypothesis _ shorter corner rfl
      -- Else it closes a loop at the place that it came from.
      refine corner.escapes_ahead carvable (home.symm ▸ across)
        (fun latest => homeBeside (home ▸ (Option.some.inj latest).symm)) ?_
      rw [home]
      intro tail final shape before
      have home_fresh :
          cursor.step back ∉ [(cursor.step turn).step back, cursor.step turn, cursor] := by
        simp [homeCorner, homeBeside, homeCursor]
      exact inductionHypothesis _ (length_advance_lt home_fresh List.mem_cons_self shape) before rfl

end Escape

/-- A walk is never trapped. Whatever directions it has taken from an empty cell of a carvable
    maze in which some cell is not empty, if it has not joined yet, there is a wall in front
    of it that it may take out, and there are directions by which it joins a cell that was
    not empty: each path whose source draws them after those taken does. -/
theorem walk_never_trapped {base : Maze} (carvable : Carvable base) {other : Coord}
    (within : base.size.Contains other) (occupied : (base.get other).empty = false) {start : Coord}
    (empty : (base.get start).empty = true) {taken : List UInt8} {maze : Maze} {cursor : Coord}
    (reached : (base.claim start).strideAlong start taken = .ok (.onward maze cursor)) :
    (∃ side, maze.size.Contains (cursor.step side) ∧ maze.wall cursor side = true) ∧
    ∃ directions : List UInt8, (∀ direction ∈ directions, direction ≤ 3) ∧
      ∃ last place, maze.strideAlong cursor directions = .ok (.ended last place .joined) ∧
        base.size.Contains place ∧ (base.get place).empty = false ∧
        ∀ {σ : Type} [RandomSource σ] {source after : σ} {strides : Nat},
          DrawsDirections source (taken ++ directions) after →
          (taken ++ directions).length ≤ strides →
          ∃ path, carvePath strides base source start = .ok path ∧ path.maze = last ∧
            path.cursor = place ∧ path.ending = .joined := by
  obtain ⟨rest, walking⟩ := (Walking.claim carvable empty).strideAlong carvable reached
  constructor
  · obtain ⟨side, across, ahead⟩ := walking.exists_ahead
    have breachable := walking.isBreachable carvable across ahead
    simp only [Maze.isBreachable, Bool.and_eq_true, decide_eq_true_eq] at breachable
    exact ⟨side, breachable⟩
  · obtain ⟨directions, small, last, place, joined, inside, notEmpty⟩ :=
      walking.escapes carvable within occupied
    refine ⟨directions, small, last, place, joined, inside, notEmpty, ?_⟩
    intro σ _ source after strides draws ample
    rw [← Maze.strideAlong_append reached] at joined
    exact walkOn_of_draws draws joined ample

/-- On the board with one cell that is not empty, a walk has gone around three places to the
    corner beside its start, and can only close the loop. Some script takes it from there to
    the maze. -/
theorem walk_never_trapped_cornered :
    ∃ maze, (cornered.claim ⟨1, 0⟩).strideAlong ⟨1, 0⟩ [2, 1, 0] = .ok (.onward maze ⟨0, 0⟩) ∧
      ∃ directions : List UInt8, ∃ path : Path (Script []),
        carvePath (3 + directions.length) cornered
          (⟨([2, 1, 0] ++ directions).map UInt8.toNat⟩ : Script []) ⟨1, 0⟩ = .ok path ∧
        path.ending = .joined := by
  have seen : ((cornered.claim ⟨1, 0⟩).strideAlong ⟨1, 0⟩ [2, 1, 0]).toOption.map (fun
      | .onward _ cursor => some cursor
      | .ended .. => none) = some (some ⟨0, 0⟩) := by
    decide +kernel
  obtain ⟨maze, reached⟩ : ∃ maze, (cornered.claim ⟨1, 0⟩).strideAlong ⟨1, 0⟩ [2, 1, 0] =
      .ok (.onward maze ⟨0, 0⟩) := by
    cases strode : (cornered.claim ⟨1, 0⟩).strideAlong ⟨1, 0⟩ [2, 1, 0] with
    | error fault =>
      rw [strode] at seen
      cases seen
    | ok stride =>
      rw [strode] at seen
      cases stride with
      | onward maze cursor =>
        obtain rfl : cursor = ⟨0, 0⟩ := Option.some.inj (Option.some.inj seen)
        exact ⟨maze, rfl⟩
      | ended _ _ _ => cases Option.some.inj seen
  have carvable : Carvable cornered := Maze.carvable_clearEmpty (carvable_fresh _) _
  have within : cornered.size.Contains ⟨2, 2⟩ := by decide
  have occupied : (cornered.get ⟨2, 2⟩).empty = false := by decide +kernel
  have empty : (cornered.get ⟨1, 0⟩).empty = true := by decide +kernel
  obtain ⟨-, directions, small, last, place, -, -, -, joins⟩ :=
    walk_never_trapped carvable within occupied empty reached
  have allSmall : ∀ direction ∈ [2, 1, 0] ++ directions, direction ≤ 3 :=
    List.forall_mem_append.mpr ⟨by decide +kernel, small⟩
  have ample : ([2, 1, 0] ++ directions).length ≤ 3 + directions.length :=
    Nat.le_of_eq List.length_append
  obtain ⟨path, carved, -, -, ending⟩ := joins (Script.draws [] allSmall) ample
  exact ⟨maze, reached, directions, path, carved, ending⟩

end MazeDial
