import MazeDial.Proofs.Joining

/-!
# The passes of a flood

Nothing tells a flood when to stop but that it finds nowhere to go, and the cursor may come back
to cells that it has marked: an open place of the boundary may be one, and so may the cell
whose wall is taken out. Here its passes are followed without a bound on their number.

What carries the argument is that the scan of the boundary gives a place from which an unmarked
cell is one passage away. So a pass at a marked cell always finds one near it and goes on there;
the next pass marks it. A flood is at a dead end only where it has just marked a cell, which
it does once for each cell. Each cell pays for two passes: the one that marks it, and one
at a marked cell before.
-/

namespace MazeDial

variable {σ : Type}

namespace Flood

variable {flood : Flood σ}

/-- A pass is at a dead end if no unmarked cell is one passage away, once the cursor is marked. -/
def AtDeadEnd (flood : Flood σ) : Prop :=
  flood.mark.maze.floodNext flood.cursor = none

/-- Marking does not move the cursor. -/
@[simp] theorem cursor_mark (flood : Flood σ) : flood.mark.cursor = flood.cursor := by
  unfold mark
  split <;> rfl

/-- A flood comes to its end at a dead end. -/
theorem atDeadEnd_of_frontier (ended : flood.mark.frontier = .none) : flood.AtDeadEnd := by
  unfold frontier at ended
  split at ended
  · cases ended
  · next sealed => rwa [cursor_mark] at sealed

/-- A flood that can go on by itself is at a dead end only at a cell that it has not marked
    before. -/
theorem AtDeadEnd.unmarked (deadEnd : flood.AtDeadEnd) (ahead : flood.Ahead) :
    (flood.maze.get flood.cursor).visited = false := by
  by_contra visited
  rw [Bool.not_eq_false] at visited
  obtain ⟨next, found⟩ := ahead.resolve_left (by simp [visited])
  rw [AtDeadEnd, mark_of_visited visited, found] at deadEnd
  cases deadEnd

variable [RandomSource σ] {next final : Flood σ} {later : List (Flood σ)}

/-- One pass after which the flood goes on: along a passage, or through a wall of its boundary
    that is taken out. -/
inductive Goes (flood : Flood σ) : Flood σ → Prop where
  | along {place : Coord} (frontier : flood.mark.frontier = .open place) :
      Goes flood { flood.mark with cursor := place }
  | through {walls : List (Coord × Side)} {breached : Flood σ}
      (frontier : flood.mark.frontier = .walled walls)
      (answered : (flood.mark.breach walls).result = .ok breached) : Goes flood breached

/-- A flood goes on with some later passes, each given by the flood that it starts from, and
    comes to an end. -/
inductive Passes : Flood σ → List (Flood σ) → Flood σ → Prop where
  | last {flood : Flood σ} (frontier : flood.mark.frontier = .none) : Passes flood [] flood.mark
  | next {flood next final : Flood σ} {later : List (Flood σ)} (goes : flood.Goes next)
      (further : Passes next later final) : Passes flood (next :: later) final

/-- Without its bound on the passes, a flood goes on in one way at most. -/
theorem Goes.unique {other : Flood σ} (goes : flood.Goes next) (otherwise : flood.Goes other) :
    other = next := by
  cases goes with
  | along frontier =>
    cases otherwise with
    | along again =>
      obtain rfl := Boundary.open.inj (frontier.symm.trans again)
      rfl
    | through again => cases frontier.symm.trans again
  | through frontier answered =>
    cases otherwise with
    | along again => cases frontier.symm.trans again
    | through again answeredAgain =>
      obtain rfl := Boundary.walled.inj (frontier.symm.trans again)
      exact Except.ok.inj (answeredAgain.symm.trans answered)

/-- A flood that goes on has not come to its end. -/
theorem Goes.frontier_ne_none (goes : flood.Goes next) : flood.mark.frontier ≠ .none := by
  intro ended
  cases goes with
  | along frontier => cases ended.symm.trans frontier
  | through frontier => cases ended.symm.trans frontier

/-- The passes of a flood, and what it comes to, are determined. -/
theorem Passes.unique {others : List (Flood σ)} {other : Flood σ}
    (passes : flood.Passes later final) (otherwise : flood.Passes others other) :
    others = later ∧ other = final := by
  induction passes generalizing others other with
  | last frontier =>
    cases otherwise with
    | last => exact ⟨rfl, rfl⟩
    | next goes => exact absurd frontier goes.frontier_ne_none
  | next goes _ inductionHypothesis =>
    cases otherwise with
    | last frontier => exact absurd frontier goes.frontier_ne_none
    | next again further =>
      obtain rfl := goes.unique again
      obtain ⟨rfl, rfl⟩ := inductionHypothesis further
      exact ⟨rfl, rfl⟩

/-- A bound on the passes is one less after a pass. -/
theorem Goes.spread (goes : flood.Goes next) (bound : Nat) :
    (flood.spread (bound + 1)).result = (next.spread bound).result := by
  rw [Flood.spread]
  cases goes with
  | along frontier => simp only [frontier]
  | through frontier answered =>
    simp only [frontier, Logged.result_bind, answered]
    rfl

/-- A flood with a bound on its passes comes to the end that it has without, unless they are
    more. -/
theorem Passes.spread_eq_ok_iff {bound : Nat} (passes : flood.Passes later final) :
    (flood.spread bound).result = .ok final ↔ (flood :: later).length ≤ bound := by
  induction passes generalizing bound with
  | last frontier =>
    cases bound with
    | zero => simp [Flood.spread]
    | succ bound => simp [Flood.spread, frontier]
  | next goes _ inductionHypothesis =>
    cases bound with
    | zero => simp [Flood.spread]
    | succ bound =>
      rw [goes.spread, inductionHypothesis]
      exact Nat.succ_le_succ_iff.symm

/-- So a flood that comes to an end with a bound on its passes does without. -/
theorem exists_passes {bound : Nat} (spreads : (flood.spread bound).result = .ok final) :
    ∃ later, flood.Passes later final := by
  induction bound generalizing flood with
  | zero => cases spreads
  | succ bound inductionHypothesis =>
    have goesOn {next : Flood σ} (goes : flood.Goes next) :
        ∃ later, flood.Passes later final := by
      rw [goes.spread] at spreads
      obtain ⟨later, further⟩ := inductionHypothesis spreads
      exact ⟨_, .next goes further⟩
    cases frontier : flood.mark.frontier with
    | «open» place => exact goesOn (.along frontier)
    | walled walls =>
      rw [Flood.spread] at spreads
      simp only [frontier, Logged.result_bind_eq_ok] at spreads
      obtain ⟨breached, answered, -⟩ := spreads
      exact goesOn (.through frontier answered)
    | none =>
      rw [Flood.spread] at spreads
      simp only [frontier] at spreads
      obtain rfl := Except.ok.inj spreads
      exact ⟨[], .last frontier⟩

end Flood

namespace Floods

open Flood

variable [RandomSource σ] {base : Maze} {first : σ} {marks : List Coord}
  {flood next final : Flood σ} {later : List (Flood σ)}

/-- From a marked cell a flood goes on to an unmarked one. -/
theorem goes_of_visited (floods : Floods base first marks flood) (ahead : flood.Ahead)
    (visited : (flood.maze.get flood.cursor).visited = true) (goes : flood.Goes next) :
    Floods base first marks next ∧ (next.maze.get next.cursor).visited = false := by
  obtain ⟨place, found⟩ := ahead.resolve_left (by simp [visited])
  obtain ⟨adjacent, unmarked⟩ := Maze.floodNext_eq_some found
  have onward : flood.mark.frontier = .open place := by
    rw [mark_of_visited visited, Flood.frontier, found]
  have moves : flood.Goes { flood with cursor := place } := by
    have along := Goes.along onward
    rwa [mark_of_visited visited] at along
  obtain rfl := goes.unique moves
  exact ⟨floods.move adjacent.reachable, unmarked⟩

/-- At an unmarked cell a flood marks it, and goes on where it can go on by itself. -/
theorem goes_of_unmarked [LawfulRandomSource σ] (floods : Floods base first marks flood)
    (unmarked : (flood.maze.get flood.cursor).visited = false) (goes : flood.Goes next) :
    Floods base first (flood.cursor :: marks) next ∧ next.Ahead := by
  obtain ⟨marked, here⟩ := floods.mark unmarked
  rcases marked.frontier (here ▸ List.mem_cons_self) with
    ⟨place, onward, after, further⟩ | ⟨walls, breached, walled, answered, after, further⟩ |
    ⟨ended, -⟩
  · obtain rfl := goes.unique (.along onward)
    exact ⟨after, further⟩
  · obtain rfl := goes.unique (.through walled answered)
    exact ⟨after, further⟩
  · exact absurd ended goes.frontier_ne_none

/-- A pass keeps what it finds marked. -/
theorem goes [LawfulRandomSource σ] (floods : Floods base first marks flood) (ahead : flood.Ahead)
    (goes : flood.Goes next) :
    ∃ more, Floods base first (more ++ marks) next ∧ next.Ahead := by
  cases visited : (flood.maze.get flood.cursor).visited with
  | true =>
    obtain ⟨after, unmarked⟩ := floods.goes_of_visited ahead visited goes
    exact ⟨[], after, .inl unmarked⟩
  | false => exact ⟨[flood.cursor], floods.goes_of_unmarked visited goes⟩

section Run

variable [LawfulRandomSource σ]

/-- Each pass starts from a flood that can go on by itself and has marked all that was marked
    before. -/
theorem exists_of_mem (floods : Floods base first marks flood) (ahead : flood.Ahead)
    (passes : flood.Passes later final) {pass : Flood σ} (member : pass ∈ flood :: later) :
    ∃ more, Floods base first (more ++ marks) pass ∧ pass.Ahead := by
  induction passes generalizing marks with
  | last =>
    obtain rfl := List.mem_singleton.mp member
    exact ⟨[], floods, ahead⟩
  | next goes _ inductionHypothesis =>
    rcases List.mem_cons.mp member with rfl | member
    · exact ⟨[], floods, ahead⟩
    · obtain ⟨more, after, further⟩ := floods.goes ahead goes
      obtain ⟨evenMore, there, aheadThere⟩ := inductionHypothesis after further member
      rw [← List.append_assoc] at there
      exact ⟨_, there, aheadThere⟩

/-- From an unmarked cell there are fewer passes than two for each cell not yet marked; from a
    marked one there may be one more. -/
theorem length_later (floods : Floods base first marks flood) (ahead : flood.Ahead)
    (passes : flood.Passes later final) :
    (flood :: later).length + 2 * marks.length <
      2 * base.size.area + (flood.maze.get flood.cursor).visited.toNat := by
  induction passes generalizing marks with
  | last frontier =>
    have unmarked := (atDeadEnd_of_frontier frontier).unmarked ahead
    have short := floods.length_lt_of_ahead ahead
    rw [unmarked, Bool.toNat_false, List.length_singleton]
    omega
  | @next flood next final later goes _ inductionHypothesis =>
    -- A pass at a marked cell uses up the one pass more, since the next one is at an unmarked cell;
    -- a pass at an unmarked cell has a cell more to pay for it, whatever comes next.
    cases visited : (flood.maze.get flood.cursor).visited with
    | true =>
      obtain ⟨after, unmarked⟩ := floods.goes_of_visited ahead visited goes
      have fewer := inductionHypothesis after (.inl unmarked)
      simp only [unmarked, Bool.toNat_false, Bool.toNat_true, List.length_cons] at fewer ⊢
      omega
    | false =>
      obtain ⟨after, further⟩ := floods.goes_of_unmarked visited goes
      have fewer := inductionHypothesis after further
      have bit := (next.maze.get next.cursor).visited.toNat_le
      simp only [Bool.toNat_false, List.length_cons] at fewer ⊢
      omega

/-- After a pass at a marked cell comes one that marks a cell. -/
theorem isChain_later (floods : Floods base first marks flood) (ahead : flood.Ahead)
    (passes : flood.Passes later final) :
    (flood :: later).IsChain fun pass following =>
      (pass.maze.get pass.cursor).visited = true →
        (following.maze.get following.cursor).visited = false ∧
          following.mark.report.reached = pass.mark.report.reached + 1 := by
  induction passes generalizing marks with
  | last => exact .singleton _
  | @next flood next final later goes _ inductionHypothesis =>
    obtain ⟨more, after, further⟩ := floods.goes ahead goes
    refine .cons_cons (fun visited => ?_) (inductionHypothesis after further)
    obtain ⟨moved, unmarked⟩ := floods.goes_of_visited ahead visited goes
    obtain ⟨marked, -⟩ := moved.mark unmarked
    rw [mark_of_visited visited, marked.reached, floods.reached]
    exact ⟨unmarked, rfl⟩

/-- Between two dead ends a cell was marked, so that they are at different cells. -/
theorem pairwise_later (floods : Floods base first marks flood) (ahead : flood.Ahead)
    (passes : flood.Passes later final) :
    (flood :: later).Pairwise fun earlier pass => earlier.AtDeadEnd → pass.AtDeadEnd →
      earlier.mark.report.reached < pass.mark.report.reached ∧ earlier.cursor ≠ pass.cursor := by
  induction passes generalizing marks with
  | last => exact List.pairwise_singleton ..
  | @next flood next final later goes passes inductionHypothesis =>
    obtain ⟨_, after, further⟩ := floods.goes ahead goes
    refine List.pairwise_cons.mpr ⟨fun pass member deadEnd again => ?_,
      inductionHypothesis after further⟩
    -- Both passes are at unmarked cells, and what the earlier one marks is marked at the later one.
    have unmarked := deadEnd.unmarked ahead
    obtain ⟨marked, -⟩ := floods.mark unmarked
    obtain ⟨after, further⟩ := floods.goes_of_unmarked unmarked goes
    obtain ⟨more, there, aheadThere⟩ := after.exists_of_mem further passes member
    have unmarkedThere := again.unmarked aheadThere
    obtain ⟨markedThere, -⟩ := there.mark unmarkedThere
    constructor
    · rw [marked.reached, markedThere.reached]
      simp only [List.length_cons, List.length_append]
      omega
    · intro same
      have kept := (there.visited_iff flood.cursor).mpr
        (List.mem_append_right more List.mem_cons_self)
      rw [same, unmarkedThere] at kept
      cases kept

end Run

end Floods

variable [RandomSource σ] {base : Maze}

/-- The flood that joins the regions of a maze without visited cells always comes to an end, in
    one way only, after fewer than two passes for each cell of the board, the last one included:
    a bound on the passes that leaves room for them changes nothing. A pass at a marked cell
    is the last one or is followed by a pass that marks a cell; and from one dead end to another
    a cell is marked, so that no cell is a dead end twice. -/
theorem joining_ends_within_two_passes_per_cell [LawfulRandomSource σ]
    (unvisited : ∀ place, base.size.Contains place → (base.get place).visited = false) (source : σ) :
    ∃ later final, (Flood.start base source).Passes later final ∧
      (∀ others other, (Flood.start base source).Passes others other →
        others = later ∧ other = final) ∧
      (∀ bound, ((Flood.start base source).spread bound).result = .ok final ↔
        (Flood.start base source :: later).length ≤ bound) ∧
      (joinRegions base source).result =
        .ok (final.maze.clearVisited, final.source, final.report) ∧
      (Flood.start base source :: later).length < 2 * base.size.area ∧
      (Flood.start base source :: later).IsChain (fun pass following =>
        (pass.maze.get pass.cursor).visited = true →
          (following.maze.get following.cursor).visited = false ∧
            following.mark.report.reached = pass.mark.report.reached + 1) ∧
      (Flood.start base source :: later).Pairwise (fun earlier pass =>
        earlier.AtDeadEnd → pass.AtDeadEnd →
          earlier.mark.report.reached < pass.mark.report.reached ∧
            earlier.cursor ≠ pass.cursor) := by
  have clean : ∀ place, (base.get place).visited = false := by
    intro place
    by_cases inside : base.size.Contains place
    · exact unvisited place inside
    · rw [Maze.get_outside inside]
      rfl
  have start : Floods base source [] (.start base source) := .start clean source
  have fresh : ((Flood.start base source).maze.get (Flood.start base source).cursor).visited =
      false := clean _
  have ahead : (Flood.start base source).Ahead := .inl fresh
  have enough : 2 * base.size.area +
      ((Flood.start base source).maze.get (Flood.start base source).cursor).visited.toNat ≤
      2 * base.size.area + 2 * ([] : List Coord).length + 1 := by
    rw [fresh, Bool.toNat_false]
    omega
  obtain ⟨final, -, spreads, -⟩ := start.spread ahead enough
  obtain ⟨later, passes⟩ := Flood.exists_passes spreads
  have few := start.length_later ahead passes
  rw [fresh] at few
  refine ⟨later, final, passes, fun _ _ => passes.unique, fun _ => passes.spread_eq_ok_iff,
    joinRegions_of_spread clean (passes.spread_eq_ok_iff.mpr ?_), few,
    start.isChain_later ahead passes, start.pairwise_later ahead passes⟩
  exact Nat.le_succ_of_le few.le

/-- The board of twenty cells with one passage takes thirty-six passes. -/
theorem joining_ends_within_two_passes_per_cell_onePassage :
    (∀ place, onePassage.size.Contains place → (onePassage.get place).visited = false) ∧
      ∃ later final, (Flood.start onePassage (KeyStream.ofSeed 1)).Passes later final ∧
        (Flood.start onePassage (KeyStream.ofSeed 1) :: later).length = 36 ∧
        final.report = ⟨20, 18⟩ := by
  have unvisited : ∀ place, onePassage.size.Contains place →
      (onePassage.get place).visited = false := by
    intro place _
    rw [onePassage, Maze.visited_setWall]
    exact (carvable_fresh _).unvisited place
  have ended : ((Flood.start onePassage (KeyStream.ofSeed 1)).spread 36).result.toOption.map
      Flood.report = some ⟨20, 18⟩ := by
    decide +kernel
  have unfinished : ((Flood.start onePassage (KeyStream.ofSeed 1)).spread 35).result.toOption.map
      Flood.report = none := by
    decide +kernel
  obtain ⟨later, final, passes, only, bounded, -⟩ :=
    joining_ends_within_two_passes_per_cell unvisited (KeyStream.ofSeed 1)
  obtain ⟨flood, spreads, reported⟩ := Logged.exists_of_seen ended
  obtain ⟨others, run⟩ := Flood.exists_passes spreads
  obtain ⟨-, rfl⟩ := only others flood run
  refine ⟨unvisited, later, flood, passes, le_antisymm ((bounded 36).mp spreads) ?_, reported⟩
  by_contra fewer
  have early := (bounded 35).mpr (Nat.le_of_lt_succ (not_le.mp fewer))
  rw [early] at unfinished
  cases unfinished

end MazeDial
