import MazeDial.Proofs.Trail

/-!
# Walks through carvable mazes

What a retreat, a stride and a whole walk do to a carvable maze, each said by the
trail. A retreat always ends at its target and rewinds the trail to it. A stride
that goes on leaves the maze of the advanced trail; one that ends has joined a
cell that was part of the maze. So a walk either joins or runs out of the
directions it may take; it is never stuck.
-/

namespace MazeDial

namespace Maze

variable {base maze : Maze}

/-- A retreat to a place of the trail ends there and leaves the maze of the rewound
    trail. The induction follows the trail: each step takes its latest place off,
    and the one before is where the step leads. -/
theorem retreatWithin_laid (carvable : Carvable base) {trail : List Coord} {place target : Coord}
    {steps : Nat} (isTrail : IsTrail base trail) (laid : Laid base trail trail maze)
    (latest : trail.head? = some place) (member : target ∈ trail)
    (enough : trail.length ≤ steps + 1) :
    ∃ after, retreatWithin steps maze place target = .back after ∧
      Laid base (rewind target trail) (rewind target trail) after := by
  induction trail generalizing maze place steps with
  | nil => exact absurd member List.not_mem_nil
  | cons cursor rest inductionHypothesis =>
    obtain rfl : cursor = place := Option.some.inj latest
    by_cases arrived : cursor = target
    · subst arrived
      exact ⟨maze, by unfold retreatWithin; simp, by simpa [rewind] using laid⟩
    · have later : target ∈ rest := (List.mem_cons.mp member).resolve_left (Ne.symm arrived)
      cases rest with
      | nil => exact absurd later List.not_mem_nil
      | cons earlier rest =>
        have isOpen_iff (side : Side) : maze.isOpen cursor side = true ↔ cursor.step side = earlier :=
          laid.isOpen_latest_iff carvable isTrail
        obtain ⟨_, _, back, leads⟩ := (List.isChain_cons_cons.mp isTrail.linked).1
        cases found : Side.all.find? (maze.isOpen cursor) with
        | none =>
          have walled := List.find?_eq_none.mp found back (Side.mem_all back)
          exact absurd ((isOpen_iff back).mpr leads) walled
        | some side =>
          have leadsBack : cursor.step side = earlier := (isOpen_iff side).mp (List.find?_some found)
          cases steps with
          | zero => simp at enough
          | succ steps =>
            obtain ⟨after, returned, rewound⟩ := inductionHypothesis
              (isTrail.of_suffix (List.suffix_cons ..)) (laid.withdraw carvable isTrail leadsBack) rfl
              later (by simpa using enough)
            refine ⟨after, ?_, by simpa [rewind, arrived] using rewound⟩
            unfold retreatWithin
            simp only [arrived, if_false, found, leadsBack]
            exact returned

/-- A retreat has steps enough for any trail. -/
theorem retreat_laid (carvable : Carvable base) {cursor target : Coord} {rest : List Coord}
    (isTrail : IsTrail base (cursor :: rest)) (laid : Laid base (cursor :: rest) (cursor :: rest) maze)
    (member : target ∈ cursor :: rest) :
    ∃ after, maze.retreat cursor target = .back after ∧
      Laid base (rewind target (cursor :: rest)) (rewind target (cursor :: rest)) after := by
  apply retreatWithin_laid carvable isTrail laid rfl member
  have short : (cursor :: rest).length ≤ base.size.area := isTrail.length_le
  rw [laid.size_eq]
  omega

/-- A direction that cannot be taken leaves the walk where it is. -/
theorem stride_of_not_breachable {cursor : Coord} {side : Side}
    (blocked : ¬ maze.isBreachable cursor side = true) :
    maze.stride cursor side = .ok (.onward maze cursor) := by
  rw [stride, if_neg blocked]

/-- A direction that leads to an empty place of the maze before the walk, on its trail
    or not, advances the walk there. -/
theorem stride_advance (carvable : Carvable base) {cursor : Coord} {rest : List Coord} {side : Side}
    (isTrail : IsTrail base (cursor :: rest)) (laid : Laid base (cursor :: rest) (cursor :: rest) maze)
    (breachable : maze.isBreachable cursor side = true)
    (empty : (base.get (cursor.step side)).empty = true) :
    ∃ after, maze.stride cursor side = .ok (.onward after (cursor.step side)) ∧
      Laid base (advance (cursor :: rest) (cursor.step side))
        (advance (cursor :: rest) (cursor.step side)) after := by
  have inside : maze.size.Contains cursor :=
    laid.size_eq.symm ▸ contains_of_empty (isTrail.empty cursor List.mem_cons_self)
  have across : maze.size.Contains (cursor.step side) :=
    laid.size_eq.symm ▸ contains_of_empty empty
  rw [stride, if_pos breachable]
  by_cases member : cursor.step side ∈ cursor :: rest
  · obtain ⟨returned, back, rewound⟩ := retreat_laid carvable isTrail laid member
    obtain ⟨tail, shape, _⟩ := rewind_of_mem member
    have visited : (maze.get (cursor.step side)).visited = true := (laid.visited_iff _).mpr member
    refine ⟨returned.claim (cursor.step side), by simp only [visited, if_true, back], ?_⟩
    rw [advance, if_pos member]
    have taken := rewound.claim (rewound.size_eq.symm ▸ contains_of_empty empty)
    apply taken.congr_taken
    intro place
    rw [shape]
    simp
  · have unvisited : ¬ (maze.get (cursor.step side)).visited = true := by
      intro visited
      exact member ((laid.visited_iff _).mp visited)
    have free : (maze.get (cursor.step side)).empty = true := (laid.empty_iff _).mpr ⟨empty, member⟩
    refine ⟨(maze.setWall cursor side false).claim (cursor.step side), ?_, ?_⟩
    · simp only [unvisited, Bool.false_eq_true, if_false, empty_setWall, free, if_true]
    · rw [advance, if_neg member]
      exact (laid.breach inside across).claim (by simpa using across)

/-- A direction that leads to a cell which was not empty before the walk joins it. -/
theorem stride_join {cursor : Coord} {rest : List Coord} {side : Side}
    (isTrail : IsTrail base (cursor :: rest)) (laid : Laid base (cursor :: rest) (cursor :: rest) maze)
    (breachable : maze.isBreachable cursor side = true)
    (carved : (base.get (cursor.step side)).empty = false) :
    ∃ after, maze.stride cursor side = .ok (.ended after (cursor.step side) .joined) ∧
      Laid base (cursor.step side :: cursor :: rest) (cursor :: rest) after := by
  have inside : maze.size.Contains cursor :=
    laid.size_eq.symm ▸ contains_of_empty (isTrail.empty cursor List.mem_cons_self)
  have across : maze.size.Contains (cursor.step side) := by
    simp only [isBreachable, Bool.and_eq_true, decide_eq_true_eq] at breachable
    exact breachable.1
  have absent : cursor.step side ∉ cursor :: rest := by
    intro member
    rw [isTrail.empty _ member] at carved
    exact Bool.noConfusion carved
  have unvisited : ¬ (maze.get (cursor.step side)).visited = true := by
    intro visited
    exact absent ((laid.visited_iff _).mp visited)
  have taken : ¬ (maze.get (cursor.step side)).empty = true := by
    intro empty
    rw [((laid.empty_iff _).mp empty).1] at carved
    exact Bool.noConfusion carved
  refine ⟨maze.setWall cursor side false, ?_, laid.breach inside across⟩
  rw [stride, if_pos breachable]
  simp only [unvisited, Bool.false_eq_true, if_false, empty_setWall, taken]

end Maze

/-- A walk through a carvable maze stands at the latest place of its trail. -/
structure Walking (base : Maze) (trail : List Coord) (maze : Maze) : Prop where
  isTrail : IsTrail base trail
  laid : Maze.Laid base trail trail maze

namespace Walking

variable {base maze : Maze} {cursor : Coord} {rest : List Coord} {side : Side}

/-- The first cell of a walk is all of its trail. -/
theorem claim (carvable : Carvable base) {start : Coord} (empty : (base.get start).empty = true) :
    Walking base [start] (base.claim start) where
  isTrail := ⟨List.nodup_singleton start, by simpa using empty, List.isChain_singleton start⟩
  laid := Maze.laid_claim carvable empty

theorem inside (walking : Walking base (cursor :: rest) maze) : base.size.Contains cursor :=
  Maze.contains_of_empty (walking.isTrail.empty cursor List.mem_cons_self)

/-- A direction that leads to an empty place leaves the walk at the end of the trail advanced
    there. -/
theorem onward (carvable : Carvable base) (walking : Walking base (cursor :: rest) maze)
    (breachable : maze.isBreachable cursor side = true)
    (empty : (base.get (cursor.step side)).empty = true) :
    ∃ tail after, maze.stride cursor side = .ok (.onward after (cursor.step side)) ∧
      advance (cursor :: rest) (cursor.step side) = cursor.step side :: tail ∧
      Walking base (cursor.step side :: tail) after := by
  obtain ⟨after, strode, laid⟩ :=
    Maze.stride_advance carvable walking.isTrail walking.laid breachable empty
  have neighbors : base.size.grid.Adj (cursor.step side) cursor :=
    SimpleGraph.Adj.symm ⟨walking.inside, Maze.contains_of_empty empty, side, rfl⟩
  have isTrail := walking.isTrail.advance neighbors empty
  obtain ⟨tail, shape⟩ := advance_eq_cons (cursor :: rest) (cursor.step side)
  rw [shape] at isTrail laid
  exact ⟨tail, after, strode, shape, isTrail, laid⟩

end Walking

variable {σ : Type} [RandomSource σ] {base : Maze}

/-- What a completed walk has done to a carvable maze: it came along a trail of empty
    cells to a neighbour of its latest place that was not empty. -/
structure Joins (base : Maze) (trail : List Coord) (path : Path σ) : Prop where
  isTrail : IsTrail base trail
  latest : trail.head? = some path.previous
  neighbors : base.size.grid.Adj path.cursor path.previous
  carved : (base.get path.cursor).empty = false
  ending : path.ending = .joined
  laid : Maze.Laid base (path.cursor :: trail) trail path.maze

omit [RandomSource σ] in
/-- The place where a walk joins is not on its trail, whose cells were empty. -/
theorem Joins.nodup {trail : List Coord} {path : Path σ} (joins : Joins base trail path) :
    (path.cursor :: trail).Nodup := by
  refine List.nodup_cons.mpr ⟨?_, joins.isTrail.nodup⟩
  intro member
  have empty := joins.isTrail.empty _ member
  rw [joins.carved] at empty
  cases empty

/-- The same walk, with the places its cursor comes to, from where it stands. A direction
    that cannot be taken leaves the cursor where it is, and leaves no record. -/
def walkAlong : Nat → Maze → σ → Coord → Except Fault (List Coord × Path σ)
  | 0, _, _, _ => .error .unfinished
  | strides + 1, maze, source, cursor =>
    match drawByte 0 3 source with
    | .error fault => .error fault
    | .ok (direction, source) =>
      match maze.stride cursor (Side.ofIndex direction) with
      | .error fault => .error fault
      | .ok (.onward maze place) => (walkAlong strides maze source place).map fun further =>
          (if place = cursor then further.1 else cursor :: further.1, further.2)
      | .ok (.ended maze place ending) => .ok ([cursor, place], ⟨maze, source, cursor, place, ending⟩)

/-- The record does not influence the walk. -/
theorem walkOn_eq_map (strides : Nat) (maze : Maze) (source : σ) (cursor : Coord) :
    walkOn strides maze source cursor = (walkAlong strides maze source cursor).map Prod.snd := by
  induction strides generalizing maze source cursor with
  | zero => rfl
  | succ strides inductionHypothesis =>
    rw [walkOn, walkAlong]
    rcases drawByte 0 3 source with fault | ⟨direction, after⟩
    · rfl
    · simp only
      rcases maze.stride cursor (Side.ofIndex direction) with fault | stride
      · rfl
      · cases stride with
        | ended => rfl
        | onward next place =>
          simp only [inductionHypothesis]
          cases walkAlong strides next after place <;> rfl

/-- A walk goes on for so many directions: each is drawn, and does not end it. -/
inductive Wanders : Nat → Maze → σ → Coord → Prop
  | still {maze : Maze} {source : σ} {cursor : Coord} : Wanders 0 maze source cursor
  | onward {strides : Nat} {maze next : Maze} {source after : σ} {cursor place : Coord}
      {direction : UInt8} (drawn : drawByte 0 3 source = .ok (direction, after))
      (strode : maze.stride cursor (Side.ofIndex direction) = .ok (.onward next place))
      (further : Wanders strides next after place) : Wanders (strides + 1) maze source cursor

/-- A walk that stands at the end of its trail joins the maze, unless it goes on for as many
    directions as it has. It has gone from neighbour to neighbour, and its trail is advanced
    by the places it has come to, but for the last one, where it joins. -/
theorem walkAlong_joins (carvable : Carvable base) {cursor : Coord} {rest : List Coord} {maze : Maze}
    (strides : Nat) (source : σ) (walking : Walking base (cursor :: rest) maze) :
    walkAlong strides maze source cursor = .error .unfinished ∧ Wanders strides maze source cursor ∨
      ∃ places path, walkAlong strides maze source cursor =
          .ok (cursor :: (places ++ [path.cursor]), path) ∧
        (cursor :: (places ++ [path.cursor])).IsChain base.size.grid.Adj ∧
        Joins base (places.foldl advance (cursor :: rest)) path := by
  induction strides generalizing maze source cursor rest with
  | zero => exact .inl ⟨rfl, .still⟩
  | succ strides inductionHypothesis =>
    have drawn : drawByte 0 3 source = .ok (RandomSource.byte 0 3 source) :=
      drawByte_ok UInt8.zero_le source
    rw [walkAlong, drawn]
    generalize RandomSource.byte 0 3 source = draw at drawn
    obtain ⟨direction, after⟩ := draw
    simp only
    generalize named : Side.ofIndex direction = side
    by_cases breachable : maze.isBreachable cursor side = true
    · have across : base.size.Contains (cursor.step side) := by
        simp only [Maze.isBreachable, Bool.and_eq_true, decide_eq_true_eq,
          walking.laid.size_eq] at breachable
        exact breachable.1
      have neighbors : base.size.grid.Adj (cursor.step side) cursor :=
        SimpleGraph.Adj.symm ⟨walking.inside, across, side, rfl⟩
      cases empty : (base.get (cursor.step side)).empty with
      | true =>
        obtain ⟨tail, next, strode, shape, advanced⟩ := walking.onward carvable breachable empty
        rw [strode]
        rcases inductionHypothesis after advanced with
          ⟨short, wanders⟩ | ⟨places, path, walked, linked, joins⟩
        · refine .inl ⟨?_, .onward drawn (named ▸ strode) wanders⟩
          simp only [short]
          rfl
        · refine .inr ⟨cursor.step side :: places, path, ?_, ?_, ?_⟩
          · simp only [walked, Except.map, step_ne walking.inside, if_false, List.cons_append]
          · exact List.isChain_cons_cons.mpr ⟨neighbors.symm, linked⟩
          · rwa [List.foldl_cons, shape]
      | false =>
        obtain ⟨joined, strode, joining⟩ :=
          Maze.stride_join walking.isTrail walking.laid breachable empty
        rw [strode]
        exact .inr ⟨[], ⟨joined, after, cursor, cursor.step side, .joined⟩, rfl,
          List.isChain_pair.mpr neighbors.symm, walking.isTrail, rfl, neighbors, empty, rfl, joining⟩
    · have stays := Maze.stride_of_not_breachable breachable
      rw [stays]
      rcases inductionHypothesis after walking with
        ⟨short, wanders⟩ | ⟨places, path, walked, linked, joins⟩
      · refine .inl ⟨?_, .onward drawn (named ▸ stays) wanders⟩
        simp only [short]
        rfl
      · refine .inr ⟨places, path, ?_, linked, joins⟩
        simp only [walked, Except.map, if_true]

/-- The same path as `carvePath`, with the places its walk comes to, from its start. -/
def carveAlong (strides : Nat) (maze : Maze) (source : σ) (start : Coord) :
    Except Fault (List Coord × Path σ) :=
  walkAlong strides (maze.claim start) source start

/-- The record does not influence the path. -/
theorem carvePath_eq_map (strides : Nat) (maze : Maze) (source : σ) (start : Coord) :
    carvePath strides maze source start = (carveAlong strides maze source start).map Prod.snd :=
  walkOn_eq_map ..

/-- A path from an empty cell joins the maze, at the end of the trail that its walk has
    left, unless the walk goes on for as many directions as it has. -/
theorem carveAlong_joins (carvable : Carvable base) (strides : Nat) (source : σ) {start : Coord}
    (empty : (base.get start).empty = true) :
    carveAlong strides base source start = .error .unfinished ∧
        Wanders strides (base.claim start) source start ∨
      ∃ places path, carveAlong strides base source start =
          .ok (start :: (places ++ [path.cursor]), path) ∧
        (start :: (places ++ [path.cursor])).IsChain base.size.grid.Adj ∧
        Joins base (places.foldl advance [start]) path :=
  walkAlong_joins carvable strides source (.claim carvable empty)

/-- A path from an empty cell joins the maze, unless its walk goes on for as many directions
    as it has. It is never stuck. -/
theorem carvePath_joins (carvable : Carvable base) (strides : Nat) (source : σ) {start : Coord}
    (empty : (base.get start).empty = true) :
    carvePath strides base source start = .error .unfinished ∧
        Wanders strides (base.claim start) source start ∨
      ∃ path trail, carvePath strides base source start = .ok path ∧ Joins base trail path := by
  rw [carvePath_eq_map]
  rcases carveAlong_joins carvable strides source empty with
    ⟨short, wanders⟩ | ⟨places, path, walked, -, joins⟩
  · exact .inl ⟨congrArg (Except.map Prod.snd) short, wanders⟩
  · exact .inr ⟨path, _, congrArg (Except.map Prod.snd) walked, joins⟩

end MazeDial
