import MazeDial.Carving.Slice
import MazeDial.Proofs.Walls

/-!
# Paths, slices and calls

Carving is interrupted between paths only, so where it stands is said by a maze,
a random source and the two places a path leaves behind. What comes next is then
settled: another path, or the end. How much effort was allowed, what the timer
said and how often carving was resumed make no difference to it; they only decide
how many paths belong to one call.

Nothing is assumed of the maze or of the draws, so that all of this holds for
mazes with inconsistent flags and for walks that get stuck as well. A root is
planted at most once: a completed path leaves a cell that is not empty.
-/

namespace MazeDial

variable {σ τ : Type} [RandomSource σ]

/-- A walk that ends takes one direction, which ends it or after which it goes on. -/
theorem walkOn_ok {strides : Nat} {maze : Maze} {source : σ} {cursor : Coord} {path : Path σ}
    (walked : walkOn strides maze source cursor = .ok path) :
    ∃ left direction after, strides = left + 1 ∧ drawByte 0 3 source = .ok (direction, after) ∧
      ((∃ next place,
          maze.stride cursor (Side.ofIndex direction) = .ok (.onward next place) ∧
            walkOn left next after place = .ok path) ∨
        ∃ last place ending,
          maze.stride cursor (Side.ofIndex direction) = .ok (.ended last place ending) ∧
            path = ⟨last, after, cursor, place, ending⟩) := by
  cases strides with
  | zero => cases walked
  | succ left =>
    rw [walkOn] at walked
    cases drawn : drawByte 0 3 source with
    | error fault =>
      rw [drawn] at walked
      cases walked
    | ok draw =>
      obtain ⟨direction, after⟩ := draw
      refine ⟨left, direction, after, rfl, rfl, ?_⟩
      simp only [drawn] at walked
      cases strode : maze.stride cursor (Side.ofIndex direction) with
      | error fault =>
        rw [strode] at walked
        cases walked
      | ok stride =>
        rw [strode] at walked
        cases stride with
        | onward next place => exact .inl ⟨next, place, rfl, walked⟩
        | ended last place ending => exact .inr ⟨last, place, ending, rfl, (Except.ok.inj walked).symm⟩

/-- How long a walk may take does not show in how it ends. -/
theorem walkOn_agree {strides otherStrides : Nat} {maze : Maze} {source : σ} {cursor : Coord}
    {path other : Path σ} (first : walkOn strides maze source cursor = .ok path)
    (second : walkOn otherStrides maze source cursor = .ok other) : path = other := by
  induction strides generalizing otherStrides maze source cursor with
  | zero => cases first
  | succ strides inductionHypothesis =>
    obtain ⟨left, direction, after, same, drawn, ends⟩ := walkOn_ok first
    obtain ⟨otherLeft, _, _, -, otherDrawn, otherEnds⟩ := walkOn_ok second
    obtain rfl := Nat.succ.inj same
    obtain ⟨rfl, rfl⟩ := Prod.mk.inj (Except.ok.inj (drawn.symm.trans otherDrawn))
    rcases ends with ⟨next, place, strode, further⟩ | ⟨last, place, ending, strode, rfl⟩
    · rcases otherEnds with ⟨_, _, otherStrode, otherFurther⟩ | ⟨_, _, _, otherStrode, -⟩
      · obtain ⟨rfl, rfl⟩ := Maze.Stride.onward.inj (Except.ok.inj (strode.symm.trans otherStrode))
        exact inductionHypothesis further otherFurther
      · cases strode.symm.trans otherStrode
    · rcases otherEnds with ⟨_, _, otherStrode, -⟩ | ⟨_, _, _, otherStrode, rfl⟩
      · cases strode.symm.trans otherStrode
      · obtain ⟨rfl, rfl, rfl⟩ :=
          Maze.Stride.ended.inj (Except.ok.inj (strode.symm.trans otherStrode))
        rfl

/-- A stride that joins the maze does so at a place of the board that is not empty. -/
theorem Maze.occupied_of_stride {maze after : Maze} {cursor place : Coord} {side : Side}
    (strode : maze.stride cursor side = .ok (.ended after place .joined)) :
    after.size.Contains place ∧ (after.get place).empty = false := by
  unfold stride at strode
  split at strode
  · next breachable =>
    simp only [isBreachable, Bool.and_eq_true, decide_eq_true_eq] at breachable
    simp only at strode
    split at strode
    · split at strode <;> simp at strode
    · split at strode
      · simp at strode
      · next carved =>
        simp only [Except.ok.injEq, Stride.ended.injEq] at strode
        obtain ⟨rfl, rfl, _⟩ := strode
        exact ⟨by simpa using breachable.1, by simpa using carved⟩
  · simp at strode

/-- A walk that joins the maze leaves a cell that is not empty. -/
theorem occupied_of_walkOn {strides : Nat} {maze : Maze} {source : σ} {cursor : Coord}
    {path : Path σ} (walked : walkOn strides maze source cursor = .ok path)
    (joined : path.ending = .joined) :
    path.maze.size.Contains path.cursor ∧ (path.maze.get path.cursor).empty = false := by
  induction strides generalizing maze source cursor with
  | zero => cases walked
  | succ strides inductionHypothesis =>
    obtain ⟨left, direction, after, same, -, ends⟩ := walkOn_ok walked
    obtain rfl := Nat.succ.inj same
    rcases ends with ⟨next, place, -, further⟩ | ⟨last, place, ending, strode, rfl⟩
    · exact inductionHypothesis further
    · obtain rfl : ending = .joined := joined
      exact Maze.occupied_of_stride strode

/-- Where carving stands between two paths. -/
structure Station (σ : Type) where
  maze : Maze
  source : σ
  /-- Where the last path ended. -/
  cursor : Coord
  /-- Where it stood before its last move, if there was a path. -/
  previous : Option Coord

/-- The station that a slice leaves behind. -/
def Slice.station (slice : Slice σ τ) : Station σ :=
  ⟨slice.maze, slice.source, slice.progress.cursor, slice.progress.previous⟩

/-- What carving comes to next. -/
inductive Turn (σ : Type) where
  /-- One more path, and the station after it. -/
  | path (next : Station σ)
  /-- No more paths. -/
  | ended (outcome : Outcome) (final : Station σ)

/-- What follows a path: the next station if it has joined the maze. -/
def Path.turn (path : Path σ) : Turn σ :=
  match path.ending with
  | .joined => .path ⟨path.maze.clearVisited, path.source, path.cursor, some path.previous⟩
  | .stuck place =>
    .ended (.stuck place path.cursor) ⟨path.maze, path.source, path.cursor, some path.previous⟩

omit [RandomSource σ] in
/-- Only a path that has joined the maze is followed by another station. -/
theorem Path.turn_eq_path {path : Path σ} {next : Station σ} (turn : path.turn = .path next) :
    path.ending = .joined ∧
      next = ⟨path.maze.clearVisited, path.source, path.cursor, some path.previous⟩ := by
  cases ending : path.ending with
  | joined =>
    rw [Path.turn, ending] at turn
    exact ⟨rfl, (Turn.path.inj turn).symm⟩
  | stuck place =>
    rw [Path.turn, ending] at turn
    cases turn

/-- What carving comes to at a station, if it is allowed directions enough: the end
    where no start is found, and a path from the start else. -/
inductive Takes (here : Station σ) (turn : Turn σ) : Prop
  | done {drawn : σ} (chosen : here.maze.chooseStart here.source = .ok (none, drawn))
      (ended : turn = .ended .done { here with source := drawn })
  | path {start : Coord} {drawn : σ} {strides : Nat} {path : Path σ}
      (chosen : here.maze.chooseStart here.source = .ok (some start, drawn))
      (carved : carvePath strides here.maze drawn start = .ok path) (followed : turn = path.turn)

/-- What comes next is settled by the station. -/
theorem Takes.agree {here : Station σ} {turn other : Turn σ} (first : Takes here turn)
    (second : Takes here other) : turn = other := by
  cases first with
  | done chosen ended =>
    cases second with
    | done otherChosen otherEnded =>
      have same := Except.ok.inj (chosen.symm.trans otherChosen)
      obtain rfl := congrArg Prod.snd same
      exact ended.trans otherEnded.symm
    | path otherChosen =>
      exact nomatch Except.ok.inj (chosen.symm.trans otherChosen)
  | path chosen carved followed =>
    cases second with
    | done otherChosen =>
      exact nomatch Except.ok.inj (chosen.symm.trans otherChosen)
    | path otherChosen otherCarved otherFollowed =>
      have same := Except.ok.inj (chosen.symm.trans otherChosen)
      obtain rfl := Option.some.inj (congrArg Prod.fst same)
      obtain rfl := congrArg Prod.snd same
      obtain rfl := walkOn_agree carved otherCarved
      exact followed.trans otherFollowed.symm

/-- Carving does not come to a pause by itself. -/
theorem Takes.not_paused {here final : Station σ} {outcome : Outcome}
    (taken : Takes here (.ended outcome final)) : outcome ≠ .paused := by
  cases taken with
  | done _ ended =>
    obtain ⟨rfl, -⟩ := Turn.ended.inj ended
    exact nofun
  | @path _ _ _ path _ _ followed =>
    cases ending : path.ending with
    | joined =>
      rw [Path.turn, ending] at followed
      cases followed
    | stuck place =>
      rw [Path.turn, ending] at followed
      obtain ⟨rfl, -⟩ := Turn.ended.inj followed
      exact nofun

/-- Some cell of a maze is not empty. -/
def Maze.Rooted (maze : Maze) : Prop :=
  ∃ place, maze.size.Contains place ∧ (maze.get place).empty = false

theorem Maze.rooted_iff {maze : Maze} :
    maze.Rooted ↔ ¬ maze.size.coords.all (fun place => (maze.get place).empty) = true := by
  simp [Rooted, Size.mem_coords]

/-- After a path some cell is not empty. -/
theorem Takes.rooted {here next : Station σ} (taken : Takes here (.path next)) :
    next.maze.Rooted := by
  cases taken with
  | done _ ended => cases ended
  | path _ carved followed =>
    obtain ⟨joined, rfl⟩ := Path.turn_eq_path followed.symm
    obtain ⟨inside, occupied⟩ := occupied_of_walkOn carved joined
    exact ⟨_, by simpa using inside, by simpa [Maze.get_clearVisited] using occupied⟩

/-- So many paths lead from one station to another. -/
inductive Paths : Nat → Station σ → Station σ → Prop
  | none {here : Station σ} : Paths 0 here here
  | path {count : Nat} {here next there : Station σ} (taken : Takes here (.path next))
      (further : Paths count next there) : Paths (count + 1) here there

namespace Paths

variable {count further : Nat} {here middle there : Station σ}

protected theorem trans (first : Paths count here middle) (second : Paths further middle there) :
    Paths (count + further) here there := by
  induction first with
  | none => rwa [Nat.zero_add]
  | @path count _ _ _ taken _ inductionHypothesis =>
    rw [Nat.add_right_comm]
    exact .path taken (inductionHypothesis second)

/-- Paths taken to the end are as many, and end as they do, however they are taken. -/
theorem agree {last otherLast final otherFinal : Station σ} {outcome otherOutcome : Outcome}
    (first : Paths count here last) (ended : Takes last (.ended outcome final))
    (second : Paths further here otherLast)
    (otherEnded : Takes otherLast (.ended otherOutcome otherFinal)) :
    count = further ∧ outcome = otherOutcome ∧ final = otherFinal := by
  induction first generalizing further with
  | none =>
    cases second with
    | none =>
      obtain ⟨same, sameFinal⟩ := Turn.ended.inj (ended.agree otherEnded)
      exact ⟨rfl, same, sameFinal⟩
    | path taken _ => exact nomatch ended.agree taken
  | path taken _ inductionHypothesis =>
    cases second with
    | none => exact nomatch taken.agree otherEnded
    | path otherTaken rest =>
      obtain rfl := Turn.path.inj (taken.agree otherTaken)
      obtain ⟨sameCount, same⟩ := inductionHypothesis ended rest
      exact ⟨congrArg (· + 1) sameCount, same⟩

/-- After one path or more some cell is not empty. -/
theorem rooted (paths : Paths count here there) (worked : 0 < count) : there.maze.Rooted := by
  induction paths with
  | none => exact absurd worked (Nat.lt_irrefl 0)
  | path taken further inductionHypothesis =>
    cases further with
    | none => exact taken.rooted
    | path _ _ => exact inductionHypothesis (Nat.succ_pos _)

end Paths

/-- Whether a note reports a completed path. -/
def Note.isJoined : Note → Bool
  | .joined .. => true
  | _ => false

/-- The root that a note reports to be planted. -/
def Note.rootPlanted : Note → Option Coord
  | .rooted root => some root
  | _ => none

/-- A timer that is asked so many times gives these answers. -/
inductive Asked (expired : τ → Except Fault (Bool × τ)) : τ → List Bool → τ → Prop
  | never {timer : τ} : Asked expired timer [] timer
  | first {timer next after : τ} {stop : Bool} {answers : List Bool}
      (answered : expired timer = .ok (stop, next)) (further : Asked expired next answers after) :
      Asked expired timer (stop :: answers) after

/-- How a slice ends that carving has brought to a station: there, once the timer has said
    to stop, or with what carving comes to next. -/
inductive SliceEnds (last : Station σ) (answers : List Bool) (slice : Slice σ τ) : Prop
  | paused (before : Nat) (outcome : slice.outcome = .paused)
      (stopped : answers = List.replicate before false ++ [true]) (arrived : slice.station = last)
  | ended (before : Nat) (taken : Takes last (.ended slice.outcome slice.station))
      (going : answers = List.replicate before false)
      (unpaused : slice.outcome = .done → slice.progress.paused = false)

/-- What a slice that answers has done: it took paths from a station to another one,
    reported each of them and asked the timer after each, and planted no root. -/
structure Sliced (expired : τ → Except Fault (Bool × τ)) (here : Station σ) (timer : τ)
    (notes : List Note) (slice : Slice σ τ) (answers : List Bool) (last : Station σ) : Prop where
  paths : Paths answers.length here last
  asked : Asked expired timer answers slice.timer
  joined : notes.countP Note.isJoined = answers.length
  unrooted : notes.filterMap Note.rootPlanted = []
  ends : SliceEnds last answers slice

/-- One more path that the timer does not stop after. -/
theorem Sliced.path {expired : τ → Except Fault (Bool × τ)} {here next last : Station σ}
    {timer asked : τ} {notes : List Note} {slice : Slice σ τ} {answers : List Bool}
    {start place : Coord} (taken : Takes here (.path next))
    (answered : expired timer = .ok (false, asked))
    (sliced : Sliced expired next asked notes slice answers last) :
    Sliced expired here timer (.joined start place :: notes) slice (false :: answers) last where
  paths := .path taken sliced.paths
  asked := .first answered sliced.asked
  joined := by rw [List.countP_cons_of_pos rfl, sliced.joined, List.length_cons]
  unrooted := by rw [List.filterMap_cons_none rfl, sliced.unrooted]
  ends := by
    cases sliced.ends with
    | paused before outcome stopped arrived =>
      exact .paused (before + 1) outcome (congrArg (false :: ·) stopped) arrived
    | ended before next going unpaused =>
      exact .ended (before + 1) next (congrArg (false :: ·) going) unpaused

/-- A slice takes some paths and ends in one of the ways it can. -/
theorem carvePaths_result {strides limit paths : Nat} {expired : τ → Except Fault (Bool × τ)}
    {maze : Maze} {source : σ} {progress : Progress} {timer : τ} {notes : List Note}
    {slice : Slice σ τ}
    (carved : carvePaths strides expired limit paths maze source progress timer =
      ⟨notes, .ok slice⟩) :
    ∃ answers last,
      Sliced expired ⟨maze, source, progress.cursor, progress.previous⟩ timer notes slice answers
        last := by
  induction limit generalizing paths maze source progress timer notes with
  | zero => cases carved
  | succ limit inductionHypothesis =>
    rw [carvePaths] at carved
    simp only [Logged.bind_eq_ok, Logged.lift_eq_ok] at carved
    obtain ⟨_, ⟨start, drawn⟩, _, ⟨rfl, chosen⟩, carved, rfl⟩ := carved
    cases start with
    | none =>
      simp only [Logged.bind_eq_ok, Logged.note_eq_ok, Logged.pure_eq_ok] at carved
      obtain ⟨_, -, _, rfl, ⟨rfl, rfl⟩, rfl⟩ := carved
      exact ⟨[], _, .none, .never, rfl, rfl, .ended 0 (.done chosen rfl) rfl fun _ => rfl⟩
    | some start =>
      simp only [Logged.bind_eq_ok, Logged.lift_eq_ok] at carved
      obtain ⟨_, path, _, ⟨rfl, walked⟩, carved, rfl⟩ := carved
      have taken : Takes ⟨maze, source, progress.cursor, progress.previous⟩ path.turn :=
        .path chosen walked rfl
      cases ending : path.ending with
      | stuck place =>
        rw [ending] at carved
        simp only [Logged.bind_eq_ok, Logged.note_eq_ok, Logged.pure_eq_ok] at carved
        obtain ⟨_, -, _, rfl, ⟨rfl, rfl⟩, rfl⟩ := carved
        rw [Path.turn, ending] at taken
        exact ⟨[], _, .none, .never, rfl, rfl, .ended 0 taken rfl fun done => by cases done⟩
      | joined =>
        rw [ending] at carved
        simp only [Logged.bind_eq_ok, Logged.note_eq_ok, Logged.lift_eq_ok] at carved
        obtain ⟨_, -, _, rfl, ⟨_, ⟨stop, asked⟩, _, ⟨rfl, answered⟩, carved, rfl⟩, rfl⟩ := carved
        rw [Path.turn, ending] at taken
        cases stop with
        | true =>
          simp only [if_true, Logged.bind_eq_ok, Logged.note_eq_ok, Logged.pure_eq_ok] at carved
          obtain ⟨_, -, _, rfl, ⟨rfl, rfl⟩, rfl⟩ := carved
          exact ⟨[true], _, .path taken .none, .first answered .never, rfl, rfl,
            .paused 0 rfl rfl rfl⟩
        | false =>
          obtain ⟨answers, last, sliced⟩ := inductionHypothesis carved
          exact ⟨false :: answers, last, sliced.path taken answered⟩

/-- What a call that answers has done: it planted a root where one was missing, and then
    took paths. -/
theorem carve_result {effort : Nat} {expired : τ → Except Fault (Bool × τ)} {maze : Maze}
    {source : σ} {progress : Progress} {timer : τ} {notes : List Note} {slice : Slice σ τ}
    (carved : carve effort expired maze source progress timer = ⟨notes, .ok slice⟩) :
    ∃ before planted after answers last, plantRoot maze source = ⟨before, .ok planted⟩ ∧
      Sliced expired ⟨planted.1, planted.2, progress.cursor, progress.previous⟩ timer after slice
        answers last ∧ notes = before ++ after := by
  rw [carve, Logged.bind_eq_ok] at carved
  obtain ⟨before, planted, after, rooted, carved, split⟩ := carved
  obtain ⟨answers, last, sliced⟩ := carvePaths_result carved
  exact ⟨before, planted, after, answers, last, rooted, sliced, split⟩

/-- A call that is done says that carving is no longer paused. -/
theorem carve_unpaused {effort : Nat} {expired : τ → Except Fault (Bool × τ)} {maze : Maze}
    {source : σ} {progress : Progress} {timer : τ} {slice : Slice σ τ}
    (carved : (carve effort expired maze source progress timer).result = .ok slice)
    (done : slice.outcome = .done) : slice.progress.paused = false := by
  obtain ⟨notes, carved⟩ := Logged.exists_notes carved
  obtain ⟨_, _, _, _, _, -, sliced, -⟩ := carve_result carved
  cases sliced.ends with
  | paused _ outcome => exact nomatch done.symm.trans outcome
  | ended _ _ _ unpaused => exact unpaused done

/-- One call of `carve`, with whatever effort, timer and deadline, leads from a
    station to another one. -/
def Calls (here : Station σ) (outcome : Outcome) (there : Station σ) : Prop :=
  ∃ (τ : Type) (effort : Nat) (expired : τ → Except Fault (Bool × τ)) (progress : Progress)
    (timer : τ) (slice : Slice σ τ),
    progress.cursor = here.cursor ∧ progress.previous = here.previous ∧
      (carve effort expired here.maze here.source progress timer).result = .ok slice ∧
      slice.outcome = outcome ∧ slice.station = there

theorem Calls.of_carve {effort : Nat} {expired : τ → Except Fault (Bool × τ)} {maze : Maze}
    {source : σ} {progress : Progress} {timer : τ} {slice : Slice σ τ}
    (carved : (carve effort expired maze source progress timer).result = .ok slice) :
    Calls ⟨maze, source, progress.cursor, progress.previous⟩ slice.outcome slice.station :=
  ⟨τ, effort, expired, progress, timer, slice, rfl, rfl, carved, rfl, rfl⟩

/-- `carve` is called again and again until it no longer pauses. -/
inductive CarvesOut : Station σ → Outcome → Station σ → Prop
  | last {here there : Station σ} {outcome : Outcome} (called : Calls here outcome there)
      (unpaused : outcome ≠ .paused) : CarvesOut here outcome there
  | resume {here next there : Station σ} {outcome : Outcome} (called : Calls here .paused next)
      (further : CarvesOut next outcome there) : CarvesOut here outcome there

/-- In a maze with a cell that is not empty no root is planted. -/
theorem plantRoot_of_rooted {maze : Maze} {source : σ} (rooted : maze.Rooted) :
    plantRoot maze source = pure (maze, source) := by
  rw [plantRoot, if_neg (Maze.rooted_iff.mp rooted)]

/-- Where carving stands once the maze has a root. -/
def Station.planted (here : Station σ) (planted : Maze × σ) : Station σ :=
  { here with maze := planted.1, source := planted.2 }

/-- A call plants a root where one is missing, and takes paths from there. -/
theorem Calls.paths {here there : Station σ} {outcome : Outcome}
    (called : Calls here outcome there) :
    ∃ planted count last, (plantRoot here.maze here.source).result = .ok planted ∧
      Paths count (here.planted planted) last ∧
      (outcome = .paused ∧ 0 < count ∧ there = last ∨ Takes last (.ended outcome there)) := by
  obtain ⟨τ, effort, expired, progress, timer, slice, cursor, previous, carved, rfl, rfl⟩ := called
  obtain ⟨notes, carved⟩ := Logged.exists_notes carved
  obtain ⟨_, planted, _, answers, last, rooted, sliced, -⟩ := carve_result carved
  have paths := sliced.paths
  rw [cursor, previous] at paths
  refine ⟨planted, answers.length, last, congrArg Logged.result rooted, paths, ?_⟩
  cases sliced.ends with
  | paused _ outcome stopped arrived => exact .inl ⟨outcome, by simp [stopped], arrived⟩
  | ended _ taken => exact .inr taken

/-- However often carving is resumed, a root is planted in the first call only, and
    from there paths are taken to the end. -/
theorem CarvesOut.paths {here there : Station σ} {outcome : Outcome}
    (carved : CarvesOut here outcome there) :
    ∃ planted count last, (plantRoot here.maze here.source).result = .ok planted ∧
      Paths count (here.planted planted) last ∧ Takes last (.ended outcome there) := by
  induction carved with
  | last called unpaused =>
    obtain ⟨planted, count, last, rooted, paths, paused | taken⟩ := called.paths
    · exact absurd paused.1 unpaused
    · exact ⟨planted, count, last, rooted, paths, taken⟩
  | resume called _ inductionHypothesis =>
    obtain ⟨planted, count, middle, rooted, paths, ends⟩ := called.paths
    obtain ⟨again, further, last, rootedAgain, rest, taken⟩ := inductionHypothesis
    rcases ends with ⟨-, worked, rfl⟩ | ended
    · rw [plantRoot_of_rooted (paths.rooted worked)] at rootedAgain
      obtain rfl := Except.ok.inj rootedAgain
      exact ⟨planted, count + further, last, rooted, paths.trans rest, taken⟩
    · exact absurd rfl ended.not_paused

/-- How carving is sliced shows neither in how it ends nor in what it leaves behind. -/
theorem CarvesOut.agree {here there otherThere : Station σ} {outcome otherOutcome : Outcome}
    (first : CarvesOut here outcome there) (second : CarvesOut here otherOutcome otherThere) :
    outcome = otherOutcome ∧ there = otherThere := by
  obtain ⟨planted, count, last, rooted, paths, taken⟩ := first.paths
  obtain ⟨otherPlanted, otherCount, otherLast, otherRooted, otherPaths, otherTaken⟩ := second.paths
  obtain rfl := Except.ok.inj (rooted.symm.trans otherRooted)
  exact (paths.agree taken otherPaths otherTaken).2

end MazeDial
