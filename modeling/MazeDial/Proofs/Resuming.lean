import MazeDial.Proofs.Carving

/-!
# Carving in several calls

`carve` is called again and again until it no longer pauses. Every call looks for a maze of
empty cells only and searches for a start of its own, and both could draw numbers that a
single call does not draw. Neither does: a pause comes after a path, which leaves a cell
that is not empty, and the search for a start that follows a path is made by the same call
or by the next one. So the calls together take the paths that one call takes, and come to
the same end.

Nothing is assumed of the maze, of the draws or of the timers. Where walks go on for ever
there is no end to compare; but where one way of calling `carve` comes to an end, each other
one does, for the paths are the same ones.
-/

namespace MazeDial

/-- A call of `carve` that has answered: the maze it was given, and what it reported. -/
structure CarveCall where
  maze : Maze
  notes : List Note

namespace CarveCall

/-- How many paths were completed in a call. -/
def paths (call : CarveCall) : Nat :=
  call.notes.countP Note.isJoined

/-- The roots that were planted in a call. -/
def roots (call : CarveCall) : List Coord :=
  call.notes.filterMap Note.rootPlanted

end CarveCall

variable {σ τ : Type} [RandomSource σ]

/-- `carve` is called until it no longer pauses, each time with what the last call has left
    behind. Between two calls the timer is renewed; a timer that is not is renewed by `id`. -/
inductive Resumed (effort : Nat) (expired : τ → Except Fault (Bool × τ)) (renew : τ → τ) :
    Maze → σ → Progress → τ → List CarveCall → Slice σ τ → Prop
  | last {maze : Maze} {source : σ} {progress : Progress} {timer : τ} {notes : List Note}
      {slice : Slice σ τ}
      (called : carve effort expired maze source progress timer = ⟨notes, .ok slice⟩)
      (unpaused : slice.outcome ≠ .paused) :
      Resumed effort expired renew maze source progress timer [⟨maze, notes⟩] slice
  | resume {maze : Maze} {source : σ} {progress : Progress} {timer : τ} {notes : List Note}
      {slice final : Slice σ τ} {later : List CarveCall}
      (called : carve effort expired maze source progress timer = ⟨notes, .ok slice⟩)
      (paused : slice.outcome = .paused)
      (further : Resumed effort expired renew slice.maze slice.source slice.progress
        (renew slice.timer) later final) :
      Resumed effort expired renew maze source progress timer (⟨maze, notes⟩ :: later) final

/-- Planting reports no path, and one root at most; none where some cell is not empty. -/
theorem plantRoot_notes {maze : Maze} {source : σ} {notes : List Note} {planted : Maze × σ}
    (rooted : plantRoot maze source = ⟨notes, .ok planted⟩) :
    notes.countP Note.isJoined = 0 ∧ (notes.filterMap Note.rootPlanted).length ≤ 1 ∧
      (maze.Rooted → notes = []) := by
  unfold plantRoot at rooted
  split at rooted
  · next vacant =>
    have unrooted : ¬ maze.Rooted := fun occupied => Maze.rooted_iff.mp occupied vacant
    simp only [Logged.bind_eq_ok, Logged.lift_eq_ok] at rooted
    obtain ⟨_, ⟨found, drawn⟩, _, ⟨rfl, -⟩, rooted, rfl⟩ := rooted
    cases found with
    | none =>
      obtain ⟨rfl, -⟩ := Logged.pure_eq_ok.mp rooted
      exact ⟨rfl, Nat.zero_le 1, fun _ => rfl⟩
    | some root =>
      simp only [Logged.bind_eq_ok, Logged.note_eq_ok, Logged.pure_eq_ok] at rooted
      obtain ⟨_, -, _, rfl, ⟨rfl, -⟩, rfl⟩ := rooted
      exact ⟨rfl, Nat.le_refl 1, fun some => absurd some unrooted⟩
  · obtain ⟨rfl, -⟩ := Logged.pure_eq_ok.mp rooted
    exact ⟨rfl, Nat.zero_le 1, fun _ => rfl⟩

section Reports

variable {effort : Nat} {expired : τ → Except Fault (Bool × τ)} {renew : τ → τ} {maze : Maze}
  {source : σ} {progress : Progress} {timer : τ} {notes : List Note} {slice : Slice σ τ}
  {calls : List CarveCall}

/-- A call reports as many paths as it takes from the rooted maze, and asks the timer as
    often. -/
theorem carve_reports
    (called : carve effort expired maze source progress timer = ⟨notes, .ok slice⟩) :
    ∃ planted answers last, (plantRoot maze source).result = .ok planted ∧
      Paths answers.length ⟨planted.1, planted.2, progress.cursor, progress.previous⟩ last ∧
      Asked expired timer answers slice.timer ∧ SliceEnds last answers slice ∧
      notes.countP Note.isJoined = answers.length := by
  obtain ⟨before, planted, after, answers, last, rooted, sliced, rfl⟩ := carve_result called
  obtain ⟨unjoined, -⟩ := plantRoot_notes rooted
  refine ⟨planted, answers, last, congrArg Logged.result rooted, sliced.paths, sliced.asked,
    sliced.ends, ?_⟩
  rw [List.countP_append, unjoined, Nat.zero_add, sliced.joined]

/-- A call plants one root at most, and none where some cell is not empty. -/
theorem carve_roots
    (called : carve effort expired maze source progress timer = ⟨notes, .ok slice⟩) :
    (CarveCall.mk maze notes).roots.length ≤ 1 ∧
      (maze.Rooted → (CarveCall.mk maze notes).roots = []) := by
  obtain ⟨before, _, after, _, _, rooted, sliced, rfl⟩ := carve_result called
  obtain ⟨-, single, needless⟩ := plantRoot_notes rooted
  simp only [CarveCall.roots, List.filterMap_append, sliced.unrooted, List.append_nil]
  refine ⟨single, ?_⟩
  intro occupied
  rw [needless occupied, List.filterMap_nil]

/-- A call that pauses has taken paths to where it stops, and leaves a cell that is not
    empty. -/
theorem carve_paused (called : carve effort expired maze source progress timer = ⟨notes, .ok slice⟩)
    (paused : slice.outcome = .paused) :
    ∃ planted, (plantRoot maze source).result = .ok planted ∧
      Paths (notes.countP Note.isJoined)
        ⟨planted.1, planted.2, progress.cursor, progress.previous⟩ slice.station ∧
      0 < notes.countP Note.isJoined ∧ slice.maze.Rooted := by
  obtain ⟨planted, answers, last, rooted, paths, -, ends, joined⟩ := carve_reports called
  cases ends with
  | paused _ _ stopped arrived =>
    have worked : 0 < answers.length := by simp [stopped]
    rw [← joined] at paths worked
    exact ⟨planted, rooted, arrived ▸ paths, worked, (arrived ▸ paths.rooted worked :)⟩
  | ended _ taken => exact absurd paused taken.not_paused

/-- The calls from a maze with a cell that is not empty plant no root, and each of them is
    given such a maze. -/
theorem Resumed.unrooted
    (resumed : Resumed effort expired renew maze source progress timer calls slice)
    (occupied : maze.Rooted) : ∀ call ∈ calls, call.maze.Rooted ∧ call.roots = [] := by
  induction resumed with
  | last called _ =>
    exact List.forall_mem_singleton.mpr ⟨occupied, (carve_roots called).2 occupied⟩
  | resume called paused _ inductionHypothesis =>
    obtain ⟨-, -, -, -, stillOccupied⟩ := carve_paused called paused
    exact List.forall_mem_cons.mpr
      ⟨⟨occupied, (carve_roots called).2 occupied⟩, inductionHypothesis stillOccupied⟩

/-- The calls together take paths from the rooted maze to the end. The root is planted by
    the first of them: the others find a cell that is not empty. -/
theorem Resumed.paths
    (resumed : Resumed effort expired renew maze source progress timer calls slice) :
    ∃ planted last, (plantRoot maze source).result = .ok planted ∧
      Paths (calls.map CarveCall.paths).sum
        ⟨planted.1, planted.2, progress.cursor, progress.previous⟩ last ∧
      Takes last (.ended slice.outcome slice.station) := by
  induction resumed with
  | last called unpaused =>
    obtain ⟨planted, answers, last, rooted, paths, -, ends, joined⟩ := carve_reports called
    cases ends with
    | paused _ paused => exact absurd paused unpaused
    | ended _ taken =>
      rw [← joined] at paths
      exact ⟨planted, last, rooted, by simpa [CarveCall.paths] using paths, taken⟩
  | resume called paused _ inductionHypothesis =>
    obtain ⟨planted, rooted, paths, -, occupied⟩ := carve_paused called paused
    obtain ⟨again, last, rootedAgain, further, taken⟩ := inductionHypothesis
    rw [plantRoot_of_rooted occupied] at rootedAgain
    obtain rfl := Except.ok.inj rootedAgain
    refine ⟨planted, last, rooted, ?_, taken⟩
    rw [List.map_cons, List.sum_cons]
    exact paths.trans further

end Reports

/-- More directions than a walk needs do not change it. -/
theorem walkOn_mono {strides more : Nat} {maze : Maze} {source : σ} {cursor : Coord}
    {path : Path σ} (walked : walkOn strides maze source cursor = .ok path)
    (ample : strides ≤ more) : walkOn more maze source cursor = .ok path := by
  induction strides generalizing more maze source cursor with
  | zero => cases walked
  | succ strides inductionHypothesis =>
    obtain ⟨left, direction, after, same, drawn, ends⟩ := walkOn_ok walked
    obtain rfl := Nat.succ.inj same
    obtain ⟨more, rfl⟩ := Nat.exists_eq_add_of_le' (Nat.le_of_add_left_le ample)
    rw [walkOn, drawn]
    rcases ends with ⟨next, place, strode, further⟩ | ⟨last, place, ending, strode, rfl⟩
    · simp only [strode]
      exact inductionHypothesis further (Nat.le_of_succ_le_succ ample)
    · simp only [strode]

/-- With so much effort or more a slice from a station answers, whatever the timer says. -/
def Station.Answers (here : Station σ) (enough : Nat) : Prop :=
  ∀ (τ : Type) (answer : τ → Bool × τ) (strides limit paths : Nat) (progress : Progress)
    (timer : τ), enough ≤ strides → enough ≤ limit →
      ∃ slice, (carvePaths strides (fun timer => .ok (answer timer)) limit paths here.maze
        here.source progress timer).result = .ok slice

/-- More effort than enough is enough. -/
theorem Station.Answers.mono {here : Station σ} {enough more : Nat} (answers : here.Answers enough)
    (ample : enough ≤ more) : here.Answers more :=
  fun τ answer strides limit paths progress timer long allowed =>
    answers τ answer strides limit paths progress timer (ample.trans long) (ample.trans allowed)

/-- A slice answers with effort enough if carving comes to an end, or to a station from which
    one does. -/
theorem Takes.exists_answers {here : Station σ} {turn : Turn σ} (enough : Nat)
    (taken : Takes here turn) (following : ∀ next, turn = .path next → next.Answers enough) :
    ∃ more, enough ≤ more ∧ here.Answers more := by
  cases taken with
  | @done drawn chosen _ =>
    refine ⟨enough + 1, Nat.le_succ _, ?_⟩
    intro τ answer strides limit paths progress timer _ allowed
    obtain ⟨limit, rfl⟩ := Nat.exists_eq_add_of_le' (Nat.le_of_add_left_le allowed)
    refine ⟨⟨.done, here.maze, drawn, { progress with paused := false }, timer⟩, ?_⟩
    rw [carvePaths, chosen]
    rfl
  | @path start drawn strides path chosen carved followed =>
    refine ⟨max strides (enough + 1), by omega, ?_⟩
    intro τ answer more limit paths progress timer ample allowed
    obtain ⟨limit, rfl⟩ := Nat.exists_eq_add_of_le' (by omega : 1 ≤ limit)
    have walked : carvePath more here.maze drawn start = .ok path := walkOn_mono carved (by omega)
    simp only [carvePaths, chosen, Logged.result_bind_eq_ok, Logged.result_lift, Except.ok.injEq,
      exists_eq_left', walked]
    cases ending : path.ending with
    | stuck place => exact ⟨_, rfl⟩
    | joined =>
      rw [Path.turn, ending] at followed
      simp only [Logged.result_bind_eq_ok, Logged.result_note, Logged.result_lift, Except.ok.injEq,
        exists_eq_left', exists_const, true_and]
      cases answer timer with
      | mk stop asked =>
        cases stop with
        | true => exact ⟨_, rfl⟩
        | false =>
          exact following _ followed τ answer more limit (paths + 1) _ asked (by omega) (by omega)

/-- Where paths lead to an end, slices from all stations on the way answer with effort
    enough. -/
theorem Paths.exists_answers {count : Nat} {here last final : Station σ} {outcome : Outcome}
    (paths : Paths count here last) (ended : Takes last (.ended outcome final)) :
    ∃ enough, ∀ taken there, Paths taken here there → there.Answers enough := by
  induction paths with
  | @none here =>
    obtain ⟨enough, -, answers⟩ := ended.exists_answers 0 nofun
    refine ⟨enough, ?_⟩
    intro taken there paths
    cases paths with
    | none => exact answers
    | path onward _ => exact nomatch onward.agree ended
  | @path count here next last first _ inductionHypothesis =>
    obtain ⟨enough, later⟩ := inductionHypothesis ended
    obtain ⟨more, ample, answers⟩ := first.exists_answers enough (by
      intro station same
      obtain rfl := Turn.path.inj same
      exact later 0 next .none)
    refine ⟨more, ?_⟩
    intro taken there paths
    cases paths with
    | none => exact answers
    | path onward further =>
      obtain rfl := Turn.path.inj (onward.agree first)
      exact (later _ there further).mono ample

/-- Some of the paths that lead to an end leave the others to be taken. -/
theorem Paths.rest {taken count : Nat} {here middle last final : Station σ} {outcome : Outcome}
    (first : Paths taken here middle) (whole : Paths count here last)
    (ended : Takes last (.ended outcome final)) :
    ∃ left, taken + left = count ∧ Paths left middle last := by
  induction first generalizing count with
  | none => exact ⟨count, Nat.zero_add count, whole⟩
  | path onward _ inductionHypothesis =>
    cases whole with
    | none => exact nomatch onward.agree ended
    | path otherOnward further =>
      obtain rfl := Turn.path.inj (onward.agree otherOnward)
      obtain ⟨left, split, rest⟩ := inductionHypothesis further
      exact ⟨left, by omega, rest⟩

/-- Where paths lead to an end and all slices on the way answer, calls come to an end,
    whatever the timers say. The induction is on the number of paths that are left; a call
    that pauses takes one at least. -/
theorem Paths.exists_resumed {enough count effort : Nat} {here last final : Station σ}
    {outcome : Outcome} (answers : ∀ taken there, Paths taken here there → there.Answers enough)
    (paths : Paths count here last) (ended : Takes last (.ended outcome final))
    (ample : enough ≤ effort) (answer : τ → Bool × τ) (renew : τ → τ) {maze : Maze} {source : σ}
    {progress : Progress} (timer : τ)
    (rooted : (plantRoot maze source).result = .ok (here.maze, here.source))
    (cursor : progress.cursor = here.cursor) (previous : progress.previous = here.previous) :
    ∃ calls slice, Resumed effort (fun timer => .ok (answer timer)) renew maze source progress timer
      calls slice := by
  induction count using Nat.strong_induction_on generalizing here maze source progress timer with
  | _ count inductionHypothesis =>
    obtain ⟨slice, answered⟩ :=
      answers 0 here .none τ answer effort effort 0 progress timer ample ample
    obtain ⟨notes, called⟩ : ∃ notes, carve effort (fun timer => .ok (answer timer)) maze source
        progress timer = ⟨notes, .ok slice⟩ :=
      Logged.exists_notes (Logged.result_bind_eq_ok.mpr ⟨_, rooted, answered⟩)
    by_cases paused : slice.outcome = .paused
    · obtain ⟨planted, plantedOnce, taken, worked, occupied⟩ :=
        carve_paused called paused
      obtain rfl := Except.ok.inj (rooted.symm.trans plantedOnce)
      rw [cursor, previous] at taken
      obtain ⟨left, split, rest⟩ := taken.rest paths ended
      have stillRooted : (plantRoot slice.maze slice.source).result =
          .ok (slice.station.maze, slice.station.source) := by
        rw [plantRoot_of_rooted occupied]
        rfl
      have further := inductionHypothesis left (by omega)
        (fun _ there onward => answers _ there (taken.trans onward)) rest (renew slice.timer)
        stillRooted rfl rfl
      obtain ⟨later, final, resumed⟩ := further
      exact ⟨_, final, .resume called paused resumed⟩
    · exact ⟨_, slice, .last called paused⟩

/-- However `carve` is interrupted and resumed, the calls come to the same end. For any
    maze, source and progress: one root at most is planted, in the first call, and every
    later call is given a maze with a cell that is not empty. Other calls that come to an
    end, with other timers and another effort, have the same outcome, leave the same maze,
    source and places behind, and have completed as many paths. And if some calls come to an
    end, calls with any timers do, given effort enough. -/
theorem resumed_carving_agrees {effort : Nat} {expired : τ → Except Fault (Bool × τ)}
    {renew : τ → τ} {maze : Maze} {source : σ} {progress : Progress} {timer : τ}
    {calls : List CarveCall} {slice : Slice σ τ}
    (resumed : Resumed effort expired renew maze source progress timer calls slice) :
    (∃ first later, calls = first :: later ∧ first.roots.length ≤ 1 ∧
      ∀ call ∈ later, call.maze.Rooted ∧ call.roots = []) ∧
    (∀ {υ : Type} {otherEffort : Nat} {otherExpired : υ → Except Fault (Bool × υ)}
      {otherRenew : υ → υ} {otherTimer : υ} {otherCalls : List CarveCall} {otherSlice : Slice σ υ},
      Resumed otherEffort otherExpired otherRenew maze source progress otherTimer otherCalls
        otherSlice →
      otherSlice.outcome = slice.outcome ∧ otherSlice.station = slice.station ∧
        (otherCalls.map CarveCall.paths).sum = (calls.map CarveCall.paths).sum) ∧
    ∃ enough, ∀ {υ : Type} (answer : υ → Bool × υ) (otherRenew : υ → υ) (otherTimer : υ)
      (otherEffort : Nat), enough ≤ otherEffort →
      ∃ otherCalls otherSlice, Resumed otherEffort (fun timer => .ok (answer timer)) otherRenew maze
        source progress otherTimer otherCalls otherSlice := by
  obtain ⟨planted, last, rooted, paths, ended⟩ := resumed.paths
  refine ⟨?_, ?_, ?_⟩
  · cases resumed with
    | last called _ => exact ⟨_, [], rfl, (carve_roots called).1, nofun⟩
    | resume called paused further =>
      obtain ⟨-, -, -, -, occupied⟩ := carve_paused called paused
      exact ⟨_, _, rfl, (carve_roots called).1, further.unrooted occupied⟩
  · intro υ otherEffort otherExpired otherRenew otherTimer otherCalls otherSlice otherResumed
    obtain ⟨otherPlanted, otherLast, otherRooted, otherPaths, otherEnded⟩ := otherResumed.paths
    obtain rfl := Except.ok.inj (rooted.symm.trans otherRooted)
    obtain ⟨sameCount, sameOutcome, sameStation⟩ := paths.agree ended otherPaths otherEnded
    exact ⟨sameOutcome.symm, sameStation.symm, sameCount.symm⟩
  · obtain ⟨enough, answers⟩ := paths.exists_answers ended
    refine ⟨enough, ?_⟩
    intro υ answer otherRenew otherTimer otherEffort ample
    exact paths.exists_resumed answers ended ample answer otherRenew otherTimer rooted rfl rfl

/-- A call on a maze of four cells, with a timer that always gives the same answer. -/
def callOnFour (stop : Bool) (maze : Maze) (source : KeyStream) (progress : Progress) :
    Logged (Slice KeyStream Unit) :=
  carve 1000 (fun timer => .ok (stop, timer)) maze source progress ()

/-- Two paths carve the maze out. One call takes both; of three calls the third takes none. -/
theorem resumed_carving_agrees_four_cells :
    ∃ call slice calls otherSlice,
      Resumed 1000 (fun timer => .ok (false, timer)) id (Maze.fresh { width := 2, height := 2 })
        (KeyStream.ofSeed 1) .initial () [call] slice ∧
      Resumed 1000 (fun timer => .ok (true, timer)) id (Maze.fresh { width := 2, height := 2 })
        (KeyStream.ofSeed 1) .initial () calls otherSlice ∧
      slice.outcome = .done ∧ calls.length = 3 ∧ otherSlice.outcome = slice.outcome ∧
      otherSlice.station = slice.station ∧ (calls.map CarveCall.paths).sum = call.paths := by
  have wholeSeen : (callOnFour false (Maze.fresh { width := 2, height := 2 }) (KeyStream.ofSeed 1)
      .initial).result.toOption.map (fun slice => slice.outcome) = some .done := by
    decide +kernel
  have slicedSeen : (callOnFour true (Maze.fresh { width := 2, height := 2 }) (KeyStream.ofSeed 1)
      .initial >>= fun first => callOnFour true first.maze first.source first.progress >>=
        fun second => callOnFour true second.maze second.source second.progress >>=
          fun third => pure (first.outcome, second.outcome, third.outcome)).result.toOption.map id =
            some (.paused, .paused, .done) := by
    decide +kernel
  obtain ⟨slice, called, done⟩ := Logged.exists_of_seen wholeSeen
  obtain ⟨notes, called⟩ := Logged.exists_notes called
  obtain ⟨_, answered, outcomes⟩ := Logged.exists_of_seen slicedSeen
  obtain ⟨_, answered⟩ := Logged.exists_notes answered
  simp only [Logged.bind_eq_ok, Logged.pure_eq_ok] at answered
  obtain ⟨_, first, _, firstCalled, ⟨_, second, _, secondCalled, ⟨_, third, _, thirdCalled,
    ⟨-, rfl⟩, -⟩, -⟩, -⟩ := answered
  simp only [id, Prod.mk.injEq] at outcomes
  obtain ⟨firstPaused, secondPaused, thirdDone⟩ := outcomes
  have whole : Resumed 1000 (fun timer => .ok (false, timer)) id
      (Maze.fresh { width := 2, height := 2 }) (KeyStream.ofSeed 1) .initial () [⟨_, notes⟩] slice :=
    .last called (by simp [done])
  have sliced : Resumed 1000 (fun timer => .ok (true, timer)) id
      (Maze.fresh { width := 2, height := 2 }) (KeyStream.ofSeed 1) .initial ()
      [⟨_, _⟩, ⟨_, _⟩, ⟨_, _⟩] third :=
    .resume firstCalled firstPaused (.resume secondCalled secondPaused
      (.last thirdCalled (by simp [thirdDone])))
  obtain ⟨sameOutcome, sameStation, sameCount⟩ := (resumed_carving_agrees whole).2.1 sliced
  exact ⟨_, slice, _, third, whole, sliced, done, rfl, sameOutcome, sameStation,
    by simpa using sameCount⟩

end MazeDial
