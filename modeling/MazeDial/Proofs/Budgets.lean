import MazeDial.Proofs.Resuming
import MazeDial.Proofs.Strokes
import MazeDial.Proofs.Scripts

/-!
# Budgets

A budget decides when carving stops, not whether it gets on. A call of `carve` asks its timer
after each path and not before the first, so that a call which pauses has completed a path,
however late it was called. While a path is carved the number of empty cells goes down and
up again, as loops are erased; but what a completed path leaves behind are the cells of its
trail, of which there is one at least. So every step of a cycle leaves fewer empty cells than
it found, or finishes the cycle, and a cycle takes no more steps than there were empty cells
when it started, and one.
-/

namespace MazeDial

variable {σ τ : Type} [RandomSource σ]

/-- A timer that writes down what another one answers, the latest answer first. -/
def recorded (expired : τ → Except Fault (Bool × τ)) (timer : List Bool × τ) :
    Except Fault (Bool × (List Bool × τ)) :=
  (expired timer.2).map fun answer => (answer.1, (answer.1 :: timer.1, answer.2))

/-- What a slice leaves behind, without the record. -/
def Slice.unrecorded (slice : Slice σ (List Bool × τ)) : Slice σ τ :=
  { slice with timer := slice.timer.2 }

section Recorded

variable {expired : τ → Except Fault (Bool × τ)}

omit [RandomSource σ] in
/-- The record holds the answers, and what was written down before. -/
theorem Asked.record {before after : List Bool × τ} {answers : List Bool}
    (asked : Asked (recorded expired) before answers after) :
    after.1 = answers.reverse ++ before.1 := by
  induction asked with
  | never => rfl
  | @first timer next after stop answers answered _ inductionHypothesis =>
    have written : next.1 = stop :: timer.1 := by
      unfold recorded at answered
      cases said : expired timer.2 with
      | error fault =>
        rw [said] at answered
        cases answered
      | ok answer =>
        rw [said] at answered
        obtain ⟨rfl, rfl⟩ := Prod.mk.inj (Except.ok.inj answered)
        rfl
    rw [inductionHypothesis, written, List.reverse_cons, List.append_assoc, List.singleton_append]

/-- Writing the answers down makes no other difference to a slice. -/
theorem carvePaths_recorded (expired : τ → Except Fault (Bool × τ)) (strides limit paths : Nat)
    (maze : Maze) (source : σ) (progress : Progress) (timer : τ) (record : List Bool) :
    carvePaths strides expired limit paths maze source progress timer =
      (carvePaths strides (recorded expired) limit paths maze source progress
        (record, timer)).map Slice.unrecorded := by
  induction limit generalizing paths maze source progress timer record with
  | zero => rfl
  | succ limit inductionHypothesis =>
    rw [carvePaths, carvePaths, Logged.map_bind]
    apply bind_congr
    rintro ⟨_ | start, drawn⟩
    · rfl
    · simp only [Logged.map_bind]
      apply bind_congr
      intro path
      cases path.ending with
      | stuck place => rfl
      | joined =>
        simp only [Logged.map_bind]
        apply bind_congr
        intro _
        rw [recorded]
        rcases expired timer with fault | ⟨stop, asked⟩
        · rfl
        · cases stop with
          | true => rfl
          | false => exact inductionHypothesis ..

/-- Nor to a call. -/
theorem carve_recorded (expired : τ → Except Fault (Bool × τ)) (effort : Nat) (maze : Maze)
    (source : σ) (progress : Progress) (timer : τ) (record : List Bool) :
    carve effort expired maze source progress timer =
      (carve effort (recorded expired) maze source progress (record, timer)).map
        Slice.unrecorded := by
  rw [carve, carve, Logged.map_bind]
  exact bind_congr fun _ => carvePaths_recorded ..

/-- A call writes down one answer for each path that it completes, and pauses exactly if the
    latest one is to stop. -/
theorem carve_asks {effort : Nat} {maze : Maze} {source : σ} {progress : Progress} {timer : τ}
    {notes : List Note} {slice : Slice σ τ}
    (called : carve effort expired maze source progress timer = ⟨notes, .ok slice⟩) :
    ∃ written, carve effort (recorded expired) maze source progress ([], timer) =
        ⟨notes, .ok written⟩ ∧
      written.unrecorded = slice ∧ written.timer.1.length = notes.countP Note.isJoined ∧
      (slice.outcome = .paused ↔ written.timer.1.head? = some true) := by
  have same := carve_recorded expired effort maze source progress timer []
  rw [called] at same
  obtain ⟨sameNotes, sameResult⟩ := Logged.mk.inj same
  cases answered : (carve effort (recorded expired) maze source progress ([], timer)).result with
  | error fault =>
    rw [answered] at sameResult
    cases sameResult
  | ok written =>
    rw [answered] at sameResult
    obtain rfl := Except.ok.inj sameResult
    obtain ⟨recordedNotes, recordedCall⟩ := Logged.exists_notes answered
    obtain rfl : notes = recordedNotes := sameNotes.trans (congrArg Logged.notes recordedCall)
    obtain ⟨planted, answers, last, -, -, asked, ends, joined⟩ := carve_reports recordedCall
    have record : written.timer.1 = answers.reverse := by simpa using asked.record
    refine ⟨written, recordedCall, rfl, by rw [record, joined, List.length_reverse], ?_⟩
    rw [record]
    cases ends with
    | paused before paused stopped => simp [Slice.unrecorded, paused, stopped]
    | ended before taken going =>
      have unpaused := taken.not_paused
      have quiet : answers.reverse.head? ≠ some true := by
        intro stopped
        have member := List.mem_of_head? stopped
        rw [List.mem_reverse, going] at member
        cases List.eq_of_mem_replicate member
      exact ⟨fun paused => absurd paused unpaused, fun stopped => absurd stopped quiet⟩

end Recorded

/-- Planting a root empties no cell. -/
theorem Planted.length_emptyCells_le {maze : Maze} {source : σ} {planted : Maze × σ}
    (planting : Planted maze source planted) :
    planted.1.emptyCells.length ≤ maze.emptyCells.length := by
  have stillEmpty : planted.1.emptyCells ⊆ maze.emptyCells := by
    intro place listed
    by_contra unlisted
    rw [Maze.mem_emptyCells] at listed unlisted
    rw [planting.occupied (Bool.eq_false_iff.mpr unlisted)] at listed
    cases listed
  exact (List.subperm_of_subset planted.1.emptyCells_nodup stillEmpty).length_le

variable [LawfulRandomSource σ]

/-- A call that pauses leaves fewer empty cells than it found. -/
theorem Calls.fewer_empty {here there : Station σ} (called : Calls here .paused there)
    (carvable : Carvable here.maze) : there.maze.emptyCells.length < here.maze.emptyCells.length := by
  obtain ⟨planted, count, last, rooted, paths, ⟨-, worked, rfl⟩ | ended⟩ := called.paths
  · obtain ⟨answer, answered, planting⟩ := plantRoot_spec here.maze here.source
    obtain rfl := Except.ok.inj (rooted.symm.trans answered)
    obtain ⟨attached, carves, enough⟩ := paths.carves (planting.carvable carvable)
    have fewer := carves.length_emptyCells
    have few := planting.length_emptyCells_le
    simp only [Station.planted] at fewer
    omega
  · exact absurd rfl ended.not_paused

namespace Generator

variable {generator next last : Generator σ}

/-- A step of a cycle leaves fewer empty cells than it found and goes on, or finishes the
    cycle. -/
theorem Sound.fewer_empty (sound : generator.Sound) (carving : generator.phase = .carving)
    (moves : Moves generator next) :
    next.phase = .carving ∧ next.maze.emptyCells.length < generator.maze.emptyCells.length ∨
      next.phase = .done := by
  cases moves with
  | rest idle =>
    rw [carving] at idle
    cases idle
  | paused _ called still => exact .inl ⟨still, called.fewer_empty (sound.carvable carving)⟩
  | finished _ _ _ _ _ done => exact .inr done
  | repaired _ _ _ done => exact .inr done

/-- So many steps lead from one generator to another, each with a clock and an effort of its
    own. -/
inductive StepsIn : Nat → Generator σ → Generator σ → Prop
  | refl {generator : Generator σ} : StepsIn 0 generator generator
  | step {κ : Type} [Clock κ] {count effort : Nat} {generator next last : Generator σ}
      {clock after : κ} (answered : (generator.step effort clock).result = .ok (next, after))
      (further : StepsIn count next last) : StepsIn (count + 1) generator last

omit [LawfulRandomSource σ] in
theorem StepsIn.steps {count : Nat} (steps : StepsIn count generator last) :
    Steps generator last := by
  induction steps with
  | refl => exact .refl
  | step answered _ inductionHypothesis => exact .step answered inductionHypothesis

/-- Steps of a cycle take an empty cell each, until the cycle is finished. -/
theorem StepsIn.fewer_empty {count : Nat} (steps : StepsIn count generator last)
    (sound : generator.Sound) (carving : generator.phase = .carving) :
    last.maze.emptyCells.length + count ≤ generator.maze.emptyCells.length ∨ last.phase = .done := by
  induction steps with
  | refl => exact .inl (Nat.le_refl _)
  | step answered further inductionHypothesis =>
    have moves := step_moves answered
    rcases sound.fewer_empty carving moves with ⟨still, fewer⟩ | done
    · rcases inductionHypothesis (sound.moves moves) still with few | done
      · exact .inl (by omega)
      · exact .inr done
    · exact .inr (further.steps.eq_of_done done ▸ done)

/-- No budget starves a cycle. A fitting plan starts a cycle, each of whose steps that answers
    leaves fewer empty cells than it found or finishes it, whatever the budget, the clocks
    and the draws are; so it is finished after as many answered steps as there were empty
    cells, and one. In any call of `carve` the timer is asked once for each completed path,
    which is said of a timer that writes down its answers, and the call pauses exactly if
    the latest answer was to stop. -/
theorem budgets_starve_no_cycle {generator : Generator σ} {plan : List Placement}
    (fitting : ∀ placement ∈ plan, placement.Fitting generator.maze.size)
    (drawable : ∀ placement ∈ plan, placement.Drawable) (reseed : Option UInt64) :
    (∃ started, (generator.start plan reseed).result = .ok started ∧ started.phase = .carving ∧
      (∀ {later next : Generator σ} {κ : Type} [Clock κ] {effort : Nat} {clock after : κ},
        Steps started later → later.phase = .carving →
        (later.step effort clock).result = .ok (next, after) →
          next.maze.emptyCells.length < later.maze.emptyCells.length ∨ next.phase = .done) ∧
      ∀ {count : Nat} {last : Generator σ}, StepsIn count started last →
        started.maze.emptyCells.length + 1 ≤ count → last.phase = .done) ∧
    ∀ {τ : Type} {effort : Nat} {expired : τ → Except Fault (Bool × τ)} {maze : Maze} {source : σ}
      {progress : Progress} {timer : τ} {notes : List Note} {slice : Slice σ τ},
      carve effort expired maze source progress timer = ⟨notes, .ok slice⟩ →
        ∃ written, carve effort (recorded expired) maze source progress ([], timer) =
            ⟨notes, .ok written⟩ ∧
          written.unrecorded = slice ∧ written.timer.1.length = notes.countP Note.isJoined ∧
          (slice.outcome = .paused ↔ written.timer.1.head? = some true) := by
  obtain ⟨started, answered⟩ := start_ok fitting drawable reseed
  obtain ⟨-, carving⟩ := carvable_of_start answered
  have sound := sound_of_start answered
  refine ⟨⟨started, answered, carving, ?_, ?_⟩, carve_asks⟩
  · intro later next κ _ effort clock after steps stillCarving stepped
    have laterSound := (steps.grown sound).1
    rcases laterSound.fewer_empty stillCarving (step_moves stepped) with ⟨-, fewer⟩ | done
    · exact .inl fewer
    · exact .inr done
  · intro count last steps many
    rcases steps.fewer_empty sound carving with few | done
    · omega
    · exact done

/-- Five steps of a generator whose budget is used up at once. -/
def fiveSteps (generator : Generator KeyStream) (clock : ManualClock) :
    Logged (Generator KeyStream × Generator KeyStream) := do
  let (first, clock) ← generator.step 1000 clock
  let (second, clock) ← first.step 1000 clock
  let (third, clock) ← second.step 1000 clock
  let (fourth, clock) ← third.step 1000 clock
  let (fifth, _) ← fourth.step 1000 clock
  return (first, fifth)

/-- A board of four empty cells, no budget and a clock that goes on at every reading: the
    first step only pauses, and takes a cell; the fifth comes after the end. A call that
    is never stopped has written down that it was not. -/
theorem budgets_starve_no_cycle_four_cells :
    (∃ started first last, (pausedMidway.start [] (some 3)).result = .ok started ∧
      StepsIn 1 started first ∧ first.phase = .carving ∧
      first.maze.emptyCells.length < started.maze.emptyCells.length ∧
      StepsIn 5 started last ∧ last.phase = .done) ∧
    ∃ slice written, (carve 1000 (recorded fun timer => .ok (false, timer))
        (Maze.fresh { width := 2, height := 2 }) (KeyStream.ofSeed 0) .initial ([], ())).result =
          .ok written ∧
      written.unrecorded = slice ∧ slice.outcome = .done ∧ written.timer.1.head? ≠ some true := by
  have fitting : ∀ placement ∈ ([] : List Placement), placement.Fitting pausedMidway.maze.size := nofun
  have drawable : ∀ placement ∈ ([] : List Placement), placement.Drawable := nofun
  obtain ⟨⟨started, begun, -, fewer, settled⟩, asks⟩ :=
    budgets_starve_no_cycle fitting drawable (some 3)
  constructor
  · have seen : (pausedMidway.start [] (some 3) >>= fun started =>
        fiveSteps started ⟨.zero, .ofMillis 1⟩ >>= fun steps =>
          pure (started.maze.emptyCells.length, started.phase, steps.1.phase)).result.toOption.map id =
            some (4, .carving, .carving) := by
      decide +kernel
    obtain ⟨_, answered, phases⟩ := Logged.exists_of_seen seen
    simp only [Logged.result_bind_eq_ok, Logged.result_pure, fiveSteps, Except.ok.injEq] at answered
    obtain ⟨same, sameBegun, _,
      ⟨first, one, second, two, third, three, fourth, four, fifth, five, rfl⟩, rfl⟩ := answered
    obtain rfl := Except.ok.inj (begun.symm.trans sameBegun)
    simp only [id, Prod.mk.injEq] at phases
    obtain ⟨cells, carving, pausedOnce⟩ := phases
    have steps : StepsIn 5 started fifth.1 :=
      .step one (.step two (.step three (.step four (.step five .refl))))
    refine ⟨started, first.1, fifth.1, begun, .step one .refl, pausedOnce, ?_, steps,
      settled steps (by omega)⟩
    rcases fewer .refl carving one with few | done
    · exact few
    · cases pausedOnce.symm.trans done
  · obtain ⟨slice, called, done⟩ := exists_carve_done_fresh
    obtain ⟨notes, called⟩ := Logged.exists_notes called
    obtain ⟨written, recordedCall, same, -, asked⟩ := asks called
    refine ⟨slice, written, congrArg Logged.result recordedCall, same, done, ?_⟩
    intro stopped
    exact nomatch done.symm.trans (asked.mpr stopped)

end Generator

end MazeDial
