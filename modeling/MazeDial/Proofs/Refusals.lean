import MazeDial.Proofs.Upkeep

/-!
# Calls that cannot be refused

Most of what a dial asks of its parts could be refused: a pattern that sticks out of the
board, a digit that is none, a draw between bounds that leave no choice, a wall past the
end of a list, a repair with the marks of another pass on the board. None of it ever is.

* A refresh stops without an answer only for want of effort, in the middle of a walk, or by
  the time: a reading fails, or a sum of durations is too long. A touch stops only by the
  time, and the button never does.
* A cycle can be begun at every moment, and a repair is entered without a visited cell.
* Plans fit the board wherever their patterns are drawn, and digits are below ten.
* A local minute is a number of 63 bits, and so are the numbers it is made of.
* Every draw has a choice: of a start, of a direction, and of a wall to take out. The number
  drawn is that of an empty cell, or of a wall.

The first two hold at every moment of a run, by what a dial keeps; the others hold of the
parts, in any state.
-/

namespace MazeDial

theorem Duration.seconds_lt (duration : Duration) : duration.seconds < 2 ^ 64 :=
  Nat.div_lt_of_lt_mul (Nat.mul_comm UInt64.size _ ▸ duration.nanos_lt)

/-- The minutes of a reading and the offset from universal time are numbers of 64 bits with
    a sign, and so is their sum. -/
theorem localMinute_bounds (reading : Duration) (utcOffset : Int32) :
    reading.seconds / 60 < 2 ^ 63 ∧
      -2 ^ 63 ≤ ((reading.seconds / 60 : Nat) : Int) + utcOffset.toInt ∧
      ((reading.seconds / 60 : Nat) : Int) + utcOffset.toInt < 2 ^ 63 ∧
      localMinute reading utcOffset < 2 ^ 63 := by
  have seconds := reading.seconds_lt
  have least : -2 ^ 31 ≤ utcOffset.toInt := utcOffset.le_toInt
  have greatest : utcOffset.toInt < 2 ^ 31 := utcOffset.toInt_lt
  unfold localMinute
  omega

/-- A pattern can be stamped with its corner at a place: it fits, it has data enough, and
    each of its cells has a mark and is a place of the board, whose column and row are the
    sums of those of the corner and the offset. -/
structure Pattern.Stampable (pattern : Pattern) (origin : Coord) (size : Size) : Prop where
  fits : pattern.Fits origin size
  enough : pattern.area ≤ pattern.covered
  marked : ∀ offset ∈ pattern.offsets, ∃ mark, pattern.mark offset = .ok mark
  inside : ∀ offset ∈ pattern.offsets, size.Contains (origin.shift offset) ∧
    (origin.shift offset).x.toNat = origin.x.toNat + offset.x.toNat ∧
    (origin.shift offset).y.toNat = origin.y.toNat + offset.y.toNat

/-- Wherever a placement that fits is drawn, its pattern can be stamped. -/
theorem Placement.exists_stampable {σ : Type} [RandomSource σ] [LawfulRandomSource σ] {size : Size}
    {placement : Placement} (fitting : placement.Fitting size) (drawable : placement.Drawable)
    (source : σ) :
    ∃ origin pattern drawn, placement.settle source = .ok ((origin, pattern), drawn) ∧
      pattern.Stampable origin size := by
  obtain ⟨origin, pattern, drawn, settled, fits, enough⟩ :=
    Placement.settle_fits fitting drawable source
  refine ⟨origin, pattern, drawn, settled, fits, enough, ?_, ?_⟩
  · exact fun offset member => pattern.exists_mark enough member
  · exact fun offset member => fits.contains_shift member

/-- The rank drawn among the empty cells counts from one and is at most their number. -/
theorem Maze.exists_rank {σ : Type} [RandomSource σ] [LawfulRandomSource σ] {maze : Maze}
    (some : maze.emptyCells ≠ []) (source : σ) :
    ∃ rank after, drawIndex 1 maze.emptyCells.length source = .ok (rank, after) ∧ 1 ≤ rank ∧
      rank ≤ maze.emptyCells.length := by
  obtain ⟨-, -, rank, after, drawn, least, greatest, -⟩ :=
    exists_of_rank some maze.length_emptyCells_lt source
  exact ⟨rank, after, drawn, least, greatest⟩

/-- A flood that is walled in has a wall to take out, and the number drawn is that of one. -/
theorem Flood.exists_wall {σ : Type} [RandomSource σ] [LawfulRandomSource σ] {flood : Flood σ}
    {walls : List (Coord × Side)} (walled : flood.frontier = .walled walls) :
    walls ≠ [] ∧ ∃ choice after,
      drawIndex 0 (walls.length - 1) flood.source = .ok (choice, after) ∧ choice < walls.length := by
  obtain ⟨rfl, some, -⟩ := Maze.walls_of_boundary (boundary_of_frontier walled)
  obtain ⟨wall, -, choice, after, drawn, chosen⟩ :=
    exists_of_number some (Nat.le_of_lt flood.maze.length_boundaryPairs_lt) flood.source
  obtain ⟨inside, -⟩ := List.getElem?_eq_some_iff.mp chosen
  exact ⟨some, choice, after, drawn, inside⟩

namespace Generator

variable {σ : Type} [RandomSource σ] {generator entered : Generator σ}

/-- Where a step of a generator enters the repair: at once, if one is due, or else when
    carving is done. -/
inductive EntersRepair (generator : Generator σ) : Generator σ → Prop
  | due (repairing : generator.phase = .repairing) : EntersRepair generator generator
  | carved {κ : Type} [Clock κ] {effort : Nat} {clock after : κ} {sliced : Generator σ}
      (carving : generator.phase = .carving)
      (answered : (generator.carveSlice effort clock).result = .ok (sliced, after))
      (repairing : sliced.phase = .repairing) : EntersRepair generator sliced

/-- No cell is visited there. -/
theorem Sound.entersRepair [LawfulRandomSource σ] (sound : generator.Sound)
    (enters : generator.EntersRepair entered) (place : Coord) :
    (entered.maze.get place).visited = false := by
  cases enters with
  | due repairing => exact absurd repairing sound.settled
  | carved carving answered repairing =>
    obtain ⟨outcome, called, ⟨-, still⟩ | ⟨rfl, -, -⟩⟩ := carveSlice_result answered
    · exact nomatch repairing.symm.trans (still.trans carving)
    · exact (sound.joinRegions_ok carving called).1 place

end Generator

namespace Dial

variable {σ κ : Type} [Clock κ] {dial : Dial κ σ}

/-- A touch is stopped by the time: the reading fails, or it is a long tap on the time and
    the end of the window that the last one opened is too long a duration. -/
inductive Mistimes (dial : Dial κ σ) (event : Touch) (fault : Fault) : Prop
  | unread (idle : dial.isGenerating = false) (failed : Clock.now dial.clock = .error fault)
  | late {last : Duration} (idle : dial.isGenerating = false) (long : event = .longTap)
      (onTime : dial.scene = .watchFace) (tapped : dial.lastLongTap = some last)
      (failed : last.add dial.settings.doubleTapWindow = .error fault)

omit [Clock κ] in
/-- A double tap is told apart unless the window of the last long tap ends too late. -/
theorem fault_of_isDoubleTap {now : Duration} {fault : Fault}
    (failed : dial.isDoubleTap now = .error fault) :
    ∃ last, dial.lastLongTap = some last ∧
      last.add dial.settings.doubleTapWindow = .error fault := by
  unfold isDoubleTap at failed
  split at failed
  · cases failed
  · next last tapped =>
    refine ⟨last, tapped, ?_⟩
    cases ends : last.add dial.settings.doubleTapWindow with
    | error other =>
      rw [ends] at failed
      exact congrArg Except.error (Except.error.inj failed)
    | ok limit =>
      rw [ends] at failed
      cases failed

omit [Clock κ] in
/-- That is all that can stop a long tap on the time. -/
theorem fault_of_longTapOnTime {now : Duration} {fault : Fault}
    (failed : (dial.longTapOnTime now).result = .error fault) :
    dial.isDoubleTap now = .error fault := by
  simpa only [longTapOnTime, Logged.result_bind_eq_error, Logged.result_lift, Logged.result_note,
    Logged.result_pure, reduceCtorEq, and_false, exists_false, or_false] using failed

/-- A touch stops without an answer only by the time. -/
theorem touch_halts {event : Touch} {fault : Fault}
    (failed : (dial.touch event).result = .error fault) : dial.Mistimes event fault := by
  unfold touch at failed
  split at failed
  · cases failed
  · next generating =>
    have idle : dial.isGenerating = false := Bool.eq_false_iff.mpr generating
    simp only [Logged.result_bind_eq_error, Logged.result_lift] at failed
    rcases failed with unread | ⟨⟨now, clock⟩, -, failed⟩
    · exact .unread idle unread
    · cases event with
      | tap => cases failed
      | longTap =>
        by_cases onTime : dial.scene = .watchFace
        · simp only [decide_eq_true onTime, if_true, Logged.result_bind_eq_error] at failed
          obtain tapping | ⟨_, -, ⟨⟩⟩ := failed
          obtain ⟨last, tapped, late⟩ := fault_of_isDoubleTap (fault_of_longTapOnTime tapping)
          exact .late idle rfl onTime tapped late
        · simp only [decide_eq_false onTime] at failed
          cases failed
      | swipe direction =>
        by_cases onTime : dial.scene = .watchFace
        · simp only [decide_eq_true onTime, if_true] at failed
          cases failed
        · simp only [decide_eq_false onTime, Bool.false_eq_true, if_false, swipeElsewhere,
            Logged.result_bind_eq_error] at failed
          obtain swiped | ⟨_, -, ⟨⟩⟩ := failed
          split at swiped <;> cases swiped

variable [RandomSource σ]

/-- A dial of which no call is refused. -/
structure Unrefused (dial : Dial κ σ) : Prop where
  /-- Its board is the one that plans fit. -/
  board : dial.generator.maze.size = .dial
  /-- A refresh stops only for want of effort, or by the time. -/
  refresh : ∀ effort fault, (dial.refresh effort).result = .error fault → dial.Halts effort fault
  /-- A touch stops only by the time. -/
  touch : ∀ event fault, (dial.touch event).result = .error fault → dial.Mistimes event fault
  /-- A cycle can be begun for every minute and cause. -/
  begin : ∀ minute cause, ∃ next, (dial.begin minute cause).result = .ok next
  /-- A repair is entered without a visited cell. -/
  repair : ∀ worked clock entered, dial.Works worked clock → worked.EntersRepair entered →
    ∀ place, (entered.maze.get place).visited = false

variable [LawfulRandomSource σ]

/-- What a dial keeps is enough for no call to be refused. -/
theorem Kept.unrefused (kept : dial.Kept) : dial.Unrefused where
  board := kept.size_eq
  refresh _ _ := kept.refresh_halts
  touch _ _ := touch_halts
  begin := kept.exists_begin
  repair _ _ _ works enters := (kept.sound_of_works works).entersRepair enters

omit [Clock κ] [RandomSource σ] [LawfulRandomSource σ] in
/-- Settings with a budget make a dial. -/
theorem exists_new (clock : κ) {settings : Settings} {budget : Duration} (source : σ)
    (valid : settings.budget = .ok budget) : ∃ first, new clock settings source = .ok first := by
  rw [new, valid]
  exact ⟨_, rfl⟩

/-- Settings with a budget make a dial, and at every moment of every run none of its calls
    is refused. Every scene has a plan at every minute, which fits the board wherever its
    patterns are drawn; the digits of the time are below ten; a local minute and the numbers
    it is made of do not overflow. A start is chosen on every maze and a direction is drawn
    from every source, and a flood that is walled in draws the number of one of its walls. -/
theorem no_call_refused (clock : κ) {settings : Settings} {budget : Duration} (source : σ)
    (valid : settings.budget = .ok budget) :
    (∃ first, new clock settings source = .ok first ∧
      ∀ history dial, Run first history dial → dial.Unrefused) ∧
    (∀ (scene : Scene) clockType minute, ∃ plan, scene.plan clockType minute = .ok plan ∧
      ∀ placement ∈ plan, placement.Fitting .dial ∧ placement.Drawable ∧
        ∀ source : σ, ∃ origin pattern drawn,
          placement.settle source = .ok ((origin, pattern), drawn) ∧
            pattern.Stampable origin .dial) ∧
    (∀ clockType minute, timePlan clockType minute =
        ((digitPlaces clockType minute).mapM fun (origin, value) => digitAt origin value).map
          (halfDaySign clockType (hourOf minute) ++ ·) ∧
      ∀ digit ∈ digitPlaces clockType minute, digit.2 < 10) ∧
    (∀ reading utcOffset, reading.seconds / 60 < 2 ^ 63 ∧
      -2 ^ 63 ≤ ((reading.seconds / 60 : Nat) : Int) + Int32.toInt utcOffset ∧
      ((reading.seconds / 60 : Nat) : Int) + Int32.toInt utcOffset < 2 ^ 63 ∧
      localMinute reading utcOffset < 2 ^ 63) ∧
    (∀ (maze : Maze) (source : σ), (∃ answer, maze.chooseStart source = .ok answer) ∧
      (maze.emptyCells ≠ [] → ∃ rank after,
        drawIndex 1 maze.emptyCells.length source = .ok (rank, after) ∧ 1 ≤ rank ∧
          rank ≤ maze.emptyCells.length)) ∧
    (∀ source : σ, ∃ answer, drawByte 0 3 source = .ok answer) ∧
    ∀ (flood : Flood σ) walls, flood.frontier = .walled walls → walls ≠ [] ∧
      ∃ choice after, drawIndex 0 (walls.length - 1) flood.source = .ok (choice, after) ∧
        choice < walls.length := by
  refine ⟨?_, ?_, ?_, localMinute_bounds, ?_, ?_, fun _ _ => Flood.exists_wall⟩
  · obtain ⟨first, made⟩ := exists_new clock source valid
    exact ⟨first, made, fun history dial run => (run.kept made).unrefused⟩
  · intro scene clockType minute
    obtain ⟨plan, planned, fits⟩ := scene.plan_fitting clockType minute
    refine ⟨plan, planned, fun placement member => ?_⟩
    obtain ⟨fitting, drawable⟩ := fits placement member
    exact ⟨fitting, drawable, Placement.exists_stampable fitting drawable⟩
  · exact fun clockType minute => ⟨timePlan_eq clockType minute, fun _ => digitPlaces_lt⟩
  · intro maze source
    obtain ⟨found, after, chosen, -⟩ := maze.chooseStart_spec source
    exact ⟨⟨_, chosen⟩, fun some => Maze.exists_rank some source⟩
  · exact fun source => ⟨_, drawByte_ok UInt8.zero_le source⟩

/-- A dial with the default settings is none the worse for a long tap. -/
theorem no_call_refused_tapped :
    ∃ budget, ({} : Settings).budget = .ok budget ∧
      ∃ first tapped : Dial ManualClock KeyStream, ∃ tap,
        Dial.new ⟨.zero, .zero⟩ {} (KeyStream.ofSeed 3) = .ok first ∧
        Dial.Run first [tap] tapped ∧ tap.isRequest = true ∧ tapped.Unrefused := by
  have seen : ({} : Settings).budget.toOption.map Duration.nanos = some 15000000 := by
    decide +kernel
  cases valid : ({} : Settings).budget with
  | error fault =>
    rw [valid] at seen
    cases seen
  | ok budget =>
    obtain ⟨⟨first, made, unrefused⟩, -⟩ :=
      no_call_refused (⟨.zero, .zero⟩ : ManualClock) (KeyStream.ofSeed 3) valid
    obtain ⟨slice, rfl⟩ := new_eq made
    let first := still .zero {} (KeyStream.ofSeed 3) slice
    have tapping : (first.touch .longTap).result =
        .ok (true, { first with requested := true, lastLongTap := some .zero }) := rfl
    have run := Run.new.call (.touch tapping)
    exact ⟨budget, rfl, first, _, _, made, run, rfl, unrefused _ _ run⟩

end Dial

end MazeDial
