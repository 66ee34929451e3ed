import MazeDial.Dial.Basic
import MazeDial.Proofs.Cycles

/-!
# The calls of a dial

What each call of a dial does, said once and for all that follows. A refresh goes on
with the cycle under way; or it looks at the local minute and finds nothing due; or
it begins a cycle and works on it. Nothing else ever touches the generator. A touch
is ignored during a cycle, and otherwise does one of a few things; the button is
never ignored off the time.

A cycle is described by what it was begun with, so that it can be told later which
maze came of it.
-/

namespace MazeDial

namespace Generator

variable {σ κ : Type} [RandomSource σ]

/-- Steps go on from where steps have led. -/
protected theorem Steps.trans {first middle last : Generator σ} (before : Steps first middle)
    (after : Steps middle last) : Steps first last := by
  induction before with
  | refl => exact after
  | step answered _ inductionHypothesis => exact .step answered (inductionHypothesis after)

/-- What a slice of work on a cycle comes to, with the maze it hands out. -/
inductive Advances (generator : Generator σ) : Option Maze → Generator σ → Prop
  /-- The cycle goes on. -/
  | on {next : Generator σ} (steps : Steps generator next) (still : next.phase = .carving) :
      Advances generator none next
  /-- The cycle is done, and its maze is handed out at once. -/
  | out {last : Generator σ} (steps : Steps generator last) (done : last.phase = .done) :
      Advances generator (some last.maze) { last with phase := .idle }

/-- After work a cycle is under way or its maze has been handed out. -/
theorem Advances.visible {generator next : Generator σ} {maze : Option Maze}
    (advances : generator.Advances maze next) :
    (next.phase.isGenerating || maze.isSome) = true := by
  cases advances with
  | on _ still => rw [still, Phase.isGenerating, Bool.true_or]
  | out => exact Bool.or_true _

/-- Work on a cycle is a step, which leaves it carving or hands out its maze. -/
theorem advances_of_step [Clock κ] {effort : Nat} {generator next : Generator σ} {clock after : κ}
    (carving : generator.phase = .carving)
    (answered : (generator.step effort clock).result = .ok (next, after)) :
    generator.Advances next.collect.1 next.collect.2 := by
  have steps : Steps generator next := .step answered .refl
  have ends : next.phase = .carving ∨ next.phase = .done := by
    cases step_moves answered with
    | rest idle =>
      rw [carving] at idle
      cases idle
    | paused _ _ still => exact .inl still
    | finished _ _ _ _ _ done => exact .inr done
    | repaired repairing => exact nomatch carving.symm.trans repairing
  rcases ends with still | done
  · have undone : ¬ next.phase = .done := by simp [still]
    rw [collect, if_neg undone]
    exact .on steps still
  · rw [collect, if_pos done]
    exact .out steps done

end Generator

/-- A cycle of a dial, as it was begun. -/
structure Cycle (σ : Type) where
  /-- The generator it was begun on, as it was before. -/
  generator : Generator σ
  clockType : ClockType
  /-- The scene shown. -/
  scene : Scene
  /-- The local minute. -/
  minute : Nat
  cause : Cause

namespace Cycle

variable {σ : Type} [RandomSource σ]

/-- The generator of a cycle has started on the plan of its scene. -/
def Begins (cycle : Cycle σ) (started : Generator σ) : Prop :=
  ∃ plan, cycle.scene.plan cycle.clockType cycle.minute = .ok plan ∧
    (cycle.generator.start plan (cycle.cause.seed cycle.minute)).result = .ok started

/-- A cycle has come so far. -/
def Reaches (cycle : Cycle σ) (generator : Generator σ) : Prop :=
  ∃ started, cycle.Begins started ∧ Generator.Steps started generator

/-- A cycle has been brought to its end, and this is its maze. -/
def Yields (cycle : Cycle σ) (maze : Maze) : Prop :=
  ∃ last, cycle.Reaches last ∧ last.phase = .done ∧ last.maze = maze

/-- A cycle just begun carves. -/
theorem Begins.carving {cycle : Cycle σ} {started : Generator σ} (begins : cycle.Begins started) :
    started.phase = .carving := by
  obtain ⟨plan, -, answered⟩ := begins
  exact (Generator.carvable_of_start answered).2

theorem Begins.reaches {cycle : Cycle σ} {started : Generator σ} (begins : cycle.Begins started) :
    cycle.Reaches started :=
  ⟨started, begins, .refl⟩

/-- Steps bring a cycle further. -/
theorem Reaches.steps {cycle : Cycle σ} {generator next : Generator σ}
    (reaches : cycle.Reaches generator) (steps : Generator.Steps generator next) :
    cycle.Reaches next := by
  obtain ⟨started, begins, before⟩ := reaches
  exact ⟨started, begins, before.trans steps⟩

end Cycle

namespace Dial

variable {κ σ : Type}

/-- The cycle that would be begun for a minute and a cause. -/
def cycle (dial : Dial κ σ) (minute : Nat) (cause : Cause) : Cycle σ :=
  ⟨dial.generator, dial.settings.clockType, dial.scene, minute, cause⟩

/-- A new dial shows the time, has no cycle under way and remembers nothing. -/
theorem new_eq {clock : κ} {settings : Settings} {source : σ} {dial : Dial κ σ}
    (made : new clock settings source = .ok dial) :
    ∃ budget, dial =
      ⟨clock, settings, .new (.fresh .dial) source budget, .watchFace, false, none, none, []⟩ := by
  rw [new] at made
  cases share : settings.budget with
  | error fault =>
    rw [share] at made
    cases made
  | ok budget =>
    rw [share] at made
    exact ⟨budget, (Except.ok.inj made).symm⟩

/-- A minute is due for one cause only, which is the request if there is one. -/
theorem due_eq_some {dial : Dial κ σ} {minute : Nat} {cause : Cause}
    (due : dial.due minute = some cause) :
    cause = (if dial.requested then .request else .rollover) ∧
      (cause = .rollover → dial.scene = .watchFace ∧ dial.lastMinute ≠ some minute) := by
  unfold Dial.due at due
  split at due
  · next requested =>
    obtain rfl := Option.some.inj due
    rw [if_pos requested]
    exact ⟨rfl, nofun⟩
  · next unrequested =>
    split at due
    · next changed =>
      obtain rfl := Option.some.inj due
      rw [if_neg unrequested]
      rw [Bool.and_eq_true, decide_eq_true_eq, bne_iff_ne] at changed
      exact ⟨rfl, fun _ => changed⟩
    · cases due

/-- Nothing is due when nothing was asked for, and off the time or in the minute of the
    last look. -/
theorem due_eq_none {dial : Dial κ σ} {minute : Nat} (undue : dial.due minute = none) :
    dial.requested = false ∧ (dial.scene = .watchFace → dial.lastMinute = some minute) := by
  unfold Dial.due at undue
  split at undue
  · cases undue
  · next unrequested =>
    split at undue
    · cases undue
    · next unchanged =>
      refine ⟨Bool.eq_false_iff.mpr unrequested, ?_⟩
      intro onTime
      by_contra changed
      exact unchanged (by simpa [onTime] using changed)

/-- A long tap on the time, double or not. -/
theorem longTapOnTime_result {dial next : Dial κ σ} {now : Duration}
    (tapped : (dial.longTapOnTime now).result = .ok next) :
    dial.isDoubleTap now = .ok false ∧
        next = { dial with requested := true, lastLongTap := some now } ∨
      dial.isDoubleTap now = .ok true ∧ next = { dial with
        scene := .blank, swipes := [], requested := true, lastLongTap := some now } := by
  simp only [longTapOnTime, Logged.result_bind_eq_ok, Logged.result_lift] at tapped
  obtain ⟨double, asked, -, -, tapped⟩ := tapped
  obtain rfl := Except.ok.inj tapped
  cases double with
  | false => exact .inl ⟨asked, rfl⟩
  | true => exact .inr ⟨asked, rfl⟩

/-- A swipe off the time, completing a code or not. -/
theorem swipeElsewhere_result {dial next : Dial κ σ} {direction : Swipe}
    (swiped : (dial.swipeElsewhere direction).result = .ok next) :
    (MazeDial.unlocked (remember direction dial.swipes)).filter (· ≠ dial.scene) = none ∧
        next = { dial with swipes := remember direction dial.swipes } ∨
      ∃ picture,
        (MazeDial.unlocked (remember direction dial.swipes)).filter (· ≠ dial.scene) =
            some picture ∧
          next = { dial with
            swipes := remember direction dial.swipes, scene := picture, requested := true } := by
  simp only [swipeElsewhere] at swiped
  cases opened : (MazeDial.unlocked (remember direction dial.swipes)).filter (· ≠ dial.scene) with
  | none =>
    rw [opened] at swiped
    exact .inl ⟨rfl, (Except.ok.inj swiped).symm⟩
  | some picture =>
    rw [opened] at swiped
    exact .inr ⟨picture, rfl, (Except.ok.inj swiped).symm⟩

variable [Clock κ]

/-- The local minute that a refresh reads, if it finds no cycle under way. -/
def look (dial : Dial κ σ) : Option Nat :=
  if dial.isGenerating then none
  else (Clock.now dial.clock).toOption.map fun reading =>
    localMinute reading.1 dial.settings.utcOffset

/-- With no cycle under way it is the minute of the reading. -/
theorem look_eq_some {dial : Dial κ σ} {now : Duration} {clock : κ} {minute : Nat}
    (idle : dial.isGenerating = false) (reading : Clock.now dial.clock = .ok (now, clock))
    (read : localMinute now dial.settings.utcOffset = minute) : dial.look = some minute := by
  rw [look, if_neg (Bool.eq_false_iff.mp idle), reading, ← read]
  rfl

theorem idle_of_look {dial : Dial κ σ} {minute : Nat} (read : dial.look = some minute) :
    dial.isGenerating = false := by
  unfold look at read
  split at read
  · cases read
  · next idle => exact Bool.eq_false_iff.mpr idle

variable [RandomSource σ]

/-- What a refresh does, with the maze it answers. -/
inductive Refreshes (dial : Dial κ σ) : Option Maze → Dial κ σ → Prop
  /-- It goes on with the cycle under way. -/
  | work {maze : Option Maze} {generator : Generator σ} {clock : κ}
      (underWay : dial.isGenerating = true) (advances : dial.generator.Advances maze generator) :
      Refreshes dial maze { dial with generator := generator, clock := clock }
  /-- It finds nothing due. -/
  | rest {minute : Nat} {clock : κ} (read : dial.look = some minute)
      (undue : dial.due minute = none) :
      Refreshes dial none { dial with clock := clock, lastMinute := some minute }
  /-- It begins a cycle and works on it. -/
  | start {minute : Nat} {cause : Cause} {started generator : Generator σ} {maze : Option Maze}
      {clock : κ} (read : dial.look = some minute) (due : dial.due minute = some cause)
      (begins : (dial.cycle minute cause).Begins started)
      (advances : started.Advances maze generator) :
      Refreshes dial maze { dial with
        generator := generator, clock := clock, lastMinute := some minute, requested := false }

/-- A refresh leaves the settings alone. -/
theorem Refreshes.settings_eq {dial next : Dial κ σ} {maze : Option Maze}
    (refreshes : dial.Refreshes maze next) : next.settings = dial.settings := by
  cases refreshes <;> rfl

/-- Work on a dial whose cycle is carving advances the cycle. -/
theorem work_result {effort : Nat} {dial next : Dial κ σ} {maze : Option Maze}
    (carving : dial.generator.phase = .carving)
    (worked : (dial.work effort).result = .ok (maze, next)) :
    ∃ generator clock, dial.generator.Advances maze generator ∧
      next = { dial with generator := generator, clock := clock } := by
  simp only [work, Logged.result_bind_eq_ok] at worked
  obtain ⟨⟨stepped, after⟩, answered, worked⟩ := worked
  obtain ⟨rfl, rfl⟩ := Prod.mk.inj (Except.ok.inj worked)
  exact ⟨_, after, Generator.advances_of_step carving answered, rfl⟩

omit [Clock κ] in
/-- A cycle that was begun is that of the dial's scene, and answers the request. -/
theorem begin_result {dial next : Dial κ σ} {minute : Nat} {cause : Cause}
    (begun : (dial.begin minute cause).result = .ok next) :
    ∃ started, (dial.cycle minute cause).Begins started ∧
      next = { dial with generator := started, requested := false } := by
  simp only [begin, Logged.result_bind_eq_ok, Logged.result_lift] at begun
  obtain ⟨plan, planned, -, -, started, answered, begun⟩ := begun
  exact ⟨started, ⟨plan, planned, answered⟩, (Except.ok.inj begun).symm⟩

/-- A refresh that answers does one of these things, if no maze waits to be repaired. -/
theorem refreshes_of_refresh {effort : Nat} {dial next : Dial κ σ} {maze : Option Maze}
    (settled : dial.generator.phase ≠ .repairing)
    (answered : (dial.refresh effort).result = .ok (maze, next)) : dial.Refreshes maze next := by
  unfold refresh at answered
  split at answered
  · next underWay =>
    have carving : dial.generator.phase = .carving := by
      rw [isGenerating] at underWay
      cases phase : dial.generator.phase with
      | carving => rfl
      | repairing => exact absurd phase settled
      | idle => simp [phase, Phase.isGenerating] at underWay
      | done => simp [phase, Phase.isGenerating] at underWay
    obtain ⟨generator, clock, advances, rfl⟩ := work_result carving answered
    exact .work underWay advances
  · next idle =>
    simp only [Logged.result_bind_eq_ok, Logged.result_lift] at answered
    obtain ⟨⟨now, clock⟩, reading, answered⟩ := answered
    have read := look_eq_some (Bool.eq_false_iff.mpr idle) reading rfl
    simp only at answered
    cases due : dial.due (localMinute now dial.settings.utcOffset) with
    | none =>
      rw [due] at answered
      obtain ⟨rfl, rfl⟩ := Prod.mk.inj (Except.ok.inj answered)
      exact .rest read due
    | some cause =>
      rw [due] at answered
      simp only [Logged.result_bind_eq_ok] at answered
      obtain ⟨begun, beginning, answered⟩ := answered
      obtain ⟨started, begins, rfl⟩ := begin_result beginning
      obtain ⟨generator, after, advances, rfl⟩ := work_result begins.carving answered
      exact .start read due begins advances

/-- A refresh that reads a minute for which nothing is due rests. -/
theorem refresh_of_undue {effort : Nat} {dial : Dial κ σ} {now : Duration} {clock : κ}
    (idle : dial.isGenerating = false) (reading : Clock.now dial.clock = .ok (now, clock))
    (undue : dial.due (localMinute now dial.settings.utcOffset) = none) :
    (dial.refresh effort).result = .ok (none, { dial with
      clock := clock, lastMinute := some (localMinute now dial.settings.utcOffset) }) := by
  rw [refresh, if_neg (Bool.eq_false_iff.mp idle)]
  refine Logged.result_bind_eq_ok.mpr ⟨(now, clock), reading, ?_⟩
  simp only [undue, Logged.result_pure]

omit [RandomSource σ]

/-- What a touch does, with whether it was used. -/
inductive Touches (dial : Dial κ σ) : Touch → Bool → Dial κ σ → Prop
  /-- During a cycle it is ignored. -/
  | ignored {event : Touch} (underWay : dial.isGenerating = true) : Touches dial event false dial
  /-- A tap does nothing, and on the time a swipe does nothing. -/
  | unused {event : Touch} {now : Duration} {clock : κ} (idle : dial.isGenerating = false)
      (reading : Clock.now dial.clock = .ok (now, clock)) (notLong : event ≠ .longTap) :
      Touches dial event false { dial with clock := clock }
  /-- A long tap on the time asks for a new maze. -/
  | asked {now : Duration} {clock : κ} (idle : dial.isGenerating = false)
      (reading : Clock.now dial.clock = .ok (now, clock)) (onTime : dial.scene = .watchFace)
      (single : dial.isDoubleTap now = .ok false) :
      Touches dial .longTap true
        { dial with clock := clock, requested := true, lastLongTap := some now }
  /-- A second one soon after switches to the blank scene. -/
  | doubled {now : Duration} {clock : κ} (idle : dial.isGenerating = false)
      (reading : Clock.now dial.clock = .ok (now, clock)) (onTime : dial.scene = .watchFace)
      (double : dial.isDoubleTap now = .ok true) :
      Touches dial .longTap true { dial with
        clock := clock, scene := .blank, swipes := [], requested := true, lastLongTap := some now }
  /-- A long tap off the time switches back to it. -/
  | returned {now : Duration} {clock : κ} (idle : dial.isGenerating = false)
      (reading : Clock.now dial.clock = .ok (now, clock)) (offTime : dial.scene ≠ .watchFace) :
      Touches dial .longTap true { dial with
        clock := clock, scene := .watchFace, requested := true, lastLongTap := none }
  /-- A swipe off the time is remembered. -/
  | remembered {now : Duration} {clock : κ} {direction : Swipe} (idle : dial.isGenerating = false)
      (reading : Clock.now dial.clock = .ok (now, clock)) (offTime : dial.scene ≠ .watchFace)
      (shut : (unlocked (remember direction dial.swipes)).filter (· ≠ dial.scene) = none) :
      Touches dial (.swipe direction) true
        { dial with clock := clock, swipes := remember direction dial.swipes }
  /-- A swipe that completes the code of another picture switches to it. -/
  | unlocked {now : Duration} {clock : κ} {direction : Swipe} {picture : Scene}
      (idle : dial.isGenerating = false) (reading : Clock.now dial.clock = .ok (now, clock))
      (offTime : dial.scene ≠ .watchFace)
      (opened : (unlocked (remember direction dial.swipes)).filter (· ≠ dial.scene) =
        some picture) :
      Touches dial (.swipe direction) true { dial with
        clock := clock, swipes := remember direction dial.swipes, scene := picture,
        requested := true }

/-- A touch that answers does one of these things. -/
theorem touches_of_touch {event : Touch} {dial next : Dial κ σ} {used : Bool}
    (answered : (dial.touch event).result = .ok (used, next)) : dial.Touches event used next := by
  unfold touch at answered
  split at answered
  · next underWay =>
    obtain ⟨rfl, rfl⟩ := Prod.mk.inj (Except.ok.inj answered)
    exact .ignored underWay
  · next generating =>
    have idle : dial.isGenerating = false := Bool.eq_false_iff.mpr generating
    simp only [Logged.result_bind_eq_ok, Logged.result_lift] at answered
    obtain ⟨⟨now, clock⟩, reading, answered⟩ := answered
    cases event with
    | tap =>
      obtain ⟨rfl, rfl⟩ := Prod.mk.inj (Except.ok.inj answered)
      exact .unused idle reading nofun
    | longTap =>
      by_cases onTime : dial.scene = .watchFace
      · simp only [decide_eq_true onTime, if_true, Logged.result_bind_eq_ok] at answered
        obtain ⟨tapped, tapping, answered⟩ := answered
        obtain ⟨rfl, rfl⟩ := Prod.mk.inj (Except.ok.inj answered)
        obtain ⟨single, rfl⟩ | ⟨double, rfl⟩ := longTapOnTime_result tapping
        · exact .asked idle reading onTime single
        · exact .doubled idle reading onTime double
      · simp only [decide_eq_false onTime, Bool.false_eq_true, if_false,
          Logged.result_bind_eq_ok] at answered
        obtain ⟨tapped, tapping, answered⟩ := answered
        obtain ⟨rfl, rfl⟩ := Prod.mk.inj (Except.ok.inj answered)
        obtain rfl := Except.ok.inj tapping
        exact .returned idle reading onTime
    | swipe direction =>
      by_cases onTime : dial.scene = .watchFace
      · simp only [decide_eq_true onTime, if_true] at answered
        obtain ⟨rfl, rfl⟩ := Prod.mk.inj (Except.ok.inj answered)
        exact .unused idle reading nofun
      · simp only [decide_eq_false onTime, Bool.false_eq_true, if_false,
          Logged.result_bind_eq_ok] at answered
        obtain ⟨swiped, swiping, answered⟩ := answered
        obtain ⟨rfl, rfl⟩ := Prod.mk.inj (Except.ok.inj answered)
        obtain ⟨shut, rfl⟩ | ⟨picture, opened, rfl⟩ := swipeElsewhere_result swiping
        · exact .remembered idle reading onTime shut
        · exact .unlocked idle reading onTime opened

/-- A touch leaves the generator, the minute last read and the settings alone. -/
theorem Touches.leaves {event : Touch} {dial next : Dial κ σ} {used : Bool}
    (touches : dial.Touches event used next) :
    next.generator = dial.generator ∧ next.lastMinute = dial.lastMinute ∧
      next.settings = dial.settings := by
  cases touches <;> exact ⟨rfl, rfl, rfl⟩

omit [Clock κ]

/-- So does the button. -/
theorem button_leaves (dial : Dial κ σ) :
    dial.button.2.generator = dial.generator ∧ dial.button.2.lastMinute = dial.lastMinute ∧
      dial.button.2.settings = dial.settings := by
  unfold button
  split <;> exact ⟨rfl, rfl, rfl⟩

/-- The button asks for a new maze of the time, or does nothing. -/
theorem button_result (dial : Dial κ σ) :
    dial.scene ≠ .watchFace ∧
        dial.button = (true, { dial with scene := .watchFace, requested := true }) ∨
      dial.scene = .watchFace ∧ dial.button = (false, dial) := by
  unfold button
  split
  · next onTime => exact .inr ⟨onTime, rfl⟩
  · next offTime => exact .inl ⟨offTime, rfl⟩

end Dial

end MazeDial
