import MazeDial.Proofs.DoubleTaps

/-!
# Swipe codes

A dial remembers its last eight swipes and compares them with the codes of the pictures
after each one. What it remembers can be read off the history: the swipes that were
accepted since the time last gave way to the blank scene. A swipe is accepted off the time
and between two cycles only, so that no other swipe counts towards a code.

Whenever the swipes that count spell a code, the swipe that completed it has led to its
picture, and any other swipe has left the scene as it was. A new maze is asked for exactly
if the scene changed. Nothing else leads to a picture: on every dial that shows one, the
picture was switched to by the last swipe of its code and has been shown since.
-/

namespace MazeDial

variable {κ σ : Type}

/-- Different codes are listed for different pictures, and no code is listed twice. -/
theorem eq_of_code_eq : ∀ first ∈ pictureCodes, ∀ second ∈ pictureCodes,
    first.2 = second.2 → first = second := by
  decide

/-- The remembered swipes unlock the picture of which they are the code. -/
theorem unlocked_eq_some_iff {recent : List Swipe} {picture : Scene} :
    unlocked recent = some picture ↔ (picture, recent.reverse) ∈ pictureCodes := by
  rw [unlocked, Option.map_eq_some_iff]
  constructor
  · rintro ⟨entry, found, rfl⟩
    have same : recent.reverse = entry.2 := by simpa using List.find?_some found
    rw [same]
    exact List.mem_of_find?_eq_some found
  · intro listed
    cases found : pictureCodes.find? fun entry => recent.reverse == entry.2 with
    | none => exact absurd (List.find?_eq_none.mp found _ listed) (by simp)
    | some entry =>
      have same : recent.reverse = entry.2 := by simpa using List.find?_some found
      have only := eq_of_code_eq entry (List.mem_of_find?_eq_some found) _ listed same.symm
      exact ⟨entry, rfl, congrArg Prod.fst only⟩

/-- Remembering a swipe after the last eight of some keeps the last eight of all. -/
theorem remember_take (direction : Swipe) (entered : List Swipe) :
    remember direction (entered.take 8) = (direction :: entered).take 8 := by
  simp [remember, codeLength, List.take_take]

namespace Deed

/-- The direction of the swipe that a call accepted. -/
def swiped (deed : Deed κ σ) : Option Swipe :=
  match deed.call with
  | .touch (.swipe direction) true => some direction
  | _ => none

/-- A call has turned the time to the blank scene. -/
def Blanks (deed : Deed κ σ) : Prop :=
  deed.before.scene = .watchFace ∧ deed.after.scene = .blank

instance (deed : Deed κ σ) : Decidable deed.Blanks :=
  inferInstanceAs (Decidable (_ ∧ _))

/-- The swipes that a call leaves to be remembered. -/
def swipesLeft (deed : Deed κ σ) : List Swipe :=
  if deed.Blanks then []
  else
    match deed.swiped with
    | some direction => remember direction deed.before.swipes
    | none => deed.before.swipes

/-- A call that leaves the scene as it is does not turn to the blank scene. -/
theorem not_blanks {deed : Deed κ σ} (same : deed.after.scene = deed.before.scene) :
    ¬ deed.Blanks := by
  rintro ⟨onTime, blank⟩
  cases onTime.symm.trans (same.symm.trans blank)

end Deed

namespace History

/-- The swipes accepted since the time last gave way to the blank scene, the latest first. -/
def entered (history : List (Deed κ σ)) : List Swipe :=
  (history.takeWhile fun deed => !decide deed.Blanks).filterMap Deed.swiped

/-- The last eight swipes entered are, in their order, the code of a picture. -/
def Spells (history : List (Deed κ σ)) (picture : Scene) : Prop :=
  (picture, ((entered history).take 8).reverse) ∈ pictureCodes

variable {history earlier : List (Deed κ σ)} {deed : Deed κ σ}

/-- An accepted swipe off the time is entered. -/
theorem entered_of_swiped {direction : Swipe} (lasting : ¬ deed.Blanks)
    (swiped : deed.swiped = some direction) :
    entered (deed :: earlier) = direction :: entered earlier := by
  rw [entered, List.takeWhile_cons_of_pos (by simp [lasting])]
  exact List.filterMap_cons_some swiped

/-- A call that accepts no swipe enters none. -/
theorem entered_of_unswiped (lasting : ¬ deed.Blanks) (unswiped : deed.swiped = none) :
    entered (deed :: earlier) = entered earlier := by
  rw [entered, List.takeWhile_cons_of_pos (by simp [lasting])]
  exact List.filterMap_cons_none unswiped

/-- What a call leaves to be remembered is the end of what was entered up to it, if that
    was so before. -/
theorem swipesLeft_eq (deed : Deed κ σ) (told : deed.before.swipes = (entered earlier).take 8) :
    deed.swipesLeft = (entered (deed :: earlier)).take 8 := by
  rw [Deed.swipesLeft]
  split
  · next blanks => simp [entered, blanks]
  · next lasting =>
    cases swiped : deed.swiped with
    | none => simp only [entered_of_unswiped lasting swiped, told]
    | some direction => simp only [entered_of_swiped lasting swiped, told, remember_take]

/-- An accepted swipe off the time unlocks the picture that is spelled with it. -/
theorem unlocked_iff_spells {before : Dial κ σ} (after : Dial κ σ) (direction : Swipe)
    (picture : Scene) (told : before.swipes = (entered earlier).take 8)
    (offTime : before.scene ≠ .watchFace) :
    unlocked (remember direction before.swipes) = some picture ↔
      Spells (⟨before, .touch (.swipe direction) true, after⟩ :: earlier) picture := by
  have left : remember direction before.swipes =
      (⟨before, .touch (.swipe direction) true, after⟩ : Deed κ σ).swipesLeft :=
    (if_neg fun blanks => offTime blanks.1).symm
  rw [left, swipesLeft_eq _ told, unlocked_eq_some_iff, Spells]

/-- What a swipe has done, accepted or not, after the calls before it. -/
structure HeedsSwipe (earlier : List (Deed κ σ)) (deed : Deed κ σ) (used : Bool) : Prop where
  /-- It was accepted off the time and between two cycles, and only there. -/
  accepted : used = true ↔ deed.before.isGenerating = false ∧ deed.before.scene ≠ .watchFace
  /-- If it completed the code of a picture, that picture was shown then. -/
  completed : used = true → ∀ picture, Spells (deed :: earlier) picture → deed.after.scene = picture
  /-- If it completed no code, the scene remained. -/
  passed : used = true → (∀ picture, ¬ Spells (deed :: earlier) picture) →
    deed.after.scene = deed.before.scene
  /-- If it was not accepted, the scene remained and the swipe counts towards no code. -/
  ignored : used = false → deed.after.scene = deed.before.scene ∧
    entered (deed :: earlier) = entered earlier
  /-- It asked for a new maze exactly if the scene changed. -/
  requested : deed.after.requested =
    (deed.before.requested || decide (deed.after.scene ≠ deed.before.scene))

/-- The swipe that completed the code of a picture has led to it, and it has been shown
    since. -/
def ShownByCode (history : List (Deed κ σ)) (picture : Scene) : Prop :=
  ∃ newer deed earlier, history = newer ++ deed :: earlier ∧ deed.swiped.isSome = true ∧
    Spells (deed :: earlier) picture ∧ deed.after.scene = picture ∧
    ∀ later ∈ newer, later.before.scene = picture ∧ later.after.scene = picture

/-- A call that leaves the picture leaves it shown by its code. -/
theorem ShownByCode.keep {picture : Scene} (shown : ShownByCode history picture)
    (before : deed.before.scene = picture) (after : deed.after.scene = picture) :
    ShownByCode (deed :: history) picture := by
  obtain ⟨newer, swipe, older, rfl, swiped, spells, switched, since⟩ := shown
  exact ⟨deed :: newer, swipe, older, rfl, swiped, spells, switched,
    List.forall_mem_cons.mpr ⟨⟨before, after⟩, since⟩⟩

end History

namespace Dial

variable [Clock κ] {dial next : Dial κ σ}

/-- A touch remembers its swipe if it accepts one, and forgets all of them when it turns to
    the blank scene. -/
theorem Touches.swipes_eq {event : Touch} {used : Bool}
    (touches : dial.Touches event used next) :
    next.swipes = (⟨dial, .touch event used, next⟩ : Deed κ σ).swipesLeft := by
  cases touches with
  | ignored => cases event <;> exact (if_neg (Deed.not_blanks rfl)).symm
  | unused => cases event <;> exact (if_neg (Deed.not_blanks rfl)).symm
  | asked => exact (if_neg (Deed.not_blanks rfl)).symm
  | doubled _ _ onTime => exact (if_pos ⟨onTime, rfl⟩).symm
  | returned => exact (if_neg fun blanks => nomatch blanks.2).symm
  | remembered => exact (if_neg (Deed.not_blanks rfl)).symm
  | unlocked _ _ offTime => exact (if_neg fun blanks => offTime blanks.1).symm

omit [Clock κ] in
/-- The button remembers what was remembered. -/
theorem button_swipes_eq (dial : Dial κ σ) :
    dial.button.2.swipes =
      (⟨dial, .button dial.button.1, dial.button.2⟩ : Deed κ σ).swipesLeft := by
  rcases dial.button_result with ⟨-, pressed⟩ | ⟨-, pressed⟩
  · rw [pressed]
    exact (if_neg fun blanks => nomatch blanks.2).symm
  · rw [pressed]
    exact (if_neg (Deed.not_blanks rfl)).symm

/-- A swipe is accepted exactly off the time and between two cycles. -/
theorem touch_swipe_used {direction : Swipe} {used : Bool}
    (answered : (dial.touch (.swipe direction)).result = .ok (used, next)) :
    used = true ↔ dial.isGenerating = false ∧ dial.scene ≠ .watchFace := by
  unfold touch at answered
  split at answered
  · next underWay =>
    obtain ⟨rfl, rfl⟩ := Prod.mk.inj (Except.ok.inj answered)
    simp [underWay]
  · next generating =>
    have idle : dial.isGenerating = false := Bool.eq_false_iff.mpr generating
    simp only [Logged.result_bind_eq_ok, Logged.result_lift] at answered
    obtain ⟨⟨now, read⟩, -, answered⟩ := answered
    by_cases onTime : dial.scene = .watchFace
    · simp only [decide_eq_true onTime, if_true] at answered
      obtain ⟨rfl, rfl⟩ := Prod.mk.inj (Except.ok.inj answered)
      simp [onTime]
    · simp only [decide_eq_false onTime, Bool.false_eq_true, if_false,
        Logged.result_bind_eq_ok] at answered
      obtain ⟨swiped, -, answered⟩ := answered
      obtain ⟨rfl, rfl⟩ := Prod.mk.inj (Except.ok.inj answered)
      exact iff_of_true rfl ⟨idle, onTime⟩

/-- A swipe leads to the picture that it unlocks, if there is one and it was accepted. It asks
    for a new maze exactly if this was not the scene before. -/
theorem Touches.swipe_result {direction : Swipe} {used : Bool}
    (touches : dial.Touches (.swipe direction) used next) :
    next.scene = (if used then
        (MazeDial.unlocked (remember direction dial.swipes)).getD dial.scene else dial.scene) ∧
      next.requested = (dial.requested || decide (next.scene ≠ dial.scene)) := by
  cases touches with
  | ignored => simp
  | unused => simp
  | remembered _ _ _ shut =>
    refine ⟨?_, by simp⟩
    rw [if_pos rfl]
    cases opened : MazeDial.unlocked (remember direction dial.swipes) with
    | none => rfl
    | some picture =>
      have shown : picture = dial.scene := by simpa [opened, Option.filter] using shut
      exact shown.symm
  | unlocked _ _ _ opened =>
    obtain ⟨unlocks, other⟩ := Option.filter_eq_some_iff.mp opened
    rw [if_pos rfl, unlocks, Option.getD_some]
    exact ⟨rfl, by rw [other, Bool.or_true]⟩

/-- Nothing but a swipe that unlocks it leads to a picture from elsewhere. -/
theorem Touches.way_to_picture {event : Touch} {used : Bool}
    (touches : dial.Touches event used next) (offTime : next.scene ≠ .watchFace)
    (drawn : next.scene ≠ .blank) :
    next.scene = dial.scene ∨ ∃ direction, event = .swipe direction ∧ used = true ∧
      MazeDial.unlocked (remember direction dial.swipes) = some next.scene := by
  cases touches with
  | ignored => exact .inl rfl
  | unused => exact .inl rfl
  | asked => exact .inl rfl
  | doubled => exact absurd rfl drawn
  | returned => exact absurd rfl offTime
  | remembered => exact .inl rfl
  | unlocked _ _ _ opened =>
    exact .inr ⟨_, rfl, rfl, (Option.filter_eq_some_iff.mp opened).1⟩

/-- A swipe that is accepted answers as soon as the clock does. -/
theorem exists_swipe {now : Duration} {clock : κ} (idle : dial.isGenerating = false)
    (reading : Clock.now dial.clock = .ok (now, clock)) (offTime : dial.scene ≠ .watchFace)
    (direction : Swipe) :
    ∃ next, (dial.touch (.swipe direction)).result = .ok (true, next) ∧
      next.isGenerating = false ∧ next.scene ≠ .watchFace ∧ next.clock = clock := by
  simp only [touch, idle, Bool.false_eq_true, if_false, decide_eq_false offTime,
    Logged.result_bind_eq_ok, Logged.result_lift]
  cases opened : (MazeDial.unlocked (remember direction dial.swipes)).filter (· ≠ dial.scene) with
  | none =>
    let next := { dial with clock := clock, swipes := remember direction dial.swipes }
    refine ⟨next, ⟨(now, clock), reading, next, ?_, rfl⟩, idle, offTime, rfl⟩
    simp only [swipeElsewhere, opened]
    rfl
  | some picture =>
    have unlocks := (Option.filter_eq_some_iff.mp opened).1
    let next := { dial with
      clock := clock, swipes := remember direction dial.swipes, scene := picture, requested := true }
    refine ⟨next, ⟨(now, clock), reading, next, ?_, rfl⟩, idle, ne_watchFace_of_unlocked unlocks, rfl⟩
    simp only [swipeElsewhere, opened]
    rfl

variable [RandomSource σ]

/-- A refresh remembers what was remembered, too. -/
theorem Refreshes.swipes_eq {maze : Option Maze} (refreshes : dial.Refreshes maze next) :
    next.swipes = (⟨dial, .refresh maze, next⟩ : Deed κ σ).swipesLeft := by
  cases refreshes <;> exact (if_neg (Deed.not_blanks rfl)).symm

end Dial

namespace History

variable [RandomSource σ] [Clock κ] {clock : κ} {settings : Settings} {source : σ}
  {first dial : Dial κ σ} {history newer earlier : List (Deed κ σ)} {deed : Deed κ σ}

/-- A dial remembers the last eight of the swipes entered. -/
theorem swipes_of_run (made : Dial.new clock settings source = .ok first)
    (run : Dial.Run first history dial) : dial.swipes = (entered history).take 8 := by
  induction run with
  | new =>
    obtain ⟨budget, rfl⟩ := Dial.new_eq made
    rfl
  | @call history dial next call before answers inductionHypothesis =>
    rw [← swipesLeft_eq ⟨dial, call, next⟩ inductionHypothesis]
    cases answers with
    | refresh answered => exact ((account_of_run made before).refreshes answered).swipes_eq
    | touch answered => exact (Dial.touches_of_touch answered).swipes_eq
    | button => exact dial.button_swipes_eq
  | wait _ _ inductionHypothesis => exact inductionHypothesis

/-- Every swipe of a run is heeded. -/
theorem heedsSwipe_of_run {direction : Swipe} {used : Bool}
    (made : Dial.new clock settings source = .ok first)
    (run : Dial.Run first (newer ++ deed :: earlier) dial)
    (swiped : deed.call = .touch (.swipe direction) used) : HeedsSwipe earlier deed used := by
  obtain ⟨before, call, after⟩ := deed
  obtain rfl : call = .touch (.swipe direction) used := swiped
  obtain ⟨ledTo, answers⟩ :
      Dial.Run first earlier before ∧ before.Answers (.touch (.swipe direction) used) after :=
    run.answers
  cases answers with
  | touch answered =>
    have accepted := Dial.touch_swipe_used answered
    obtain ⟨scene, requested⟩ := (Dial.touches_of_touch answered).swipe_result
    cases used with
    | false =>
      have lasting : ¬ (⟨before, .touch (.swipe direction) false, after⟩ : Deed κ σ).Blanks :=
        Deed.not_blanks scene
      exact ⟨accepted, nofun, nofun, fun _ => ⟨scene, entered_of_unswiped lasting rfl⟩, requested⟩
    | true =>
      rw [if_pos rfl] at scene
      have spelled (picture : Scene) := unlocked_iff_spells after direction picture
        (swipes_of_run made ledTo) (accepted.mp rfl).2
      refine ⟨accepted, fun _ picture spells => ?_, fun _ unspelled => ?_, nofun, requested⟩
      · rw [scene, (spelled picture).mpr spells, Option.getD_some]
      · have shut : unlocked (remember direction before.swipes) = none := by
          apply Option.eq_none_iff_forall_ne_some.mpr
          intro picture opened
          exact unspelled picture ((spelled picture).mp opened)
        rw [scene, shut, Option.getD_none]

/-- A picture is shown by its code. -/
theorem shownByCode_of_run (made : Dial.new clock settings source = .ok first)
    (run : Dial.Run first history dial) (offTime : dial.scene ≠ .watchFace)
    (drawn : dial.scene ≠ .blank) : ShownByCode history dial.scene := by
  induction run with
  | new =>
    obtain ⟨budget, rfl⟩ := Dial.new_eq made
    exact absurd rfl offTime
  | @call history dial next call before answers inductionHypothesis =>
    -- Unless it is the swipe that leads to the picture, the call leaves the one shown before.
    have kept (same : next.scene = dial.scene) :
        ShownByCode (⟨dial, call, next⟩ :: history) next.scene := by
      rw [same] at offTime drawn ⊢
      exact (inductionHypothesis offTime drawn).keep rfl same
    cases answers with
    | refresh answered => exact kept ((account_of_run made before).refreshes answered).leaves.2
    | @touch event used next answered =>
      rcases (Dial.touches_of_touch answered).way_to_picture offTime drawn with
        same | ⟨direction, rfl, rfl, opened⟩
      · exact kept same
      · obtain ⟨-, leftTime⟩ := (Dial.touch_swipe_used answered).mp rfl
        have spells := (unlocked_iff_spells next direction next.scene
          (swipes_of_run made before) leftTime).mp opened
        exact ⟨[], _, history, rfl, rfl, spells, rfl, fun _ member => absurd member List.not_mem_nil⟩
    | button =>
      rcases dial.button_result with ⟨-, pressed⟩ | ⟨-, pressed⟩
      · rw [pressed] at offTime
        exact absurd rfl offTime
      · exact kept (by rw [pressed])
  | wait _ _ inductionHypothesis => exact inductionHypothesis offTime drawn

/-- In every run, a swipe is accepted exactly off the time and between two cycles. An accepted
    swipe leads to the picture whose code are the last eight swipes accepted since the time
    last gave way to the blank scene, if there is one, and leaves the scene as it is
    otherwise; it asks for a new maze exactly if the scene changes. Other swipes do nothing
    and count towards no code. A dial never shows a picture but by its code. -/
theorem pictures_follow_swipe_codes (made : Dial.new clock settings source = .ok first)
    (run : Dial.Run first history dial) :
    (∀ newer deed earlier direction used, history = newer ++ deed :: earlier →
      deed.call = .touch (.swipe direction) used → HeedsSwipe earlier deed used) ∧
    (dial.scene = .watchFace ∨ dial.scene = .blank ∨ ShownByCode history dial.scene) := by
  constructor
  · rintro newer deed earlier direction used rfl swiped
    exact heedsSwipe_of_run made run swiped
  · by_cases onTime : dial.scene = .watchFace
    · exact .inl onTime
    · by_cases undrawn : dial.scene = .blank
      · exact .inr (.inl undrawn)
      · exact .inr (.inr (shownByCode_of_run made run onTime undrawn))

/-- Over a clock that stands still, any swipes are accepted after two long taps. -/
theorem exists_run_entered (budget : Duration) (directions : List Swipe) :
    ∃ history dial, Dial.Run (untapped budget) history dial ∧ entered history = directions ∧
      dial.isGenerating = false ∧ dial.scene ≠ .watchFace ∧ dial.clock = ⟨.zero, .zero⟩ := by
  induction directions with
  | nil => exact ⟨_, _, run_twoTaps budget, rfl, rfl, nofun, rfl⟩
  | cons direction directions inductionHypothesis =>
    obtain ⟨history, dial, run, rfl, idle, offTime, still⟩ := inductionHypothesis
    have reading : Clock.now dial.clock = .ok (.zero, dial.clock) :=
      still ▸ ManualClock.now_still .zero
    obtain ⟨next, answered, after, elsewhere, clock⟩ :=
      Dial.exists_swipe idle reading offTime direction
    refine ⟨_, next, run.call (.touch answered), ?_, after, elsewhere, clock.trans still⟩
    exact entered_of_swiped (fun blanks => offTime blanks.1) rfl

/-- After a swipe that belongs to no code, the code of the rocket leads to it. -/
theorem pictures_follow_swipe_codes_rocket :
    ∃ first dial : Dial ManualClock KeyStream, ∃ history,
      Dial.new ⟨.zero, .zero⟩ {} (KeyStream.ofSeed 0) = .ok first ∧
      Dial.Run first history dial ∧
      entered history = [.down, .down, .down, .down, .up, .up, .up, .up, .left] ∧
      dial.scene = .rocket := by
  obtain ⟨budget, deadline, made, -⟩ := Dial.exists_still .zero {} (KeyStream.ofSeed 0)
    15000000 (by decide +kernel) (by decide)
  obtain ⟨history, dial, run, told, idle, offTime, still⟩ :=
    exists_run_entered budget [.down, .down, .down, .up, .up, .up, .up, .left]
  have reading : Clock.now dial.clock = .ok (.zero, dial.clock) :=
    still ▸ ManualClock.now_still .zero
  obtain ⟨next, answered, -⟩ := Dial.exists_swipe idle reading offTime .down
  have entire : entered (⟨dial, .touch (.swipe .down) true, next⟩ :: history) =
      [.down, .down, .down, .down, .up, .up, .up, .up, .left] := by
    rw [entered_of_swiped (fun blanks => offTime blanks.1) rfl, told]
  have spells : Spells (⟨dial, .touch (.swipe .down) true, next⟩ :: history) .rocket := by
    rw [Spells, entire]
    decide
  have whole := run.call (.touch answered)
  obtain ⟨heeded, -⟩ := pictures_follow_swipe_codes made whole
  have shown := (heeded [] _ history .down true rfl rfl).completed rfl .rocket spells
  exact ⟨_, next, _, made, whole, entire, shown⟩

end History

end MazeDial
