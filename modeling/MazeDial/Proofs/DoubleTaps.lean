import MazeDial.Proofs.Histories
import MazeDial.Proofs.Scripts

/-!
# Double taps

A dial remembers when the last long tap on the time was, and forgets it when a long tap
leads back to the time. So a long tap that switches to the blank scene follows another
one on the time by less than the window, and no long tap has led back in between.

The button leads back too, but leaves what is remembered as it is. After it one long tap
can be enough: the one before it, which led to the blank scene, still counts.
-/

namespace MazeDial

variable {σ κ : Type}

namespace Deed

/-- Whether a call was a long tap that was accepted. -/
def isLongTap (deed : Deed κ σ) : Bool :=
  match deed.call with
  | .touch .longTap used => used
  | .touch .tap _ => false
  | .touch (.swipe _) _ => false
  | .refresh _ => false
  | .button _ => false

/-- A call has led back to the time from another scene. -/
def Returns (deed : Deed κ σ) : Prop :=
  deed.before.scene ≠ .watchFace ∧ deed.after.scene = .watchFace

variable [Clock κ]

/-- The time at which a long tap was accepted. -/
def tappedAt (deed : Deed κ σ) : Option Duration :=
  if deed.isLongTap then (Clock.now deed.before.clock).toOption.map Prod.fst else none

/-- What an accepted long tap leaves to be remembered: its time if it was on the time, and
    nothing elsewhere. -/
def remembered (deed : Deed κ σ) : Option (Option Duration) :=
  if deed.isLongTap then
    some (if deed.before.scene = .watchFace then deed.tappedAt else none)
  else none

/-- Only a long tap leaves something to be remembered. -/
theorem remembered_eq_none_iff {deed : Deed κ σ} :
    deed.remembered = none ↔ deed.isLongTap = false := by
  unfold remembered
  split
  · next tapped => simp [tapped]
  · next untapped => simp [untapped]

/-- A time that is remembered is that of a long tap on the time. -/
theorem remembered_eq_some {deed : Deed κ σ} {last : Duration}
    (told : deed.remembered = some (some last)) :
    deed.before.scene = .watchFace ∧ deed.tappedAt = some last := by
  unfold remembered at told
  split at told
  · have told := Option.some.inj told
    split at told
    · next onTime => exact ⟨onTime, told⟩
    · cases told
  · cases told

section LongTap

variable {dial next : Dial κ σ} {now : Duration} {clock : κ}

theorem tappedAt_longTap (reading : Clock.now dial.clock = .ok (now, clock)) :
    (⟨dial, .touch .longTap true, next⟩ : Deed κ σ).tappedAt = some now := by
  refine (if_pos rfl).trans ?_
  simp only [reading]
  rfl

theorem remembered_longTap (reading : Clock.now dial.clock = .ok (now, clock))
    (onTime : dial.scene = .watchFace) :
    (⟨dial, .touch .longTap true, next⟩ : Deed κ σ).remembered = some (some now) := by
  refine (if_pos rfl).trans ?_
  rw [if_pos onTime, tappedAt_longTap reading]

end LongTap

/-- A long tap on the time follows another one on the time by less than a window. -/
def FollowsWithin (window : Duration) (deed partner : Deed κ σ) : Prop :=
  ∃ last now, partner.tappedAt = some last ∧ deed.tappedAt = some now ∧
    partner.before.scene = .watchFace ∧ deed.before.scene = .watchFace ∧
    last.nanos ≤ now.nanos ∧ now.nanos < last.nanos + window.nanos

end Deed

namespace Dial

/-- No code is that of the time. -/
theorem ne_watchFace_of_unlocked {recent : List Swipe} {picture : Scene}
    (opened : unlocked recent = some picture) : picture ≠ .watchFace := by
  obtain ⟨entry, found, rfl⟩ := Option.map_eq_some_iff.mp opened
  have pictures : ∀ entry ∈ pictureCodes, entry.1 ≠ .watchFace := by decide
  exact pictures entry (List.mem_of_find?_eq_some found)

/-- A double tap comes less than the window after the tap that is remembered. -/
theorem isDoubleTap_eq_true {dial : Dial κ σ} {now : Duration}
    (double : dial.isDoubleTap now = .ok true) :
    ∃ last, dial.lastLongTap = some last ∧
      now.nanos < last.nanos + dial.settings.doubleTapWindow.nanos := by
  unfold isDoubleTap at double
  cases told : dial.lastLongTap with
  | none =>
    rw [told] at double
    cases double
  | some last =>
    simp only [told, Duration.add, Duration.ofNanos] at double
    split at double
    · exact ⟨last, rfl, of_decide_eq_true (Except.ok.inj double)⟩
    · cases double

variable [Clock κ] {dial next : Dial κ σ}

/-- A touch leaves to be remembered what the history will tell. -/
theorem Touches.lastLongTap_eq {event : Touch} {used : Bool}
    (touches : dial.Touches event used next) :
    next.lastLongTap =
      (⟨dial, .touch event used, next⟩ : Deed κ σ).remembered.getD dial.lastLongTap := by
  cases touches with
  | ignored => cases event <;> rfl
  | unused _ _ notLong =>
    cases event with
    | longTap => exact absurd rfl notLong
    | tap => rfl
    | swipe => rfl
  | asked _ reading onTime => rw [Deed.remembered_longTap reading onTime, Option.getD_some]
  | doubled _ reading onTime => rw [Deed.remembered_longTap reading onTime, Option.getD_some]
  | returned _ _ offTime => simp [Deed.remembered, Deed.isLongTap, offTime]
  | remembered => rfl
  | unlocked => rfl

/-- Only a long tap leads back to the time. -/
theorem Touches.isLongTap_of_returns {event : Touch} {used : Bool}
    (touches : dial.Touches event used next)
    (returns : (⟨dial, .touch event used, next⟩ : Deed κ σ).Returns) :
    (⟨dial, .touch event used, next⟩ : Deed κ σ).isLongTap = true := by
  obtain ⟨offTime, onTime⟩ := returns
  cases touches with
  | returned => rfl
  | unlocked _ _ _ opened =>
    have picture := (Option.filter_eq_some_iff.mp opened).1
    exact absurd onTime (ne_watchFace_of_unlocked picture)
  | ignored => exact absurd onTime offTime
  | unused => exact absurd onTime offTime
  | asked => exact absurd onTime offTime
  | doubled => exact absurd onTime nofun
  | remembered => exact absurd onTime offTime

/-- Only a double tap leads from the time to the blank scene. -/
theorem Touches.isDoubleTap_of_switches {event : Touch} {used : Bool}
    (touches : dial.Touches event used next) (onTime : dial.scene = .watchFace)
    (switched : next.scene = .blank) :
    event = .longTap ∧ used = true ∧ ∃ now clock, Clock.now dial.clock = .ok (now, clock) ∧
      dial.isDoubleTap now = .ok true := by
  have unswitched (same : dial.scene = .blank) : False := nomatch onTime.symm.trans same
  cases touches with
  | doubled _ reading _ double => exact ⟨rfl, rfl, _, _, reading, double⟩
  | ignored => exact (unswitched switched).elim
  | unused => exact (unswitched switched).elim
  | asked => exact (unswitched switched).elim
  | returned => cases switched
  | remembered _ _ offTime => exact absurd onTime offTime
  | unlocked _ _ offTime => exact absurd onTime offTime

variable [RandomSource σ]

/-- Refreshes leave alone what is remembered of taps, and the scene. -/
theorem Refreshes.leaves {maze : Option Maze} (refreshes : dial.Refreshes maze next) :
    next.lastLongTap = dial.lastLongTap ∧ next.scene = dial.scene := by
  cases refreshes <;> exact ⟨rfl, rfl⟩

end Dial

namespace History

variable [RandomSource σ] [Clock κ] {clock : κ} {settings : Settings} {source : σ}
  {first dial : Dial κ σ} {history newer earlier : List (Deed κ σ)} {deed : Deed κ σ}

/-- What a dial remembers of taps is what the last long tap of its history has left. -/
theorem lastLongTap_of_run (made : Dial.new clock settings source = .ok first)
    (run : Dial.Run first history dial) :
    dial.lastLongTap = (history.findSome? Deed.remembered).join := by
  induction run with
  | new =>
    obtain ⟨budget, rfl⟩ := Dial.new_eq made
    rfl
  | @call history dial next call before answers inductionHypothesis =>
    have told : next.lastLongTap =
        (⟨dial, call, next⟩ : Deed κ σ).remembered.getD dial.lastLongTap := by
      cases answers with
      | refresh answered => exact ((account_of_run made before).refreshes answered).leaves.1
      | touch answered => exact (Dial.touches_of_touch answered).lastLongTap_eq
      | button =>
        rcases dial.button_result with ⟨-, pressed⟩ | ⟨-, pressed⟩
        · rw [pressed]
          rfl
        · rw [pressed]
          rfl
    rw [told, inductionHypothesis, List.findSome?_cons]
    cases (⟨dial, call, next⟩ : Deed κ σ).remembered <;> rfl
  | wait _ _ inductionHypothesis => exact inductionHypothesis

/-- Only long taps and the button lead back to the time. -/
theorem way_back_of_run (made : Dial.new clock settings source = .ok first)
    (run : Dial.Run first (newer ++ deed :: earlier) dial) (returns : deed.Returns) :
    deed.isLongTap = true ∨ deed.call = .button true := by
  obtain ⟨before, call, after⟩ := deed
  obtain ⟨ledTo, answers⟩ : Dial.Run first earlier before ∧ before.Answers call after := run.answers
  cases answers with
  | refresh answered =>
    have same := ((account_of_run made ledTo).refreshes answered).leaves.2
    exact absurd (same.symm.trans returns.2) returns.1
  | touch answered => exact .inl ((Dial.touches_of_touch answered).isLongTap_of_returns returns)
  | button =>
    rcases before.button_result with ⟨-, pressed⟩ | ⟨onTime, -⟩
    · exact .inr (congrArg (Call.button ∘ Prod.fst) pressed)
    · exact absurd onTime returns.1

/-- In every run in which long taps come in the order of time, a touch that switches from
    the time to the blank scene is a long tap that follows another one on the time by less
    than the window; and whatever led back to the time in between was the button. -/
theorem blank_follows_long_tap {event : Touch} {used : Bool}
    (made : Dial.new clock settings source = .ok first)
    (run : Dial.Run first (newer ++ deed :: earlier) dial)
    (ordered : ((deed :: earlier).filterMap Deed.tappedAt).Pairwise
      fun later sooner => sooner.nanos ≤ later.nanos)
    (touched : deed.call = .touch event used) (onTime : deed.before.scene = .watchFace)
    (switched : deed.after.scene = .blank) :
    ∃ between partner older, earlier = between ++ partner :: older ∧
      deed.FollowsWithin settings.doubleTapWindow partner ∧
      ∀ back ∈ between, back.Returns → back.call = .button true := by
  obtain ⟨before, call, after⟩ := deed
  obtain rfl : call = .touch event used := touched
  obtain ⟨ledTo, answers⟩ :
      Dial.Run first earlier before ∧ before.Answers (.touch event used) after := run.answers
  cases answers with
  | touch answered =>
    obtain ⟨rfl, rfl, now, read, reading, double⟩ :=
      (Dial.touches_of_touch answered).isDoubleTap_of_switches onTime switched
    obtain ⟨last, memory, soon⟩ := Dial.isDoubleTap_eq_true double
    rw [settings_of_run made ledTo] at soon
    rw [lastLongTap_of_run made ledTo, Option.join_eq_some_iff] at memory
    obtain ⟨between, partner, older, split, told, untold⟩ := List.findSome?_eq_some_iff.mp memory
    obtain ⟨partnerOnTime, partnerTapped⟩ := Deed.remembered_eq_some told
    have tapped : (⟨before, .touch .longTap true, after⟩ : Deed κ σ).tappedAt = some now :=
      Deed.tappedAt_longTap reading
    have forward : last.nanos ≤ now.nanos := by
      rw [List.filterMap_cons_some tapped] at ordered
      apply (List.pairwise_cons.mp ordered).1 last
      have member : partner ∈ earlier := split ▸ List.mem_append_right _ List.mem_cons_self
      exact List.mem_filterMap.mpr ⟨partner, member, partnerTapped⟩
    refine ⟨between, partner, older, split,
      ⟨last, now, partnerTapped, tapped, partnerOnTime, onTime, forward, soon⟩, ?_⟩
    intro back member returns
    obtain ⟨later, rest, rfl⟩ := List.append_of_mem member
    rw [split, List.append_assoc] at ledTo
    apply (way_back_of_run made ledTo returns).resolve_left
    rw [Deed.remembered_eq_none_iff.mp (untold back member)]
    exact Bool.false_ne_true

/-- A new dial at the start of 1970. -/
def untapped (budget : Duration) : Dial ManualClock KeyStream :=
  .still .zero {} (KeyStream.ofSeed 0) budget

/-- The dial after a long tap. -/
def tappedOnce (budget : Duration) : Dial ManualClock KeyStream :=
  { untapped budget with requested := true, lastLongTap := some .zero }

/-- The dial after another one at the same time. -/
def tappedTwice (budget : Duration) : Dial ManualClock KeyStream :=
  { tappedOnce budget with scene := .blank }

/-- The two taps. -/
def twoTaps (budget : Duration) : List (Deed ManualClock KeyStream) :=
  [⟨tappedOnce budget, .touch .longTap true, tappedTwice budget⟩,
    ⟨untapped budget, .touch .longTap true, tappedOnce budget⟩]

theorem run_twoTaps (budget : Duration) :
    Dial.Run (untapped budget) (twoTaps budget) (tappedTwice budget) := by
  have tapping : ((untapped budget).touch .longTap).result = .ok (true, tappedOnce budget) := rfl
  have doubling : ((tappedOnce budget).touch .longTap).result = .ok (true, tappedTwice budget) :=
    rfl
  exact (Dial.Run.new.call (.touch tapping)).call (.touch doubling)

/-- The two taps lead to the blank scene. -/
theorem blank_follows_long_tap_twice :
    ∃ first dial : Dial ManualClock KeyStream, ∃ second tap,
      Dial.new ⟨.zero, .zero⟩ {} (KeyStream.ofSeed 0) = .ok first ∧
      Dial.Run first [second, tap] dial ∧ second.before.scene = .watchFace ∧
      dial.scene = .blank ∧ second.FollowsWithin (.ofMillis 2500) tap := by
  obtain ⟨budget, deadline, made, -⟩ := Dial.exists_still .zero {} (KeyStream.ofSeed 0)
    15000000 (by decide +kernel) (by decide)
  have tappedAt : (twoTaps budget).filterMap Deed.tappedAt = [.zero, .zero] := rfl
  have ordered : ((twoTaps budget).filterMap Deed.tappedAt).Pairwise
      fun later sooner => sooner.nanos ≤ later.nanos := by
    rw [tappedAt]
    decide
  have run : Dial.Run (untapped budget) ([] ++ twoTaps budget) (tappedTwice budget) :=
    run_twoTaps budget
  obtain ⟨between, partner, older, split, follows, -⟩ :=
    blank_follows_long_tap made run ordered rfl rfl rfl
  cases between with
  | nil =>
    obtain ⟨rfl, -⟩ := List.cons.inj split
    exact ⟨_, _, _, _, made, run_twoTaps budget, rfl, rfl, follows⟩
  | cons other rest => simp at split

/-- One long tap can be enough: two have led to the blank scene, the button leads back, and
    a third one leads to the blank scene again. No other long tap lies between the return
    and it. -/
theorem one_tap_leads_to_blank :
    ∃ first dial : Dial ManualClock KeyStream, ∃ third earlier,
      Dial.new ⟨.zero, .zero⟩ {} (KeyStream.ofSeed 0) = .ok first ∧
      Dial.Run first (third :: earlier) dial ∧
      ((third :: earlier).filterMap Deed.tappedAt).Pairwise
        (fun later sooner => sooner.nanos ≤ later.nanos) ∧
      third.call = .touch .longTap true ∧ third.before.scene = .watchFace ∧
      third.after.scene = .blank ∧
      ¬ ∃ between partner older, earlier = between ++ partner :: older ∧
        third.FollowsWithin (.ofMillis 2500) partner ∧ ∀ back ∈ between, ¬ back.Returns := by
  obtain ⟨budget, deadline, made, -⟩ := Dial.exists_still .zero {} (KeyStream.ofSeed 0)
    15000000 (by decide +kernel) (by decide)
  let returned := { tappedTwice budget with scene := .watchFace }
  let pressed : Deed ManualClock KeyStream := ⟨tappedTwice budget, .button true, returned⟩
  let third : Deed ManualClock KeyStream := ⟨returned, .touch .longTap true, tappedTwice budget⟩
  have enough : (returned.touch .longTap).result = .ok (true, tappedTwice budget) := rfl
  have run : Dial.Run (untapped budget) (third :: pressed :: twoTaps budget) (tappedTwice budget) :=
    ((run_twoTaps budget).call .button).call (.touch enough)
  have tappedAt : (third :: pressed :: twoTaps budget).filterMap Deed.tappedAt =
      [.zero, .zero, .zero] := rfl
  refine ⟨_, _, third, pressed :: twoTaps budget, made, run, ?_, rfl, rfl, rfl, ?_⟩
  · rw [tappedAt]
    decide
  · rintro ⟨between, partner, older, split, ⟨last, now, told, -⟩, unreturned⟩
    cases between with
    | nil =>
      -- The call before the third tap is the button, which is no long tap.
      obtain ⟨rfl, -⟩ := List.cons.inj split
      cases told
    | cons latest rest =>
      obtain ⟨rfl, -⟩ := List.cons.inj split
      exact unreturned pressed List.mem_cons_self ⟨nofun, rfl⟩

end History

end MazeDial
