import MazeDial.Proofs.Refusals
import Mathlib.Data.Nat.ModEq

/-!
# The time of day on the dial

The plan of the time, as digits and a sign, against the arithmetic of the local minute: the
minutes of the hour below, and above them the hour, counted to twenty-four, or from one to
twelve with the sign of the half of the day.

Digits and signs have patterns that differ. So a plan tells the numbers it was made of, these
tell the minute of the day, and nothing else about the local minute enters the plan: two
minutes have one plan exactly if they are whole days apart.
-/

namespace MazeDial

/-- The pattern of a digit. -/
def Pattern.ofDigit (digit : Fin 10) : Pattern :=
  digits.get digit

/-- No two digits look alike. -/
theorem Pattern.ofDigit_injective : Function.Injective ofDigit := by
  intro first second same
  revert first second
  decide

/-- A number below a hundred has two digits, whose patterns are looked up. -/
theorem Pattern.exists_digits {number : Nat} (small : number < 100) :
    ∃ tens units : Fin 10, 10 * tens.val + units.val = number ∧
      digit (number / 10) = .ok (ofDigit tens) ∧ digit (number % 10) = .ok (ofDigit units) := by
  have lookUp (value : Fin 10) : digit value.val = .ok (ofDigit value) := by
    revert value
    decide
  have tensSmall : number / 10 < 10 := by omega
  have unitsSmall : number % 10 < 10 := Nat.mod_lt _ (by decide)
  exact ⟨⟨_, tensSmall⟩, ⟨_, unitsSmall⟩, Nat.div_add_mod number 10, lookUp ⟨_, tensSmall⟩,
    lookUp ⟨_, unitsSmall⟩⟩

/-- Two digits above two others. -/
def fourDigits (hourTens hourUnits minuteTens minuteUnits : Fin 10) : List Placement :=
  [.fixed ⟨3, 1⟩ (Pattern.ofDigit hourTens), .fixed ⟨10, 1⟩ (Pattern.ofDigit hourUnits),
    .fixed ⟨3, 13⟩ (Pattern.ofDigit minuteTens), .fixed ⟨10, 13⟩ (Pattern.ofDigit minuteUnits)]

/-- They are told by their placements. -/
theorem fourDigits_injective {a b c d a' b' c' d' : Fin 10}
    (same : fourDigits a b c d = fourDigits a' b' c' d') : a = a' ∧ b = b' ∧ c = c' ∧ d = d' := by
  simpa [fourDigits, Pattern.ofDigit_injective.eq_iff] using same

/-- The time is planned as the digits of the hour shown and of the minute, after the sign of
    the half of the day. -/
theorem timePlan_digits (clockType : ClockType) (minute : Nat) :
    ∃ hourTens hourUnits minuteTens minuteUnits : Fin 10,
      timePlan clockType minute = .ok (halfDaySign clockType (hourOf minute) ++
        fourDigits hourTens hourUnits minuteTens minuteUnits) ∧
      10 * hourTens.val + hourUnits.val = shownHour clockType minute ∧
      10 * minuteTens.val + minuteUnits.val = minute % 60 := by
  have hour := shownHour_lt clockType minute
  obtain ⟨a, b, hourShown, first, second⟩ :=
    Pattern.exists_digits (show shownHour clockType minute < 100 by omega)
  obtain ⟨c, d, minuteShown, third, fourth⟩ :=
    Pattern.exists_digits (show minute % 60 < 100 by omega)
  refine ⟨a, b, c, d, ?_, hourShown, minuteShown⟩
  simp only [timePlan_eq, digitPlaces, List.mapM_cons, List.mapM_nil, digitAt, first, second,
    third, fourth]
  rfl

/-- An hour on a twelve-hour clock is from one to twelve, and the same up to twelve hours. -/
theorem twelveHour_spec (hour : Nat) :
    1 ≤ twelveHour hour ∧ twelveHour hour ≤ 12 ∧ twelveHour hour % 12 = hour % 12 := by
  by_cases noon : hour % 12 = 0
  · rw [twelveHour, if_pos noon, noon]
    decide
  · rw [twelveHour, if_neg noon]
    omega

/-- Before noon and from noon on the signs differ. -/
theorem halfDaySign_eq_iff {first second : Nat} :
    halfDaySign .h12 first = halfDaySign .h12 second ↔ (12 ≤ first ↔ 12 ≤ second) := by
  have apart : Pattern.pm ≠ Pattern.am := by decide
  by_cases late : 12 ≤ first <;> by_cases otherLate : 12 ≤ second <;>
    simp [halfDaySign, late, otherLate, apart, apart.symm]

/-- The hour of the day is told by the hour shown and the sign. -/
theorem hourOf_eq {clockType : ClockType} {minute other : Nat}
    (sameSign : halfDaySign clockType (hourOf minute) = halfDaySign clockType (hourOf other))
    (sameHour : shownHour clockType minute = shownHour clockType other) :
    hourOf minute = hourOf other := by
  cases clockType with
  | h24 => exact sameHour
  | h12 =>
    have early : hourOf minute < 24 := Nat.mod_lt _ (by decide)
    have otherEarly : hourOf other < 24 := Nat.mod_lt _ (by decide)
    have sameHalf := halfDaySign_eq_iff.mp sameSign
    have shown := (twelveHour_spec (hourOf minute)).2.2
    have otherShown := (twelveHour_spec (hourOf other)).2.2
    have sameHour : twelveHour (hourOf minute) = twelveHour (hourOf other) := sameHour
    omega

/-- Minutes have one plan exactly if they are whole days apart. -/
theorem timePlan_eq_iff {clockType : ClockType} {minute other : Nat} :
    timePlan clockType minute = timePlan clockType other ↔ minute % 1440 = other % 1440 := by
  constructor
  · intro same
    obtain ⟨a, b, c, d, planned, hour, ofHour⟩ := timePlan_digits clockType minute
    obtain ⟨a', b', c', d', otherPlanned, otherHour, otherOfHour⟩ :=
      timePlan_digits clockType other
    have equal := Except.ok.inj (planned.symm.trans (same.trans otherPlanned))
    obtain ⟨sameSign, sameDigits⟩ := List.append_inj' equal rfl
    obtain ⟨rfl, rfl, rfl, rfl⟩ := fourDigits_injective sameDigits
    have hours : minute / 60 % 24 = other / 60 % 24 :=
      hourOf_eq sameSign (hour.symm.trans otherHour)
    omega
  · intro same
    have hours : hourOf minute = hourOf other := by
      unfold hourOf
      omega
    have minutes : minute % 60 = other % 60 := by omega
    simp only [timePlan, hours, minutes]

/-- A plan shows the time of day at a local minute: the digits of the hour at (3, 1) and
    (10, 1), those of the minute at (3, 13) and (10, 13), and no sign; or on a twelve-hour
    clock the hour from one to twelve, and one sign. -/
def ShowsTime (clockType : ClockType) (minute : Nat) (plan : List Placement) : Prop :=
  ∃ (signs : List Placement) (a b c d : Fin 10), plan = signs ++ fourDigits a b c d ∧
    10 * c.val + d.val = minute % 60 ∧
    match clockType with
    | .h24 => signs = [] ∧ 10 * a.val + b.val = minute / 60 % 24
    | .h12 =>
      signs = [.fixed ⟨18, 15⟩ (if 12 ≤ minute / 60 % 24 then Pattern.pm else Pattern.am)] ∧
        1 ≤ 10 * a.val + b.val ∧ 10 * a.val + b.val ≤ 12 ∧
        10 * a.val + b.val ≡ minute / 60 [MOD 12]

/-- The time is planned so that it is shown. -/
theorem exists_showsTime (clockType : ClockType) (minute : Nat) :
    ∃ plan, timePlan clockType minute = .ok plan ∧ ShowsTime clockType minute plan := by
  obtain ⟨a, b, c, d, planned, hour, ofHour⟩ := timePlan_digits clockType minute
  refine ⟨_, planned, halfDaySign clockType (hourOf minute), a, b, c, d, rfl, ofHour, ?_⟩
  rw [hour]
  cases clockType with
  | h24 => exact ⟨rfl, rfl⟩
  | h12 =>
    obtain ⟨least, greatest, same⟩ := twelveHour_spec (hourOf minute)
    exact ⟨rfl, least, greatest, same.trans (Nat.mod_mod_of_dvd _ (by decide))⟩

/-- At every reading of the clock and every offset, nothing overflows on the way to the local
    minute, which is the sum of the minutes of the reading and the offset, or zero before the
    start of 1970. The plan of the time shows this minute, and two readings have one plan
    exactly if their minutes are whole days apart. -/
theorem plan_shows_local_minute (clockType : ClockType) (reading : Duration) (utcOffset : Int32) :
    (reading.seconds / 60 < 2 ^ 63 ∧
      -2 ^ 63 ≤ ((reading.seconds / 60 : Nat) : Int) + utcOffset.toInt ∧
      ((reading.seconds / 60 : Nat) : Int) + utcOffset.toInt < 2 ^ 63) ∧
    (localMinute reading utcOffset : Int) =
      max 0 (((reading.seconds / 60 : Nat) : Int) + utcOffset.toInt) ∧
    (∃ plan, Scene.watchFace.plan clockType (localMinute reading utcOffset) = .ok plan ∧
      ShowsTime clockType (localMinute reading utcOffset) plan) ∧
    ∀ (otherReading : Duration) (otherOffset : Int32),
      Scene.watchFace.plan clockType (localMinute reading utcOffset) =
          Scene.watchFace.plan clockType (localMinute otherReading otherOffset) ↔
        localMinute reading utcOffset % 1440 = localMinute otherReading otherOffset % 1440 := by
  obtain ⟨minutes, least, greatest, -⟩ := localMinute_bounds reading utcOffset
  refine ⟨⟨minutes, least, greatest⟩, ?_, exists_showsTime clockType _,
    fun _ _ => timePlan_eq_iff⟩
  rw [localMinute, Int.toNat_eq_max, max_comm]

end MazeDial
