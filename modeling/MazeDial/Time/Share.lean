import MazeDial.Time.Duration

/-!
# Shares of durations

A share of a duration is taken in seconds as a double: the whole seconds plus
the rest divided by a billion, times the share. The product is then an exact
binary fraction, and is turned into nanoseconds exactly and rounded once, to the
nearest whole number and from halfway to the even one. A product below zero is
refused, as is one of 2 to the 64 seconds or more and one that is no number;
zero is accepted with either sign.
-/

namespace MazeDial

/-- The whole number nearest to a fraction; from halfway, the even one. -/
def roundHalfEven (numerator denominator : Nat) : Nat :=
  let quotient := numerator / denominator
  let twice := 2 * (numerator % denominator)
  if twice < denominator then quotient
  else if denominator < twice then quotient + 1
  else quotient + quotient % 2

namespace Duration

/-- The nanoseconds nearest to `significand` times 2 to the `exponent` - 1075
    seconds. -/
def nanosOfBinary (significand exponent : Nat) : Nat :=
  roundHalfEven (significand * nanosPerSecond * (1 <<< (exponent - 1075)))
    (1 <<< (1075 - exponent))

/-- The duration nearest to the number of seconds with the 64 bits of a double:
    a sign, eleven bits of exponent and 52 of fraction. -/
def ofSecondBits (bits : Nat) : Except Fault Duration :=
  let negative := bits.testBit 63
  let exponent := (bits >>> 52) % (1 <<< 11)
  let fraction := bits % (1 <<< 52)
  let significand := if exponent = 0 then fraction else fraction + (1 <<< 52)
  if exponent = 2047 then
    if negative && fraction == 0 then .error .negativeTime else .error .timeTooLong
  else if negative && significand != 0 then .error .negativeTime
  else
    -- Exponents from 1087 on are those of 2 to the 64 and more.
    if exponent < 1087 then
      (ofNanos (nanosOfBinary significand (max exponent 1))).mapError fun _ => .timeTooLong
    else .error .timeTooLong

/-- The duration nearest to a number of seconds. -/
def ofSeconds (seconds : Float) : Except Fault Duration :=
  ofSecondBits seconds.toBits.toNat

/-- A duration in seconds, as nearly as a double can say. -/
def toSeconds (duration : Duration) : Float :=
  duration.seconds.toUInt64.toFloat + duration.subsecond.toUInt64.toFloat / 1000000000.0

/-- A share of a duration. -/
def share (duration : Duration) (fraction : Float) : Except Fault Duration :=
  ofSeconds (fraction * duration.toSeconds)

end Duration

end MazeDial
