import MazeDial.Fault
import MazeDial.Random.Bounded
import MazeDial.Random.KeyStream

/-!
# Random sources

What the rest of the library asks of a source of random numbers: it can be
started from a seed, and it yields bytes and indices between inclusive bounds.
Carving, repair and placement are written against this interface, so whatever
holds of them for every source holds for every sequence of draws. The checked
draws refuse bounds that leave no choice; they are the only ones used elsewhere.
-/

namespace MazeDial

/-- A source of numbers between inclusive bounds. -/
class RandomSource (σ : Type) where
  /-- The source that a seed starts. -/
  seeded : UInt64 → σ
  /-- A byte between two bounds. -/
  byte : UInt8 → UInt8 → σ → UInt8 × σ
  /-- A number below 2 to the 64 between two bounds. -/
  index : Nat → Nat → σ → Nat × σ

/-- A key stream draws by its own words. -/
instance : RandomSource KeyStream where
  seeded := KeyStream.ofSeed
  byte := chooseByte KeyStream.next
  index := chooseIndex KeyStream.next

variable {σ : Type} [RandomSource σ]

/-- A byte from `least` to `greatest`, or the fault that there is none. -/
@[inline] def drawByte (least greatest : UInt8) (source : σ) : Except Fault (UInt8 × σ) :=
  if greatest < least then .error .emptyRange
  else .ok (RandomSource.byte least greatest source)

/-- A number from `least` to `greatest`, or the fault that there is none. -/
@[inline] def drawIndex (least greatest : Nat) (source : σ) : Except Fault (Nat × σ) :=
  if greatest < least then .error .emptyRange
  else .ok (RandomSource.index least greatest source)

end MazeDial
