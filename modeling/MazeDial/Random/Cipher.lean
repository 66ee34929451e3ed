/-!
# The ChaCha block function

Sixteen words, seen as four rows of four, are mixed by rounds that treat the
four columns alike, so a round is written once for whole rows. Turning the lower
three rows by one, two and three places lines the diagonals up as columns, which
makes the second half of a double round the first half again. A block is the
mixed square added to the square it started from. The number of double rounds is
six, for twelve rounds in all.
-/

namespace MazeDial

/-- Four words side by side. -/
structure Row where
  first : UInt32
  second : UInt32
  third : UInt32
  fourth : UInt32
  deriving DecidableEq, Repr

namespace Row

/-- The word operation in every column. -/
@[inline] def zipWith (combine : UInt32 → UInt32 → UInt32) (above below : Row) : Row :=
  ⟨combine above.first below.first, combine above.second below.second,
    combine above.third below.third, combine above.fourth below.fourth⟩

@[inline] def add (above below : Row) : Row :=
  zipWith (· + ·) above below

/-- The exclusive or of two rows, each word then turned left by `bits`. -/
@[inline] def mix (bits : UInt32) (above below : Row) : Row :=
  zipWith (fun high low =>
    let word := high ^^^ low
    (word <<< bits) ||| (word >>> (32 - bits))) above below

/-- The row with every word moved one place to the left, the first one to the
    end. -/
@[inline] def turn (row : Row) : Row :=
  ⟨row.second, row.third, row.fourth, row.first⟩

def toList (row : Row) : List UInt32 :=
  [row.first, row.second, row.third, row.fourth]

end Row

/-- Sixteen words in four rows. -/
structure Square where
  a : Row
  b : Row
  c : Row
  d : Row
  deriving DecidableEq, Repr

namespace Square

/-- Half a round: the four columns are mixed, each by the quarter round. -/
def mixColumns (square : Square) : Square :=
  let a := square.a.add square.b
  let d := square.d.mix 16 a
  let c := square.c.add d
  let b := square.b.mix 12 c
  let a := a.add b
  let d := d.mix 8 a
  let c := c.add d
  let b := b.mix 7 c
  ⟨a, b, c, d⟩

/-- A round over the columns and a round over the diagonals. -/
def doubleRound (square : Square) : Square :=
  let columns := square.mixColumns
  let diagonals : Square :=
    ⟨columns.a, columns.b.turn, columns.c.turn.turn, columns.d.turn.turn.turn⟩
  let mixed := diagonals.mixColumns
  ⟨mixed.a, mixed.b.turn.turn.turn, mixed.c.turn.turn, mixed.d.turn⟩

/-- Several double rounds. -/
def rounds : Nat → Square → Square
  | 0, square => square
  | count + 1, square => rounds count square.doubleRound

/-- The block made from a square. -/
def block (square : Square) : Square :=
  let mixed := rounds 6 square
  ⟨mixed.a.add square.a, mixed.b.add square.b, mixed.c.add square.c, mixed.d.add square.d⟩

end Square

/-- The eight words that select a stream. -/
structure CipherKey where
  upper : Row
  lower : Row
  deriving DecidableEq, Repr

/-- The block of a key with a number: the fixed first row, the key, and the
    number as two words, the low one first. -/
def CipherKey.block (key : CipherKey) (number : UInt64) : Square :=
  Square.block
    ⟨⟨0x61707865, 0x3320646e, 0x79622d32, 0x6b206574⟩, key.upper, key.lower,
      ⟨number.toUInt32, (number >>> 32).toUInt32, 0, 0⟩⟩

end MazeDial
