import MazeDial.Random.Cipher

/-!
# Key streams

A key stream is the endless sequence of the words of a key's blocks, block zero
first. Its key is grown from a seed of 64 bits by a linear congruential
generator whose states are scrambled by a shift, an exclusive or and a rotation
of their own choosing.
-/

namespace MazeDial

/-- The state after a state of the seed's generator. -/
def nextSeedState (state : UInt64) : UInt64 :=
  state * 6364136223846793005 + 11634580027462260723

/-- The word that a state of the seed's generator gives: a state's upper bits,
    turned right by as many places as its five highest bits say. -/
def seedWord (state : UInt64) : UInt32 :=
  let word := (((state >>> 18) ^^^ state) >>> 27).toUInt32
  let turn := (state >>> 59).toUInt32
  (word >>> turn) ||| (word <<< ((32 - turn) % 32))

/-- The key of a seed: the words of the eight states that follow it. -/
def CipherKey.ofSeed (seed : UInt64) : CipherKey :=
  let s₁ := nextSeedState seed
  let s₂ := nextSeedState s₁
  let s₃ := nextSeedState s₂
  let s₄ := nextSeedState s₃
  let s₅ := nextSeedState s₄
  let s₆ := nextSeedState s₅
  let s₇ := nextSeedState s₆
  let s₈ := nextSeedState s₇
  ⟨⟨seedWord s₁, seedWord s₂, seedWord s₃, seedWord s₄⟩,
    ⟨seedWord s₅, seedWord s₆, seedWord s₇, seedWord s₈⟩⟩

/-- A place in the words of a key: the words left of the current block and the
    number of the block after it. -/
structure KeyStream where
  key : CipherKey
  number : UInt64
  pending : List UInt32
  deriving DecidableEq, Repr

namespace KeyStream

/-- The first place in the words of a seed's key. -/
def ofSeed (seed : UInt64) : KeyStream :=
  ⟨CipherKey.ofSeed seed, 0, []⟩

/-- The next word. -/
def next (stream : KeyStream) : UInt32 × KeyStream :=
  match stream.pending with
  | word :: rest => (word, { stream with pending := rest })
  | [] =>
    let square := stream.key.block stream.number
    (square.a.first,
      { stream with
        number := stream.number + 1
        pending := [square.a.second, square.a.third, square.a.fourth] ++
          square.b.toList ++ square.c.toList ++ square.d.toList })

end KeyStream

end MazeDial
