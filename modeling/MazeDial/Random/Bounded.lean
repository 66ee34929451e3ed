/-!
# Numbers between bounds

How a number between two bounds is made from words of a source. A word of `bits`
bits times the size of the range is a number of two halves: the high half is the
choice, and the low half says how far the word lay into it. Where the low half
comes so close to the next choice that more bits could tip it, a second word is
drawn and decides. Nothing here depends on where the words come from.

The bounds are inclusive. When the range covers every value of its type, its
size does not fit in the type and the word itself is the answer.
-/

namespace MazeDial

variable {σ : Type}

/-- A choice among `range` values, by words of `bits` bits. -/
@[specialize] def choose (next : σ → Nat × σ) (bits range : Nat) (source : σ) : Nat × σ :=
  let (word, source) := next source
  let product := word * range
  let choice := product >>> bits
  let low := product % (1 <<< bits)
  if (1 <<< bits) - range < low then
    let (word, source) := next source
    let carries := 1 <<< bits ≤ low + (word * range) >>> bits
    (if carries then choice + 1 else choice, source)
  else (choice, source)

/-- A word of 32 bits as a number. -/
@[inline] def shortWord (next : σ → UInt32 × σ) (source : σ) : Nat × σ :=
  let (word, source) := next source
  (word.toNat, source)

/-- A word of 64 bits as a number: two words of 32 bits, the low one first. -/
@[inline] def longWord (next : σ → UInt32 × σ) (source : σ) : Nat × σ :=
  let (low, source) := next source
  let (high, source) := next source
  (low.toNat + high.toNat * UInt32.size, source)

/-- A byte from `least` to `greatest`. -/
@[specialize] def chooseByte (next : σ → UInt32 × σ) (least greatest : UInt8) (source : σ) :
    UInt8 × σ :=
  let range := (greatest.toNat - least.toNat + 1) % UInt8.size
  if range = 0 then
    let (word, source) := next source
    (word.toUInt8, source)
  else
    let (choice, source) := choose (shortWord next) 32 range source
    ((least.toNat + choice).toUInt8, source)

/-- A number below 2 to the 64 from `least` to `greatest`, by words of 32 bits
    if `greatest` fits in one. -/
@[specialize] def chooseIndex (next : σ → UInt32 × σ) (least greatest : Nat) (source : σ) :
    Nat × σ :=
  if greatest < UInt32.size then
    let range := (greatest - least + 1) % UInt32.size
    if range = 0 then shortWord next source
    else
      let (choice, source) := choose (shortWord next) 32 range source
      (least + choice, source)
  else
    let range := (greatest - least + 1) % UInt64.size
    if range = 0 then longWord next source
    else
      let (choice, source) := choose (longWord next) 64 range source
      (least + choice, source)

end MazeDial
