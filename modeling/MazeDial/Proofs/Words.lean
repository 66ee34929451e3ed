import MazeDial.Random.Bounded
import Mathlib.Algebra.Group.Nat.Defs

/-!
# Numbers from words

A number between bounds is made from one word of a source or from two. It is the share of
the range that the two words have when they are read as one word of twice the size, so that
it never leaves the range. Mostly the first word settles the number alone: whatever word
came after it, the share would be the same. The second word is drawn exactly where it does
not, and this is what the low half of the first product is compared for.

A range that covers all values of its type has no size in the type. The word itself is the
number then. For numbers of the size of a word it is their share again; of a byte it has the
lowest digits. Nothing is assumed of the words but their size.
-/

namespace MazeDial

/-- The share of a range that two words of `bits` bits have as one word of twice the size. -/
def share (bits range first second : Nat) : Nat :=
  (first * 2 ^ bits + second) * range / 2 ^ (2 * bits)

/-- A word settles a number if the share does not depend on the word after it. -/
def Settles (bits range first : Nat) : Prop :=
  ∀ second < 2 ^ bits, share bits range first second = share bits range first 0

section Share

variable {bits range first second : Nat}

/-- The share is that of the first word, and one more if the rests of both words come to the
    size of a word. -/
theorem share_eq (bits range first second : Nat) :
    share bits range first second = first * range / 2 ^ bits +
      (first * range % 2 ^ bits + second * range / 2 ^ bits) / 2 ^ bits := by
  have positive : 0 < 2 ^ bits := Nat.two_pow_pos bits
  have split : first * range % 2 ^ bits + 2 ^ bits * (first * range / 2 ^ bits) = first * range :=
    Nat.mod_add_div _ _
  have product : (first * 2 ^ bits + second) * range =
      second * range + 2 ^ bits * (first * range) := by
    rw [Nat.add_mul, Nat.mul_right_comm, Nat.mul_comm (first * range), Nat.add_comm]
  calc share bits range first second
      = (second * range + 2 ^ bits * (first * range)) / 2 ^ bits / 2 ^ bits := by
        rw [share, product, Nat.two_mul, Nat.pow_add, Nat.div_div_eq_div_mul]
    _ = (second * range / 2 ^ bits + first * range) / 2 ^ bits := by
        rw [Nat.add_mul_div_left _ _ positive]
    _ = (first * range % 2 ^ bits + second * range / 2 ^ bits +
          2 ^ bits * (first * range / 2 ^ bits)) / 2 ^ bits := by
        congr 1
        omega
    _ = _ := by rw [Nat.add_mul_div_left _ _ positive, Nat.add_comm]

/-- Words of their size have a share below the range. -/
theorem share_lt (positive : 0 < range) (firstWord : first < 2 ^ bits)
    (secondWord : second < 2 ^ bits) : share bits range first second < range := by
  have together : first * 2 ^ bits + second < 2 ^ (2 * bits) := by
    rw [Nat.two_mul, Nat.pow_add]
    calc first * 2 ^ bits + second < first * 2 ^ bits + 2 ^ bits := by omega
      _ = (first + 1) * 2 ^ bits := (Nat.succ_mul ..).symm
      _ ≤ 2 ^ bits * 2 ^ bits := Nat.mul_le_mul_right _ firstWord
  exact Nat.div_lt_of_lt_mul (Nat.mul_lt_mul_of_pos_right together positive)

/-- The rest of a second word is less than the range. -/
theorem rest_lt (positive : 0 < range) (secondWord : second < 2 ^ bits) :
    second * range / 2 ^ bits < range :=
  Nat.div_lt_of_lt_mul (Nat.mul_lt_mul_of_pos_right secondWord positive)

/-- The last word has the largest rest. -/
theorem lastRest_eq (positive : 0 < range) (fits : range ≤ 2 ^ bits) :
    (2 ^ bits - 1) * range / 2 ^ bits = range - 1 := by
  have whole : 2 ^ bits * 1 ≤ 2 ^ bits * range := Nat.mul_le_mul_left _ positive
  have product : (2 ^ bits - 1) * range = (2 ^ bits - range) + 2 ^ bits * (range - 1) := by
    rw [Nat.sub_mul, Nat.mul_sub]
    omega
  rw [product, Nat.add_mul_div_left _ _ (Nat.two_pow_pos bits), Nat.div_eq_of_lt (by omega),
    Nat.zero_add]

/-- Rests that come to less than a word leave the share of the first word. -/
theorem share_of_lt (less : first * range % 2 ^ bits + second * range / 2 ^ bits < 2 ^ bits) :
    share bits range first second = first * range / 2 ^ bits := by
  rw [share_eq, Nat.div_eq_of_lt less, Nat.add_zero]

/-- Rests that come to a word add one to it: they cannot come to two words. -/
theorem share_of_le (positive : 0 < range) (fits : range ≤ 2 ^ bits)
    (secondWord : second < 2 ^ bits)
    (enough : 2 ^ bits ≤ first * range % 2 ^ bits + second * range / 2 ^ bits) :
    share bits range first second = first * range / 2 ^ bits + 1 := by
  have low : first * range % 2 ^ bits < 2 ^ bits := Nat.mod_lt _ (Nat.two_pow_pos bits)
  have rest : second * range / 2 ^ bits < range := rest_lt positive secondWord
  have once : (first * range % 2 ^ bits + second * range / 2 ^ bits) / 2 ^ bits = 1 :=
    Nat.div_eq_of_lt_le (by omega) (by omega)
  rw [share_eq, once]

/-- A word settles a number exactly if its rest leaves room for that of every other word. -/
theorem settles_iff (positive : 0 < range) (fits : range ≤ 2 ^ bits) :
    Settles bits range first ↔ first * range % 2 ^ bits ≤ 2 ^ bits - range := by
  have low : first * range % 2 ^ bits < 2 ^ bits := Nat.mod_lt _ (Nat.two_pow_pos bits)
  have alone : share bits range first 0 = first * range / 2 ^ bits :=
    share_of_lt (by simpa using low)
  constructor
  · intro settles
    apply Nat.le_of_not_lt
    intro high
    -- The last word would tip what the first has left over.
    have last : (2 ^ bits - 1) * range / 2 ^ bits = range - 1 := lastRest_eq positive fits
    have tipped := @share_of_le bits range first (2 ^ bits - 1) positive fits (by omega) (by omega)
    rw [settles _ (by omega), alone] at tipped
    omega
  · intro room second secondWord
    have rest : second * range / 2 ^ bits < range := rest_lt positive secondWord
    rw [alone]
    exact share_of_lt (by omega)

/-- A number that may be any word is settled by the first one. -/
theorem settles_whole (bits first : Nat) : Settles bits (2 ^ bits) first := by
  have nothing : first * 2 ^ bits % 2 ^ bits = 0 := Nat.mul_mod_left ..
  rw [settles_iff (Nat.two_pow_pos bits) (Nat.le_refl _), nothing]
  exact Nat.zero_le _

end Share

section Choice

variable {σ : Type} {word : σ → Nat × σ} {bits range offset : Nat} {source after : σ}

/-- One word has been drawn, or two. -/
def DrawsOneOrTwo (word : σ → Nat × σ) (source after : σ) : Prop :=
  after = (word source).2 ∨ after = (word (word source).2).2

/-- A number below a range is the share of the next two words, of which the second is drawn
    only where the first does not settle it. -/
structure Shares (word : σ → Nat × σ) (bits range : Nat) (source : σ) (offset : Nat) (after : σ) :
    Prop where
  offset_eq : offset = share bits range (word source).1 (word (word source).2).1
  settled : Settles bits range (word source).1 → after = (word source).2
  unsettled : ¬ Settles bits range (word source).1 → after = (word (word source).2).2

theorem Shares.oneOrTwo (shares : Shares word bits range source offset after) :
    DrawsOneOrTwo word source after := by
  by_cases settles : Settles bits range (word source).1
  · exact .inl (shares.settled settles)
  · exact .inr (shares.unsettled settles)

/-- A choice is a share of the words that it draws. -/
theorem choose_shares (positive : 0 < range) (fits : range ≤ 2 ^ bits)
    (words : ∀ state, (word state).1 < 2 ^ bits) (source : σ) :
    Shares word bits range source (choose word bits range source).1
      (choose word bits range source).2 := by
  have settles := @settles_iff bits range (word source).1 positive fits
  have rest := rest_lt positive (words (word source).2)
  simp only [choose, Nat.shiftRight_eq_div_pow, Nat.shiftLeft_eq, Nat.one_mul]
  by_cases late : 2 ^ bits - range < (word source).1 * range % 2 ^ bits
  · have unsettled : ¬ Settles bits range (word source).1 := mt settles.mp (Nat.not_le.mpr late)
    rw [if_pos late]
    refine ⟨?_, fun settled => absurd settled unsettled, fun _ => rfl⟩
    split
    · next enough => exact (share_of_le positive fits (words _) enough).symm
    · next less => exact (share_of_lt (Nat.not_le.mp less)).symm
  · have settled : Settles bits range (word source).1 := settles.mpr (Nat.not_lt.mp late)
    rw [if_neg late]
    exact ⟨(share_of_lt (by omega)).symm, fun _ => rfl, fun unsettled => absurd settled unsettled⟩

/-- A word is its own share of all words, and settles it. -/
theorem word_shares (words : ∀ state, (word state).1 < 2 ^ bits) (source : σ) :
    Shares word bits (2 ^ bits) source (word source).1 (word source).2 where
  offset_eq := by
    have nothing : (word source).1 * 2 ^ bits % 2 ^ bits = 0 := Nat.mul_mod_left ..
    have rest := rest_lt (Nat.two_pow_pos bits) (words (word source).2)
    rw [share_of_lt (by omega), Nat.mul_div_cancel _ (Nat.two_pow_pos bits)]
  settled _ := rfl
  unsettled unsettled := absurd (settles_whole bits _) unsettled

/-- A share lies in its range. -/
theorem Shares.lt (shares : Shares word bits range source offset after) (positive : 0 < range)
    (words : ∀ state, (word state).1 < 2 ^ bits) : offset < range :=
  shares.offset_eq ▸ share_lt positive (words _) (words _)

/-- A number between two bounds is the sum of the least one and a share of their range. -/
def MadeFrom (word : σ → Nat × σ) (bits least greatest : Nat) (source : σ) (number : Nat)
    (after : σ) : Prop :=
  ∃ offset, number = least + offset ∧ Shares word bits (greatest - least + 1) source offset after

variable {least greatest number : Nat}

/-- One word or two are drawn for it. -/
theorem MadeFrom.oneOrTwo (made : MadeFrom word bits least greatest source number after) :
    DrawsOneOrTwo word source after :=
  have ⟨_, _, shares⟩ := made
  shares.oneOrTwo

/-- It does lie between them: a share is less than the range, whatever the words are. -/
theorem MadeFrom.bounds (made : MadeFrom word bits least greatest source number after)
    (ordered : least ≤ greatest) (words : ∀ state, (word state).1 < 2 ^ bits) :
    least ≤ number ∧ number ≤ greatest := by
  obtain ⟨offset, rfl, shares⟩ := made
  have below := shares.lt (Nat.succ_pos _) words
  omega

end Choice

section Numbers

variable {σ : Type} (next : σ → UInt32 × σ)

theorem shortWord_lt (source : σ) : (shortWord next source).1 < 2 ^ 32 :=
  (next source).1.toNat_lt

theorem longWord_lt (source : σ) : (longWord next source).1 < 2 ^ 64 := by
  have low : (next source).1.toNat < 2 ^ 32 := (next source).1.toNat_lt
  have high : (next (next source).2).1.toNat < 2 ^ 32 := (next (next source).2).1.toNat_lt
  simp only [longWord, UInt32.size]
  omega

/-- If every byte may come, it is the lowest digits of a word. -/
theorem chooseByte_whole {least greatest : UInt8} (whole : greatest.toNat - least.toNat = 255)
    (source : σ) :
    chooseByte next least greatest source = ((next source).1.toUInt8, (next source).2) := by
  have none : (greatest.toNat - least.toNat + 1) % UInt8.size = 0 := by rw [whole]; rfl
  simp only [chooseByte, none, if_true]

/-- If some bytes may not come, a byte is the sum of the least and a share, as numbers: it
    does not wrap around. -/
theorem chooseByte_made {least greatest : UInt8} (ordered : least ≤ greatest)
    (part : greatest.toNat - least.toNat < 255) (source : σ) :
    MadeFrom (shortWord next) 32 least.toNat greatest.toNat source
      (chooseByte next least greatest source).1.toNat
      (chooseByte next least greatest source).2 := by
  have least_le : least.toNat ≤ greatest.toNat := ordered
  have greatest_lt : greatest.toNat < UInt8.size := greatest.toNat_lt
  have range : (greatest.toNat - least.toNat + 1) % UInt8.size =
      greatest.toNat - least.toNat + 1 :=
    Nat.mod_eq_of_lt (Nat.succ_lt_succ part)
  have positive : 0 < greatest.toNat - least.toNat + 1 := Nat.succ_pos _
  have shares := choose_shares positive (by omega) (shortWord_lt next) source
  have below := shares.lt positive (shortWord_lt next)
  simp only [chooseByte, range, Nat.add_one_ne_zero, if_false]
  exact ⟨_, UInt8.toNat_ofNat_of_lt' (by omega), shares⟩

/-- A number between bounds that words of `bits` bits can tell apart is the sum of the least
    and a share. If all words may come, the least is zero and the share is the word. -/
theorem made_of_fits {word : σ → Nat × σ} {bits size least greatest : Nat}
    (size_eq : size = 2 ^ bits) (words : ∀ state, (word state).1 < 2 ^ bits)
    (ordered : least ≤ greatest) (fits : greatest < size) (source : σ) :
    let range := (greatest - least + 1) % size
    let drawn := if range = 0 then word source
      else
        let (choice, source) := choose word bits range source
        (least + choice, source)
    MadeFrom word bits least greatest source drawn.1 drawn.2 := by
  intro range
  by_cases whole : greatest - least + 1 = size
  · have none : range = 0 := by simp [range, whole]
    have zero : least = 0 := by omega
    simp only [none, if_true]
    rw [MadeFrom, whole, size_eq, zero]
    exact ⟨_, (Nat.zero_add _).symm, word_shares words source⟩
  · have same : range = greatest - least + 1 := Nat.mod_eq_of_lt (by omega)
    simp only [same, Nat.add_one_ne_zero, if_false]
    exact ⟨_, rfl, choose_shares (Nat.succ_pos _) (by omega) words source⟩

/-- The numbers below 2 to the 32 are made from words of 32 bits. -/
theorem chooseIndex_short {least greatest : Nat} (ordered : least ≤ greatest)
    (short : greatest < 2 ^ 32) (source : σ) :
    MadeFrom (shortWord next) 32 least greatest source
      (chooseIndex next least greatest source).1 (chooseIndex next least greatest source).2 := by
  have fits : greatest < UInt32.size := short
  have made := made_of_fits rfl (shortWord_lt next) ordered fits source
  rwa [chooseIndex, if_pos fits]

/-- The other ones are made from words of 64 bits. -/
theorem chooseIndex_long {least greatest : Nat} (ordered : least ≤ greatest)
    (long : 2 ^ 32 ≤ greatest) (fits : greatest < 2 ^ 64) (source : σ) :
    MadeFrom (longWord next) 64 least greatest source
      (chooseIndex next least greatest source).1 (chooseIndex next least greatest source).2 := by
  have unfit : ¬ greatest < UInt32.size := Nat.not_lt.mpr long
  have fitsLong : greatest < UInt64.size := fits
  have made := made_of_fits rfl (longWord_lt next) ordered fitsLong source
  rwa [chooseIndex, if_neg unfit]

/-- A byte drawn by any words lies within its bounds. -/
theorem chooseByte_bounds {least greatest : UInt8} (source : σ) (ordered : least ≤ greatest) :
    least ≤ (chooseByte next least greatest source).1 ∧
      (chooseByte next least greatest source).1 ≤ greatest := by
  have greatest_lt : greatest.toNat < 256 := greatest.toNat_lt
  have byte_lt : (chooseByte next least greatest source).1.toNat < 256 :=
    (chooseByte next least greatest source).1.toNat_lt
  simp only [UInt8.le_iff_toNat_le]
  by_cases whole : greatest.toNat - least.toNat = 255
  · omega
  · exact (chooseByte_made next ordered (by omega) source).bounds ordered (shortWord_lt next)

/-- A number drawn by any words lies within its bounds. -/
theorem chooseIndex_bounds {least greatest : Nat} (source : σ) (ordered : least ≤ greatest)
    (fits : greatest < 2 ^ 64) :
    least ≤ (chooseIndex next least greatest source).1 ∧
      (chooseIndex next least greatest source).1 ≤ greatest := by
  rcases Nat.lt_or_ge greatest (2 ^ 32) with short | long
  · exact (chooseIndex_short next ordered short source).bounds ordered (shortWord_lt next)
  · exact (chooseIndex_long next ordered long fits source).bounds ordered (longWord_lt next)

end Numbers

end MazeDial
