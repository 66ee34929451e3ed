/-!
# Numerals

Whole numbers written in decimal. A numeral is one or more of the ten digits,
after at most one sign; nothing else may stand before, between or after them.
Numbers outside a given range are refused like text that is no numeral.
-/

namespace MazeDial

/-- The value of a digit. -/
def digitValue (digit : Char) : Option Nat :=
  if '0' ≤ digit ∧ digit ≤ '9' then some (digit.toNat - '0'.toNat) else none

/-- The number that digits write; none without digits. -/
def digitsValue (digits : List Char) : Option Nat :=
  match digits with
  | [] => none
  | _ => digits.foldlM (fun value digit => (digitValue digit).map (10 * value + ·)) 0

/-- The number of a numeral that may have a plus sign. -/
def parseUnsigned (text : String) : Option Nat :=
  match text.toList with
  | '+' :: digits => digitsValue digits
  | digits => digitsValue digits

/-- The number of a numeral that may have a sign. -/
def parseSigned (text : String) : Option Int :=
  match text.toList with
  | '-' :: digits => (digitsValue digits).map fun value => -(value : Int)
  | _ => (parseUnsigned text).map Int.ofNat

/-- A numeral of a number that fits in 32 bits with its sign. -/
def parseInt32 (text : String) : Option Int32 :=
  (parseSigned text).bind fun value =>
    if -2147483648 ≤ value ∧ value ≤ 2147483647 then some (Int32.ofInt value) else none

/-- A numeral of a number below 2 to the 64. -/
def parseCount (text : String) : Option Nat :=
  (parseUnsigned text).filter (· < UInt64.size)

end MazeDial
