/-
Numerals

Decimal numerals as they are written on a command line: digits, with an optional sign in
front. A minus sign is refused where numbers cannot be negative, even before a zero.
-/

namespace FlowProfile.Text

/-- Whether a character is one of the ten digits. -/
def isDigit (c : Char) : Bool :=
  '0' ≤ c && c ≤ '9'

/-- The number that digits denote. -/
def decimal (digits : List Char) : Nat :=
  digits.foldl (fun value c => value * 10 + (c.toNat - '0'.toNat)) 0

/-- The number that a text denotes if it has digits and nothing else. -/
def digits? (text : List Char) : Option Nat :=
  if text ≠ [] ∧ text.all isDigit then some (decimal text) else none

/-- A number without a minus sign. -/
def natural? : List Char → Option Nat
  | '+' :: rest => digits? rest
  | text => digits? text

/-- A number with any sign. -/
def integer? : List Char → Option Int
  | '-' :: rest => (digits? rest).map fun value => -(value : Int)
  | text => (natural? text).map Int.ofNat

/-- A number without a minus sign that fits in 64 bits. -/
def count? (text : String) : Option Nat :=
  (natural? text.toList).filter (· < UInt64.size)

/-- Whether a number is one of the signed words of 64 bits. -/
def fitsWord (value : Int) : Bool :=
  Int64.minValue.toInt ≤ value && value ≤ Int64.maxValue.toInt

/-- A number with any sign that fits in 64 bits. -/
def word? (text : String) : Option Int64 :=
  ((integer? text.toList).filter fitsWord).map Int64.ofInt

end FlowProfile.Text
