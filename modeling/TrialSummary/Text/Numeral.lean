/-!
# Numerals

Integers as they stand in result files and settings: an optional sign and at least one ASCII digit,
with no blank, no separator and no other character. Reading is total on `List Char` and answers
`none` for everything else. The bounded readers accept exactly the numerals whose value is in
range, however many leading zeros they are written with.
-/

namespace TrialSummary.Text

/-- Take a leading sign away. The flag says whether it was a minus. -/
def splitSign : List Char → Bool × List Char
  | '+' :: cs => (false, cs)
  | '-' :: cs => (true, cs)
  | cs => (false, cs)

/-- The value of a run of digits; the empty run has the value 0. -/
def digitsValue (cs : List Char) : Nat := Nat.ofDigitChars 10 cs 0

@[simp] theorem digitsValue_nil : digitsValue [] = 0 := rfl

@[simp] theorem digitsValue_toDigits (n : Nat) : digitsValue (Nat.toDigits 10 n) = n :=
  Nat.ofDigitChars_ten_toDigits

/-- A non-empty run of digits and nothing else. -/
def readNat? (cs : List Char) : Option Nat :=
  if !cs.isEmpty && cs.all Char.isDigit then some (digitsValue cs) else none

/-- A run of digits after an optional sign. -/
def readInt? (cs : List Char) : Option Int :=
  let (minus, digits) := splitSign cs
  (readNat? digits).map fun n => if minus then -(n : Int) else n

/-- An integer of the signed 64-bit range. -/
def readInt64? (cs : List Char) : Option Int64 :=
  (readInt? cs).bind fun z =>
    if Int64.minValue.toInt ≤ z ∧ z ≤ Int64.maxValue.toInt then some (Int64.ofInt z) else none

/-- An integer of the unsigned 32-bit range. A minus sign is accepted before zero. -/
def readUInt32? (cs : List Char) : Option UInt32 :=
  (readInt? cs).bind fun z =>
    if 0 ≤ z ∧ z < UInt32.size then some (UInt32.ofNat z.toNat) else none

/-- The numeral of an integer: a minus sign when it is negative, then its digits. -/
def writeInt (z : Int) : List Char :=
  if z < 0 then '-' :: Nat.toDigits 10 z.natAbs else Nat.toDigits 10 z.natAbs

end TrialSummary.Text
