import TrialSummary.Decimal.Shortest

/-!
# Number texts

A number is written with the digits of its shortest decimal. Between `10 ^ (-4)` and `10 ^ 16` the
point stands where it belongs, and a whole number gets a fraction of one zero, so that a number is
never mistaken for a count. Outside of that range the point follows the first digit and an exponent
follows the last one; a single digit then has no point. Zero is always `0.0`.

A minus sign is written for every negative value, `-0.0` and `-inf` included. All NaNs share one
text.
-/

namespace TrialSummary

namespace Decimal

def digits (d : Decimal) : List Char := Nat.toDigits 10 d.coefficient

/-- The point stands where it belongs, zeros fill the gap to it, and there is at least one digit on
each side. -/
def positional (d : Decimal) : List Char :=
  match d.exponent with
  | .ofNat e => d.digits ++ List.replicate e '0' ++ ['.', '0']
  | .negSucc e' =>
    let places := e' + 1
    let padded := List.replicate (places + 1 - d.digits.length) '0' ++ d.digits
    let whole := padded.length - places
    padded.take whole ++ '.' :: padded.drop whole

/-- One digit, the other digits behind a point if there are any, and the power of ten of the first
digit. -/
def scientific (d : Decimal) : List Char :=
  let power : Int := d.exponent + d.digits.length - 1
  let exponent := 'e' :: (if power < 0 then ['-'] else []) ++ Nat.toDigits 10 power.natAbs
  match d.digits with
  | c :: [] => c :: exponent
  | c :: cs => c :: '.' :: cs ++ exponent
  | [] => exponent

end Decimal

namespace Binary64

/-- Whether the magnitude with index `k` is written with an exponent: it is at least `10 ^ 16`, or
above zero and below `10 ^ (-4)`. -/
def isScientific (k : Nat) : Bool :=
  decide (Nat.pow 10 16 * oneUnits ≤ units k) ||
    (k != 0 && decide (units k * Nat.pow 10 4 < oneUnits))

def signText (negative : Bool) : List Char := if negative then ['-'] else []

/-- How a number is written in reports. -/
def text : Binary64 → List Char
  | .nan _ => ['N', 'a', 'N']
  | .infinity s => signText s ++ ['i', 'n', 'f']
  | .finite s k =>
    signText s ++ if isScientific k then (shortest k).scientific
      else if k.val = 0 then Decimal.positional ⟨0, 0⟩ else (shortest k).positional

/-- How a number is written without ever using an exponent. -/
def plainText : Binary64 → List Char
  | .finite s k =>
    signText s ++ if k.val = 0 then Decimal.positional ⟨0, 0⟩ else (shortest k).positional
  | x => x.text

def render (x : Binary64) : String := String.ofList x.text

end Binary64

end TrialSummary
