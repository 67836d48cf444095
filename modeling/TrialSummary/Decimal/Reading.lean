import TrialSummary.Decimal.Basic
import TrialSummary.Text.Numeral

/-!
# Reading measured numbers

The grammar of a measured number: an optional sign, then one of the words `inf`, `infinity` and
`nan` in any letter case, or a decimal. A decimal has ASCII digits with at most one point among,
before or after them, at least one digit in all, and may end in an exponent, which is `e` or `E`,
an optional sign and at least one digit. Blanks are not part of it.

`Decimal.read?` gives the exact decimal that a text denotes, and `Binary64.read?` the number nearest
to it.
-/

namespace TrialSummary

namespace Decimal

/-- The exponent at the end of a decimal; its absence means 0. -/
def readExponent? : List Char → Option Int
  | [] => some 0
  | c :: cs => if c = 'e' ∨ c = 'E' then Text.readInt? cs else none

/-- An unsigned decimal. Digits behind the point lower the exponent by their number. -/
def read? (cs : List Char) : Option Decimal :=
  let whole := cs.takeWhile Char.isDigit
  let rest := cs.dropWhile Char.isDigit
  let (fraction, tail) := match rest with
    | '.' :: r => (r.takeWhile Char.isDigit, r.dropWhile Char.isDigit)
    | r => ([], r)
  if whole.isEmpty && fraction.isEmpty then none
  else (readExponent? tail).map fun e =>
    ⟨Text.digitsValue (whole ++ fraction), e - fraction.length⟩

end Decimal

namespace Binary64

/-- What the number words stand for, written in lower case. -/
def readWord? (negative : Bool) (cs : List Char) : Option Binary64 :=
  if cs = ['n', 'a', 'n'] then some (.nan negative)
  else if cs = ['i', 'n', 'f'] ∨ cs = ['i', 'n', 'f', 'i', 'n', 'i', 't', 'y'] then
    some (.infinity negative)
  else none

/-- A number of the grammar above, rounded to nearest once. -/
def read? (cs : List Char) : Option Binary64 :=
  let (minus, body) := Text.splitSign cs
  match readWord? minus (body.map Char.toLower) with
  | some x => some x
  | none => (Decimal.read? body).map (Decimal.toBinary64 minus)

end Binary64

end TrialSummary
