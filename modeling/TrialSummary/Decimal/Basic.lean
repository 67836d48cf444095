import TrialSummary.Binary64.Rounding

/-!
# Decimals

A decimal is a whole coefficient times a power of ten. Its nearest binary64 number is found with one
rounding of the exact value. Exponents can be of any size, because they come from texts; two tests
settle the values that are certainly too large or too small before a power of ten is computed, and
they change no result.
-/

namespace TrialSummary

/-- The magnitude `coefficient * 10 ^ exponent`. -/
structure Decimal where
  coefficient : Nat
  exponent : Int
  deriving DecidableEq

namespace Decimal

/-- The binary64 number with the given sign nearest to a decimal.

`10 ^ 310` is above every finite number. A coefficient below `2 ^ (L + 1)` times `10 ^ (-e)` is
below `2 ^ (L + 1 - 3 * e)`, which is under half a unit once `L + 1077 ≤ 3 * e`. -/
def toBinary64 (negative : Bool) (d : Decimal) : Binary64 :=
  if d.coefficient = 0 then Binary64.zero negative
  else match d.exponent with
    | .ofNat e =>
      if 310 ≤ e then .infinity negative
      else .ofQuotient negative (d.coefficient * Nat.pow 10 e * Binary64.oneUnits) 1
    | .negSucc e' =>
      let e := e' + 1
      if d.coefficient.log2 + 1077 ≤ 3 * e then Binary64.zero negative
      else .ofQuotient negative (d.coefficient * Binary64.oneUnits) (Nat.pow 10 e)

@[simp] theorem toBinary64_zero (negative : Bool) (e : Int) :
    toBinary64 negative ⟨0, e⟩ = Binary64.zero negative := rfl

end Decimal

end TrialSummary
