import TrialSummary.Binary64.Basic

/-!
# Rounding to binary64, and the arithmetic that needs it

Every operation below computes its exact result as a quotient of natural numbers, counted in units,
and rounds once: to the nearest magnitude, and from the middle between two to the one with the even
index. Rounding lands on an index directly. In the block where the last place weighs `2 ^ s` units,
index and significand differ by the constant `s * 2 ^ 52`, so a significand that rounds up to
`2 ^ 53` is already the first index of the next block, and an index of `finiteCount` or more means
that the result is infinite.
-/

namespace TrialSummary

/-- `n / d` as a whole number: the nearest one, and of two equally near the even one. -/
def divNearestEven (n d : Nat) : Nat :=
  let q := n / d
  let r := n % d
  if 2 * r < d then q else if d < 2 * r then q + 1 else q + q % 2

namespace Binary64

/-- Index of the magnitude nearest to `n / d` units, on a grid that goes on past the greatest
finite number. -/
def nearestIndex (n d : Nat) : Nat :=
  let s := (n / d).log2 - 52
  s * Nat.pow 2 52 + divNearestEven n (d * Nat.pow 2 s)

/-- The number with the given sign nearest to `n / d` units. -/
def ofQuotient (negative : Bool) (n d : Nat) : Binary64 :=
  let k := nearestIndex n d
  if h : k < finiteCount then .finite negative ⟨k, h⟩ else .infinity negative

/-- The number nearest to a whole number of units; an exact zero is `+0`. -/
def ofUnits (z : Int) : Binary64 := ofQuotient (z < 0) z.natAbs 1

/-- The number nearest to an integer. -/
def ofInt (z : Int) : Binary64 := ofUnits (z * oneUnits)

def ofNat (n : Nat) : Binary64 := ofInt n

/-- Addition rounds the exact sum. A sum that is exactly zero is `-0` only for two negative zeros,
and infinities of different sign have no sum. -/
def add : Binary64 → Binary64 → Binary64
  | .nan s, _ => .nan s
  | _, .nan s => .nan s
  | .infinity s, .infinity t => if s = t then .infinity s else .nan false
  | .infinity s, .finite _ _ => .infinity s
  | .finite _ _, .infinity t => .infinity t
  | .finite s j, .finite t k =>
    let z := signedUnits s j + signedUnits t k
    if z = 0 then zero (s && t) else ofUnits z

/-- Division rounds the exact quotient. Zero by zero and infinity by infinity have none; any other
number by zero is infinite. -/
def div : Binary64 → Binary64 → Binary64
  | .nan s, _ => .nan s
  | _, .nan s => .nan s
  | .infinity _, .infinity _ => .nan false
  | .infinity s, .finite t _ => .infinity (s ^^ t)
  | .finite s _, .infinity t => zero (s ^^ t)
  | .finite s j, .finite t k =>
    if k.val = 0 then
      if j.val = 0 then .nan false else .infinity (s ^^ t)
    else ofQuotient (s ^^ t) (units j * oneUnits) (units k)

instance : Add Binary64 := ⟨add⟩

instance : Div Binary64 := ⟨div⟩

/-- The whole part, with the fraction cut off; infinities go to the ends of the range of a signed
64-bit integer, as does every number beyond them, and NaN gives 0. -/
def toInt64 : Binary64 → Int64
  | .nan _ => 0
  | .infinity true => Int64.minValue
  | .infinity false => Int64.maxValue
  | .finite s k =>
    let n : Int := units k / oneUnits
    let z := if s then -n else n
    if z < Int64.minValue.toInt then Int64.minValue
    else if Int64.maxValue.toInt < z then Int64.maxValue
    else Int64.ofInt z

def ofInt64 (z : Int64) : Binary64 := ofInt z.toInt

end Binary64

end TrialSummary
