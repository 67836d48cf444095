import TrialSummary.Decimal.Basic

/-!
# The shortest decimal of a number

Among the decimals that read back as a given finite number, the shortest one has the fewest digits
and lies nearest to the number; of two equally near ones the larger is taken.

A decimal with few digits is a multiple of a large power of ten, so the search walks the grids
`10 ^ e` from coarse to fine. On each grid only the two neighbours of the number can be nearest to
it, and if any point of the grid reads back, one of these two does. The first grid is coarser than
the number itself. The walk ends on the grid `10 ^ (-1074)`, which contains every finite number.
-/

namespace TrialSummary.Binary64

/-- The magnitude with index `k` as a quotient `n / d`, measured in steps of `10 ^ e`. -/
def inSteps (k : Nat) : Int → Nat × Nat
  | .ofNat e => (units k, oneUnits * Nat.pow 10 e)
  | .negSucc e => (units k * Nat.pow 10 (e + 1), oneUnits)

/-- Whether a decimal reads back as the magnitude with index `k`. -/
def readsBack (k : Nat) (d : Decimal) : Bool :=
  match d.toBinary64 false with
  | .finite _ j => j.val == k
  | _ => false

/-- The multiple of `10 ^ e` next to the magnitude with index `k` that reads back as it, if there
is one; of two the nearer, and the upper one from the middle. -/
def neighbour? (k : Nat) (e : Int) : Option Decimal :=
  let (n, d) := inSteps k e
  let lower : Decimal := ⟨n / d, e⟩
  let upper : Decimal := ⟨n / d + 1, e⟩
  match readsBack k lower, readsBack k upper with
  | true, true => some (if 2 * (n % d) < d then lower else upper)
  | true, false => some lower
  | false, true => some upper
  | false, false => none

/-- The exact value, a multiple of `10 ^ (-1074)` because `2 ^ (-1074)` is one. -/
def exactDecimal (k : Nat) : Decimal := ⟨units k * Nat.pow 5 1074, -1074⟩

/-- Walk the grids from the one that lies `steps` grids above `10 ^ (-1074)`. -/
def shortestFrom (k : Nat) : Nat → Decimal
  | 0 => exactDecimal k
  | steps + 1 => (neighbour? k ((steps : Int) - 1073)).getD (shortestFrom k steps)

/-- Digits in front of the point once the magnitude is multiplied by `10 ^ 1074`. -/
def scaledLength (k : Nat) : Nat := (Nat.toDigits 10 (units k * Nat.pow 5 1074)).length

/-- The shortest decimal of the magnitude with index `k`. Its first grid is the least power of ten
above the magnitude. -/
def shortest (k : Nat) : Decimal := shortestFrom k (scaledLength k)

end TrialSummary.Binary64
