/-!
# Binary64 numbers

The measurements of a trial are binary64 numbers. The type below is their set of values with a
canonical form built in: a finite number is a sign and an *index*, its place in the increasing list
of all finite magnitudes. Zero has index 0, the least positive number has index 1, and the greatest
finite number has index `finiteCount - 1`. Two finite numbers of one sign are therefore ordered like
their indices, and the number next to another one is the next index.

Magnitudes are counted in units of `2 ^ (-1074)`, the least positive number. `units k` is the exact
size of the magnitude with index `k`; there are `2 ^ 1074` units in one.
-/

namespace TrialSummary

/-- How many finite magnitudes there are: 2047 blocks of `2 ^ 52`, of which the first holds zero and
the subnormal numbers. -/
def Binary64.finiteCount : Nat := 2047 * Nat.pow 2 52

/-- A binary64 number. The payload of a NaN is not kept, its sign is. -/
inductive Binary64 where
  | nan (negative : Bool)
  | infinity (negative : Bool)
  | finite (negative : Bool) (index : Fin Binary64.finiteCount)
  deriving DecidableEq

namespace Binary64

/-- Units in the number one. -/
def oneUnits : Nat := Nat.pow 2 1074

/-- The whole factor of the magnitude with index `k`, in units of its last place. -/
def significand (k : Nat) : Nat :=
  if k < Nat.pow 2 52 then k else Nat.pow 2 52 + k % Nat.pow 2 52

/-- The last place of the magnitude with index `k` weighs `2 ^ exponent k` units. -/
def exponent (k : Nat) : Nat := k / Nat.pow 2 52 - 1

/-- The exact size of the magnitude with index `k`, in units. -/
def units (k : Nat) : Nat := significand k * Nat.pow 2 (exponent k)

def zero (negative : Bool) : Binary64 := .finite negative ⟨0, by decide⟩

instance : Inhabited Binary64 := ⟨zero false⟩

/-- The sign bit, which NaNs and zeros have as well. -/
def negative : Binary64 → Bool
  | .nan s | .infinity s | .finite s _ => s

def isNaN : Binary64 → Bool
  | .nan _ => true
  | _ => false

def isFinite : Binary64 → Bool
  | .finite _ _ => true
  | _ => false

/-- Size in units with the sign applied; both zeros give 0. -/
def signedUnits (negative : Bool) (k : Nat) : Int :=
  if negative then -(units k : Int) else units k

/-- Numeric equality: the two zeros are the same number, and a NaN is equal to nothing. -/
def sameNumber : Binary64 → Binary64 → Bool
  | .infinity s, .infinity t => s == t
  | .finite s j, .finite t k => (s == t && j == k) || (j.val == 0 && k.val == 0)
  | _, _ => false

/-- Place among the magnitudes once infinity and NaN are put above the finite ones. -/
def magnitudeRank : Binary64 → Nat
  | .finite _ k => k
  | .infinity _ => finiteCount
  | .nan _ => finiteCount + 1

/-- Place in the total order: negative NaN, negative numbers, `-0`, `+0`, positive numbers,
positive NaN. Different values have different ranks. -/
def rank (x : Binary64) : Int :=
  if x.negative then -(x.magnitudeRank : Int) - 1 else x.magnitudeRank

/-- The total order by rank, as a test for sorting. -/
def totalLe (x y : Binary64) : Bool := decide (x.rank ≤ y.rank)

@[simp] theorem units_zero : units 0 = 0 := by simp [units, significand]

@[simp] theorem negative_zero (s : Bool) : (zero s).negative = s := rfl

theorem totalLe_iff {x y : Binary64} : totalLe x y = true ↔ x.rank ≤ y.rank := by
  simp [totalLe]

theorem totalLe_trans {x y z : Binary64} (hxy : totalLe x y = true) (hyz : totalLe y z = true) :
    totalLe x z = true := by
  rw [totalLe_iff] at *
  omega

theorem totalLe_total (x y : Binary64) : (totalLe x y || totalLe y x) = true := by
  simp only [Bool.or_eq_true, totalLe_iff]
  omega

/-- Sign and magnitude rank determine a value. -/
theorem ext_magnitudeRank {x y : Binary64} (hs : x.negative = y.negative)
    (hm : x.magnitudeRank = y.magnitudeRank) : x = y := by
  cases x <;> cases y <;> simp_all [negative, magnitudeRank] <;> omega

/-- Values with one rank are one value: the total order identifies nothing. -/
theorem rank_injective {x y : Binary64} (h : x.rank = y.rank) : x = y := by
  have hs : x.negative = y.negative := by
    unfold rank at h
    cases hx : x.negative <;> cases hy : y.negative <;> simp_all <;> omega
  apply ext_magnitudeRank hs
  unfold rank at h
  rw [hs] at h
  split at h <;> omega

end Binary64

end TrialSummary
