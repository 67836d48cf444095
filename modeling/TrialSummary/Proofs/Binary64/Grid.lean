import Mathlib.Algebra.Order.Field.Rat
import Mathlib.Algebra.Order.Ring.Int
import Mathlib.Data.Int.ConditionallyCompleteOrder
import Mathlib.Data.Rat.Cast.Order
import Mathlib.Order.Monotone.Basic
import Mathlib.Order.SuccPred.Archimedean
import Mathlib.Tactic.Ring
import TrialSummary.Proofs.Binary64.Rounding

/-!
# The grid of binary64 numbers

The numbers that have 53 binary digits and are whole numbers of units stand on a grid. The place of a
number on it is its index with its sign; the places go on past those of the finite numbers, so that
each of them has a next one. The numbers on the grid increase with their places. Among them are all
whole numbers of units, or of a power of two of them, that are at most `2 ^ 53`.
-/

namespace TrialSummary.Binary64

theorem significand_lt (k : Nat) : significand k < 2 ^ 53 := by
  rcases Nat.lt_or_ge k (2 ^ 52) with h | h
  · rw [significand_of_lt h]
    omega
  · have hmod : k % 2 ^ 52 < 2 ^ 52 := Nat.mod_lt _ (Nat.two_pow_pos 52)
    rw [significand_of_le h]
    omega

theorem significand_mod_two (k : Nat) : significand k % 2 = k % 2 := by
  rcases Nat.lt_or_ge k (2 ^ 52) with h | h
  · rw [significand_of_lt h]
  · rw [significand_of_le h]
    omega

/-- Index and significand of a block differ by a constant. The first index of the next block may be
counted in. -/
theorem units_block {place m : Nat} (hm : m ≤ 2 ^ 53) (hfull : place = 0 ∨ 2 ^ 52 ≤ m) :
    units (place * 2 ^ 52 + m) = m * 2 ^ place := by
  rcases Nat.lt_or_ge m (2 ^ 52) with hsmall | hlarge
  · obtain rfl : place = 0 := by omega
    rw [Nat.zero_mul, Nat.zero_add, units_eq, significand_of_lt hsmall, exponent_eq,
      Nat.div_eq_of_lt hsmall]
  · rcases Nat.lt_or_ge m (2 ^ 53) with hlt | hge
    · have hexponent : exponent (place * 2 ^ 52 + m) = place := by rw [exponent_eq]; omega
      have hsignificand : significand (place * 2 ^ 52 + m) = m := by
        rw [significand_of_le (by omega)]
        omega
      rw [units_eq, hexponent, hsignificand]
    · obtain rfl : m = 2 ^ 53 := by omega
      have hexponent : exponent (place * 2 ^ 52 + 2 ^ 53) = place + 1 := by rw [exponent_eq]; omega
      have hsignificand : significand (place * 2 ^ 52 + 2 ^ 53) = 2 ^ 52 := by
        rw [significand_of_le (by omega)]
        omega
      rw [units_eq, hexponent, hsignificand, Nat.pow_succ]
      omega

theorem exists_block (k : Nat) :
    ∃ place m, k = place * 2 ^ 52 + m ∧ m < 2 ^ 53 ∧ (place = 0 ∨ 2 ^ 52 ≤ m) := by
  rcases Nat.lt_or_ge k (2 ^ 52) with h | h
  · exact ⟨0, k, by omega, by omega, .inl rfl⟩
  · exact ⟨k / 2 ^ 52 - 1, 2 ^ 52 + k % 2 ^ 52, by omega, by omega, .inr (by omega)⟩

theorem units_lt_units_succ (k : Nat) : units k < units (k + 1) := by
  obtain ⟨place, m, rfl, hm, hfull⟩ := exists_block k
  rw [Nat.add_assoc, units_block (Nat.le_of_lt hm) hfull, units_block hm (by omega)]
  exact (Nat.mul_lt_mul_right (Nat.two_pow_pos place)).mpr (Nat.lt_succ_self m)

theorem strictMono_units : StrictMono units := strictMono_nat_of_lt_succ units_lt_units_succ

/-- A whole number of at most 53 digits, times a power of two, has an index. -/
theorem exists_units_eq (place : Nat) {m : Nat} (hm : m ≤ 2 ^ 53) :
    ∃ k, units k = m * 2 ^ place := by
  induction place generalizing m with
  | zero => exact ⟨_, units_block hm (.inl rfl)⟩
  | succ place ih =>
    rcases Nat.lt_or_ge m (2 ^ 52) with hsmall | hlarge
    · obtain ⟨k, hk⟩ := ih (show 2 * m ≤ 2 ^ 53 by omega)
      refine ⟨k, ?_⟩
      rw [hk, Nat.pow_succ]
      ring
    · exact ⟨_, units_block hm (.inr hlarge)⟩

theorem exists_units_eq_two_mul (k : Nat) : ∃ j, units j = 2 * units k := by
  obtain ⟨j, hj⟩ := exists_units_eq (exponent k + 1) (Nat.le_of_lt (significand_lt k))
  refine ⟨j, ?_⟩
  rw [hj, units_eq, Nat.pow_succ]
  ring

/-- The first index that is not finite would be that of `2 ^ 1024`. -/
theorem units_finiteCount : units finiteCount = 2 ^ 1024 * oneUnits := by
  have hcount : finiteCount = 2045 * 2 ^ 52 + 2 ^ 53 := by decide +kernel
  have hlength (b : Nat) : b ^ 53 * b ^ 2045 = b ^ 1024 * b ^ 1074 := by ring
  calc units finiteCount = 2 ^ 53 * 2 ^ 2045 := by
        rw [hcount, units_block (Nat.le_refl _) (.inr (by decide))]
    _ = 2 ^ 1024 * 2 ^ 1074 := hlength 2
    _ = 2 ^ 1024 * oneUnits := by rw [oneUnits_eq]

/-- The number at a place, in units. -/
def gridUnits (z : Int) : Int := z.sign * units z.natAbs

@[simp] theorem gridUnits_natCast (k : Nat) : gridUnits k = units k := by
  rcases Nat.eq_zero_or_pos k with rfl | hk
  · rfl
  · rw [gridUnits, Int.sign_natCast_of_ne_zero (by omega), Int.natAbs_natCast, one_mul]

@[simp] theorem gridUnits_neg (z : Int) : gridUnits (-z) = -gridUnits z := by
  rw [gridUnits, gridUnits, Int.sign_neg, Int.natAbs_neg, neg_mul]

@[simp] theorem natAbs_gridUnits (z : Int) : (gridUnits z).natAbs = units z.natAbs := by
  obtain ⟨k, rfl | rfl⟩ := z.eq_nat_or_neg <;> simp

theorem gridUnits_lt_succ (z : Int) : gridUnits z < gridUnits (z + 1) := by
  have hnext (k : Nat) : gridUnits k < gridUnits (k + 1 : Nat) := by
    rw [gridUnits_natCast, gridUnits_natCast]
    exact_mod_cast units_lt_units_succ k
  cases z with
  | ofNat k => exact hnext k
  | negSucc k =>
    have hplace : Int.negSucc k + 1 = -(k : Int) := by omega
    rw [hplace, Int.negSucc_eq, gridUnits_neg, gridUnits_neg]
    exact neg_lt_neg (hnext k)

theorem strictMono_gridUnits : StrictMono gridUnits := strictMono_int_of_lt_succ gridUnits_lt_succ

def grid (z : Int) : Rat := gridUnits z / oneUnits

theorem oneUnits_cast_pos : (0 : Rat) < oneUnits := by exact_mod_cast oneUnits_pos

theorem strictMono_grid : StrictMono grid := fun _ _ h =>
  div_lt_div_of_pos_right (by exact_mod_cast strictMono_gridUnits h) oneUnits_cast_pos

@[simp] theorem grid_zero : grid 0 = 0 := by
  rw [grid, gridUnits, Int.sign_zero, zero_mul, Int.cast_zero, zero_div]

@[simp] theorem grid_neg (z : Int) : grid (-z) = -grid z := by
  rw [grid, grid, gridUnits_neg, Int.cast_neg, neg_div]

theorem grid_natCast (k : Nat) : grid k = units k / oneUnits := by
  rw [grid, gridUnits_natCast, Int.cast_natCast]

theorem exists_grid_eq_two_mul (z : Int) : ∃ w, grid w = 2 * grid z := by
  have hdouble (k : Nat) : ∃ w : Int, grid w = 2 * grid k := by
    obtain ⟨j, hj⟩ := exists_units_eq_two_mul k
    refine ⟨j, ?_⟩
    rw [grid_natCast, grid_natCast, hj, Nat.cast_mul, Nat.cast_ofNat, mul_div_assoc]
  obtain ⟨k, rfl | rfl⟩ := z.eq_nat_or_neg
  · exact hdouble k
  · obtain ⟨w, hw⟩ := hdouble k
    exact ⟨-w, by rw [grid_neg, grid_neg, hw, mul_neg]⟩

def toRat : Binary64 → Rat
  | .finite s k => signedUnits s k / oneUnits
  | _ => 0

def place : Binary64 → Int
  | .finite s k => if s then -k else k
  | _ => 0

theorem toRat_eq_grid (x : Binary64) : x.toRat = grid x.place := by
  match x with
  | .nan _ | .infinity _ => exact grid_zero.symm
  | .finite true k =>
    rw [toRat, place, grid, signedUnits, if_pos rfl, if_pos rfl, gridUnits_neg, gridUnits_natCast]
  | .finite false k =>
    rw [toRat, place, grid, signedUnits, if_neg Bool.false_ne_true, if_neg Bool.false_ne_true,
      gridUnits_natCast]

/-- A value with the sign applied. -/
def signed (s : Bool) (q : Rat) : Rat := if s then -q else q

theorem signed_div_signed (s t : Bool) (p q : Rat) :
    signed s p / signed t q = signed (s ^^ t) (p / q) := by
  cases s <;> cases t <;> simp [signed, neg_div, div_neg]

theorem toRat_finite (s : Bool) (k : Fin finiteCount) :
    toRat (.finite s k) = signed s (grid k.val) := by
  rw [toRat_eq_grid, place, signed]
  split
  · rw [grid_neg]
  · rfl

theorem place_mod_two (x : Binary64) (h : significand x.magnitudeRank % 2 = 0) :
    x.place % 2 = 0 := by
  match x with
  | .nan _ | .infinity _ => rfl
  | .finite s k =>
    rw [magnitudeRank, significand_mod_two] at h
    rw [place]
    split <;> omega

end TrialSummary.Binary64
