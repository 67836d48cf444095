import Mathlib.Algebra.Group.Nat.Defs
import TrialSummary.Binary64.Rounding

/-!
# Rounding of quotients

A quotient is rounded as a number, not as a pair: two ways of writing it are rounded alike. A whole
number of units that has an index is rounded to that index, so finite numbers survive the rounding.
Quotients of `2 ^ 2098` units or more overflow, and those under half a unit are rounded to zero.
-/

namespace TrialSummary

theorem divNearestEven_mul_left {a : Nat} (ha : 0 < a) (n d : Nat) :
    divNearestEven (a * n) (a * d) = divNearestEven n d := by
  have below : 2 * (a * (n % d)) < a * d ↔ 2 * (n % d) < d := by
    rw [Nat.mul_left_comm]
    exact Nat.mul_lt_mul_left ha
  have above : a * d < 2 * (a * (n % d)) ↔ d < 2 * (n % d) := by
    rw [Nat.mul_left_comm]
    exact Nat.mul_lt_mul_left ha
  simp only [divNearestEven, Nat.mul_div_mul_left n d ha, Nat.mul_mod_mul_left, below, above]

theorem divNearestEven_mul_right (q : Nat) {d : Nat} (hd : 0 < d) :
    divNearestEven (q * d) d = q := by
  simp [divNearestEven, Nat.mul_div_cancel q hd, hd]

theorem divNearestEven_of_two_mul_lt {n d : Nat} (h : 2 * n < d) : divNearestEven n d = 0 := by
  have hn : n < d := by omega
  simp [divNearestEven, Nat.div_eq_of_lt hn, Nat.mod_eq_of_lt hn, h]

theorem div_le_divNearestEven (n d : Nat) : n / d ≤ divNearestEven n d := by
  unfold divNearestEven
  dsimp only
  split
  · exact Nat.le_refl _
  · split <;> omega

namespace Binary64

theorem oneUnits_eq : oneUnits = 2 ^ 1074 := by decide +kernel

theorem oneUnits_pos : 0 < oneUnits := by decide +kernel

theorem units_eq (k : Nat) : units k = significand k * 2 ^ exponent k := rfl

theorem exponent_eq (k : Nat) : exponent k = k / 2 ^ 52 - 1 := rfl

theorem nearestIndex_eq (n d : Nat) : nearestIndex n d =
    ((n / d).log2 - 52) * 2 ^ 52 + divNearestEven n (d * 2 ^ ((n / d).log2 - 52)) := rfl

theorem nearestIndex_mul_left {a : Nat} (ha : 0 < a) (n d : Nat) :
    nearestIndex (a * n) (a * d) = nearestIndex n d := by
  simp only [nearestIndex_eq, Nat.mul_div_mul_left n d ha, Nat.mul_assoc,
    divNearestEven_mul_left ha]

theorem ofQuotient_mul_left (s : Bool) {a : Nat} (ha : 0 < a) (n d : Nat) :
    ofQuotient s (a * n) (a * d) = ofQuotient s n d := by
  simp only [ofQuotient, nearestIndex_mul_left ha]

theorem ofQuotient_congr (s : Bool) {n d n' d' : Nat} (hd : 0 < d) (hd' : 0 < d')
    (h : n * d' = n' * d) : ofQuotient s n d = ofQuotient s n' d' := by
  rw [← ofQuotient_mul_left s hd' n d, ← ofQuotient_mul_left s hd n' d', Nat.mul_comm d' n, h,
    Nat.mul_comm n' d, Nat.mul_comm d' d]

theorem significand_of_lt {k : Nat} (h : k < 2 ^ 52) : significand k = k := if_pos h

theorem significand_of_le {k : Nat} (h : 2 ^ 52 ≤ k) :
    significand k = 2 ^ 52 + k % 2 ^ 52 := if_neg (Nat.not_lt.mpr h)

/-- In a block of full significands the length of a magnitude tells its last place. -/
theorem log2_units {k : Nat} (h : 2 ^ 52 ≤ k) : (units k).log2 = 52 + exponent k := by
  have hmod : k % 2 ^ 52 < 2 ^ 52 := Nat.mod_lt _ (Nat.two_pow_pos 52)
  have hsig := significand_of_le h
  have hplace := Nat.two_pow_pos (exponent k)
  have hlower : 2 ^ 52 * 2 ^ exponent k ≤ units k := Nat.mul_le_mul_right _ (by omega)
  have hupper : units k < 2 ^ 53 * 2 ^ exponent k :=
    (Nat.mul_lt_mul_right hplace).mpr (by omega)
  rw [← Nat.pow_add] at hlower hupper
  have hne : units k ≠ 0 := Nat.ne_of_gt (Nat.lt_of_lt_of_le (Nat.two_pow_pos _) hlower)
  rw [Nat.log2_eq_iff hne, show 52 + exponent k + 1 = 53 + exponent k by omega]
  exact ⟨hlower, hupper⟩

theorem nearestIndex_units (k : Nat) : nearestIndex (units k) 1 = k := by
  rcases Nat.lt_or_ge k (2 ^ 52) with h | h
  · have hu : units k = k := by
      rw [units_eq, significand_of_lt h, exponent_eq, Nat.div_eq_of_lt h, Nat.zero_sub,
        Nat.pow_zero, Nat.mul_one]
    have hlog : k.log2 - 52 = 0 := by
      rcases Nat.eq_zero_or_pos k with rfl | hk
      · rfl
      · have := (Nat.log2_lt (Nat.ne_of_gt hk)).mpr h
        omega
    have hround := divNearestEven_mul_right k Nat.one_pos
    rw [Nat.mul_one] at hround
    rw [nearestIndex_eq, hu, Nat.div_one, hlog, Nat.zero_mul, Nat.zero_add, Nat.pow_zero,
      Nat.mul_one, hround]
  · have hdiv : 1 ≤ k / 2 ^ 52 := (Nat.one_le_div_iff (Nat.two_pow_pos 52)).mpr h
    have hsplit := Nat.div_add_mod k (2 ^ 52)
    rw [nearestIndex_eq, Nat.div_one, log2_units h, Nat.add_sub_cancel_left, Nat.one_mul, units_eq,
      divNearestEven_mul_right _ (Nat.two_pow_pos _), significand_of_le h, exponent_eq]
    omega

/-- Finite numbers survive the rounding. -/
@[simp] theorem ofQuotient_units (s : Bool) (k : Fin finiteCount) :
    ofQuotient s (units k) 1 = .finite s k := by
  simp [ofQuotient, nearestIndex_units]

theorem ofQuotient_of_two_mul_lt (s : Bool) {n d : Nat} (h : 2 * n < d) :
    ofQuotient s n d = zero s := by
  have hk : nearestIndex n d = 0 := by
    have hlt : n < d := by omega
    rw [nearestIndex_eq, Nat.div_eq_of_lt hlt, Nat.log2_zero, Nat.zero_sub, Nat.zero_mul,
      Nat.zero_add, Nat.pow_zero, Nat.mul_one, divNearestEven_of_two_mul_lt h]
  simp only [ofQuotient, hk]
  rfl

theorem ofQuotient_of_le (s : Bool) {n d : Nat} (length : Nat) (hlength : 2098 ≤ length)
    (h : 2 ^ length ≤ n / d) : ofQuotient s n d = .infinity s := by
  have hn : n / d ≠ 0 := Nat.ne_of_gt (Nat.lt_of_lt_of_le (Nat.two_pow_pos length) h)
  have hlog : 2098 ≤ (n / d).log2 := Nat.le_trans hlength ((Nat.le_log2 hn).mpr h)
  have hquot : 2 ^ 52 ≤ n / (d * 2 ^ ((n / d).log2 - 52)) := by
    rw [← Nat.div_div_eq_div_mul, Nat.le_div_iff_mul_le (Nat.two_pow_pos _), ← Nat.pow_add,
      show 52 + ((n / d).log2 - 52) = (n / d).log2 by omega]
    exact Nat.log2_self_le hn
  have hindex : finiteCount ≤ nearestIndex n d := by
    have hround := div_le_divNearestEven n (d * 2 ^ ((n / d).log2 - 52))
    have hblocks : 2046 * 2 ^ 52 ≤ ((n / d).log2 - 52) * 2 ^ 52 :=
      Nat.mul_le_mul_right _ (by omega)
    have hcount : finiteCount = 2046 * 2 ^ 52 + 2 ^ 52 := rfl
    rw [nearestIndex_eq, hcount]
    exact Nat.add_le_add hblocks (Nat.le_trans hquot hround)
  rw [ofQuotient, dif_neg (Nat.not_lt.mpr hindex)]

end Binary64

end TrialSummary
