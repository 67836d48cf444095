import TrialSummary.Decimal.Basic
import TrialSummary.Proofs.Binary64.Rounding

/-!
# The number of a decimal

The number of a decimal is its exact value, rounded once. The two shortcuts for values that are
certainly too large or too small agree with that, so the number depends on the value alone: zeros
moved between the coefficient and the exponent change nothing.
-/

namespace TrialSummary.Decimal

open Binary64

/-- The exact value of a decimal, in units, as the numerator of a quotient. -/
def scaledCoefficient (d : Decimal) : Nat := d.coefficient * 10 ^ d.exponent.toNat * oneUnits

def scale (d : Decimal) : Nat := 10 ^ (-d.exponent).toNat

theorem scale_pos (d : Decimal) : 0 < d.scale := Nat.pow_pos (by decide)

/-- A power of ten in powers of two: 205 binary places for 62 decimal ones. -/
theorem two_pow_le_ten_pow (e : Nat) : 2 ^ (205 * (e / 62)) ≤ 10 ^ e := by
  calc 2 ^ (205 * (e / 62)) = (2 ^ 205) ^ (e / 62) := Nat.pow_mul ..
    _ ≤ (10 ^ 62) ^ (e / 62) := Nat.pow_le_pow_left (by decide) _
    _ = 10 ^ (62 * (e / 62)) := (Nat.pow_mul ..).symm
    _ ≤ 10 ^ e := Nat.pow_le_pow_right (by decide) (Nat.mul_div_le e 62)

theorem two_pow_mul_oneUnits (n : Nat) : 2 ^ n * oneUnits = 2 ^ (n + 1074) := by
  rw [oneUnits_eq, Nat.pow_add]

theorem ofQuotient_of_large_exponent (s : Bool) {c e : Nat} (hc : c ≠ 0) (he : 310 ≤ e) :
    ofQuotient s (c * 10 ^ e * oneUnits) 1 = .infinity s := by
  apply ofQuotient_of_le s (205 * (e / 62) + 1074)
  · omega
  · calc 2 ^ (205 * (e / 62) + 1074) = 2 ^ (205 * (e / 62)) * oneUnits :=
          (two_pow_mul_oneUnits _).symm
      _ ≤ c * 10 ^ e * oneUnits := Nat.mul_le_mul_right _
          (Nat.le_trans (two_pow_le_ten_pow e)
            (Nat.le_mul_of_pos_left _ (Nat.pos_of_ne_zero hc)))
      _ = c * 10 ^ e * oneUnits / 1 := (Nat.div_one _).symm

theorem ofQuotient_of_small_exponent (s : Bool) {c e : Nat} (h : c.log2 + 1077 ≤ 3 * e) :
    ofQuotient s (c * oneUnits) (10 ^ e) = zero s := by
  apply ofQuotient_of_two_mul_lt
  have hc : 2 * c < 2 ^ (c.log2 + 2) := by
    rw [Nat.pow_succ', Nat.mul_lt_mul_left (by decide)]
    exact Nat.lt_log2_self
  calc 2 * (c * oneUnits) = 2 * c * oneUnits := (Nat.mul_assoc ..).symm
    _ < 2 ^ (c.log2 + 2) * oneUnits := (Nat.mul_lt_mul_right oneUnits_pos).mpr hc
    _ = 2 ^ (c.log2 + 2 + 1074) := two_pow_mul_oneUnits _
    _ ≤ 2 ^ (3 * e) := Nat.pow_le_pow_right (by decide) (by omega)
    _ = 8 ^ e := Nat.pow_mul ..
    _ ≤ 10 ^ e := Nat.pow_le_pow_left (by decide) e

/-- The number of a decimal is its exact value rounded once. -/
theorem toBinary64_eq_ofQuotient (s : Bool) (d : Decimal) :
    d.toBinary64 s = ofQuotient s d.scaledCoefficient d.scale := by
  obtain ⟨c, e⟩ := d
  by_cases hc : c = 0
  · subst hc
    have hzero : scaledCoefficient ⟨0, e⟩ = 0 := by simp only [scaledCoefficient, Nat.zero_mul]
    have hround : ofQuotient s 0 (scale ⟨0, e⟩) = zero s :=
      ofQuotient_of_two_mul_lt s (by simpa only [Nat.mul_zero] using scale_pos ⟨0, e⟩)
    rw [hzero, hround, toBinary64_zero]
  · cases e with
    | ofNat e =>
      have hround : ofQuotient s (scaledCoefficient ⟨c, .ofNat e⟩) (scale ⟨c, .ofNat e⟩) =
          ofQuotient s (c * 10 ^ e * oneUnits) 1 := by
        simp only [scaledCoefficient, scale, Int.ofNat_eq_natCast, Int.toNat_natCast,
          Int.toNat_neg_natCast, Nat.pow_zero]
      simp only [toBinary64, if_neg hc, hround]
      split
      · next he => exact (ofQuotient_of_large_exponent s hc he).symm
      · rfl
    | negSucc e =>
      have hround : ofQuotient s (scaledCoefficient ⟨c, .negSucc e⟩) (scale ⟨c, .negSucc e⟩) =
          ofQuotient s (c * oneUnits) (10 ^ (e + 1)) := by
        simp only [scaledCoefficient, scale, Int.toNat_negSucc, Int.neg_negSucc, Int.toNat_natCast,
          Nat.pow_zero, Nat.mul_one]
      simp only [toBinary64, if_neg hc, hround]
      split
      · next he => exact (ofQuotient_of_small_exponent s he).symm
      · rfl

theorem toBinary64_shift (s : Bool) (c j : Nat) (e : Int) :
    toBinary64 s ⟨c * 10 ^ j, e - j⟩ = toBinary64 s ⟨c, e⟩ := by
  rw [toBinary64_eq_ofQuotient, toBinary64_eq_ofQuotient]
  apply ofQuotient_congr s (scale_pos _) (scale_pos _)
  have hpow : j + (e - j).toNat + (-e).toNat = e.toNat + (-(e - j)).toNat := by omega
  simp only [scaledCoefficient, scale]
  generalize oneUnits = unit
  calc c * 10 ^ j * 10 ^ (e - j).toNat * unit * 10 ^ (-e).toNat
      = c * 10 ^ (j + (e - j).toNat + (-e).toNat) * unit := by
        simp only [Nat.pow_add]; ac_rfl
    _ = c * 10 ^ (e.toNat + (-(e - j)).toNat) * unit := by rw [hpow]
    _ = c * 10 ^ e.toNat * unit * 10 ^ (-(e - j)).toNat := by
        simp only [Nat.pow_add]; ac_rfl

end TrialSummary.Decimal
