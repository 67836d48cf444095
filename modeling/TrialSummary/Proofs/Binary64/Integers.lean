import Mathlib.Data.Rat.Floor
import TrialSummary.Proofs.Binary64.Overflow

/-!
# Numbers and integers of 64 bits

A number becomes an integer by losing its fraction, so it moves toward zero. Integers out of range
end at the nearer end of the range, and so do infinities. An integer becomes the number nearest to
it; there always is a finite one, and it has the sign of the integer, zero being positive.
-/

namespace TrialSummary.Binary64

variable {q : Rat} {x y : Binary64}

def truncate (q : Rat) : Int := if q < 0 then ⌈q⌉ else ⌊q⌋

/-- The integer of 64 bits that is nearest to an integer. -/
def saturate (z : Int) : Int := max Int64.minValue.toInt (min z Int64.maxValue.toInt)

theorem truncate_neg (hq : 0 ≤ q) : truncate (-q) = -truncate q := by
  rcases hq.eq_or_lt with rfl | hpos
  · rfl
  · rw [truncate, truncate, if_pos (neg_neg_of_pos hpos), if_neg (not_lt.mpr hq), Int.ceil_neg]

/-- The fraction of a number is what is left when its units are put together to ones. -/
theorem truncate_toRat (s : Bool) (k : Fin finiteCount) :
    truncate (toRat (.finite s k)) =
      if s then -(units k / oneUnits : Int) else units k / oneUnits := by
  have hnonneg : 0 ≤ grid k.val := by
    rw [grid_natCast]
    exact div_nonneg (Nat.cast_nonneg _) oneUnits_cast_pos.le
  have hwhole : truncate (grid k.val) = units k / oneUnits := by
    rw [truncate, if_neg (not_lt.mpr hnonneg), grid_natCast]
    exact Rat.floor_natCast_div_natCast _ _
  rw [toRat_finite, signed]
  split
  · rw [truncate_neg hnonneg, hwhole]
  · exact hwhole

/-- A finite number loses its fraction and is then brought into range. -/
theorem toInt_toInt64 (hx : x.isFinite = true) :
    x.toInt64.toInt = saturate (truncate x.toRat) := by
  obtain ⟨s, k, rfl⟩ := exists_finite hx
  have hmin : Int64.minValue.toInt = -2 ^ 63 := Int64.toInt_minValue
  have hmax : Int64.maxValue.toInt = 2 ^ 63 - 1 := Int64.toInt_maxValue
  rw [truncate_toRat, toInt64]
  generalize (if s then -(units k / oneUnits : Int) else units k / oneUnits) = z
  rw [saturate]
  split
  · omega
  · split
    · omega
    · rw [Int64.toInt_ofInt_of_le] <;> omega

theorem ofInt64_eq_ofUnits (n : Int64) : ofInt64 n = ofUnits (n.toInt * oneUnits) := rfl

/-- An integer becomes the number nearest to it. -/
theorem nearestTo_ofInt64 (n : Int64) : NearestTo n.toInt (ofInt64 n) := by
  have hnear := nearestTo_ofUnits (isFinite_ofInt64 n)
  rwa [Int.cast_mul, Int.cast_natCast, mul_div_cancel_right₀ _ oneUnits_cast_pos.ne'] at hnear

theorem negative_ofQuotient (s : Bool) (n d : Nat) : (ofQuotient s n d).negative = s := by
  rw [ofQuotient]
  split <;> rfl

theorem negative_ofInt64 (n : Int64) : (ofInt64 n).negative = decide (n.toInt < 0) := by
  have hone : (0 : Int) < oneUnits := by exact_mod_cast oneUnits_pos
  have hsign : n.toInt * oneUnits < 0 * oneUnits ↔ n.toInt < 0 := mul_lt_mul_iff_of_pos_right hone
  rw [zero_mul] at hsign
  rw [ofInt64_eq_ofUnits, ofUnits, negative_ofQuotient, decide_eq_decide]
  exact hsign

theorem eq_of_toRat_eq (hx : x.isFinite = true) (hy : y.isFinite = true)
    (hsign : x.negative = y.negative) (h : x.toRat = y.toRat) : x = y := by
  obtain ⟨s, j, rfl⟩ := exists_finite hx
  obtain ⟨t, k, rfl⟩ := exists_finite hy
  obtain rfl : s = t := hsign
  rw [toRat_eq_grid, toRat_eq_grid] at h
  have hplace := strictMono_grid.injective h
  congr 1
  rw [place, place] at hplace
  split at hplace <;> omega

/-- Only one number of a sign is nearest to a value. -/
theorem NearestTo.unique (hx : NearestTo q x) (hy : NearestTo q y)
    (hsign : x.negative = y.negative) : x = y :=
  eq_of_toRat_eq hx.isFinite hy.isFinite hsign (hx.toRat_unique hy)

end TrialSummary.Binary64
