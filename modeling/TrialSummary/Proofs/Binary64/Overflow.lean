import TrialSummary.Proofs.Binary64.Arithmetic

/-!
# Overflow

The number `2 ^ 1024` would follow the greatest finite number on the grid. A quotient below the
middle between the two is rounded to a finite number, and one that is not below it is infinite; the
middle itself is not rounded down, because the index of the greatest finite number is odd. Every
integer of 64 bits is far below.
-/

namespace TrialSummary.Binary64

/-- The middle between the greatest finite number and `2 ^ 1024`. -/
def overflowThreshold : Rat := 2 ^ 1024 - 2 ^ 970

def lastIndex : Nat := finiteCount - 1

theorem lastIndex_succ : lastIndex + 1 = finiteCount := rfl

/-- The last place of the greatest finite number weighs `2 ^ 2045` units. -/
theorem units_lastIndex_add : units lastIndex + 2 ^ 2045 = units finiteCount := by
  have hindex : lastIndex = 2045 * 2 ^ 52 + (2 ^ 53 - 1) := by decide +kernel
  have hcount : finiteCount = 2045 * 2 ^ 52 + 2 ^ 53 := by decide +kernel
  have hstep (m : Nat) : (2 ^ 53 - 1) * m + m = 2 ^ 53 * m := by omega
  rw [hindex, hcount, units_block (by omega) (.inr (by omega)),
    units_block (Nat.le_refl _) (.inr (by omega)), hstep]

theorem oneUnits_cast : (oneUnits : Rat) = 2 ^ 1074 := by
  rw [oneUnits_eq, Nat.cast_pow, Nat.cast_ofNat]

theorem grid_lastIndex_add : grid lastIndex + grid (lastIndex + 1) = 2 * overflowThreshold := by
  have hnext : (units finiteCount : Rat) = 2 ^ 1024 * 2 ^ 1074 := by
    rw [units_finiteCount, Nat.cast_mul, oneUnits_cast, Nat.cast_pow, Nat.cast_ofNat]
  have hlast : (units lastIndex : Rat) = 2 ^ 1024 * 2 ^ 1074 - 2 ^ 2045 := by
    have hcast := congrArg (Nat.cast (R := Rat)) units_lastIndex_add
    rw [Nat.cast_add, hnext, Nat.cast_pow, Nat.cast_ofNat] at hcast
    exact eq_sub_of_add_eq hcast
  have hmiddle (b : Rat) (hb : b ^ 1074 ≠ 0) :
      (b ^ 1024 * b ^ 1074 - b ^ 2045) / b ^ 1074 + b ^ 1024 * b ^ 1074 / b ^ 1074 =
        2 * b ^ 1024 - b * b ^ 970 := by
    field_simp
    ring
  have hsucc : grid (lastIndex + 1) = units finiteCount / oneUnits := grid_natCast finiteCount
  rw [hsucc, grid_natCast, hlast, hnext, oneUnits_cast, hmiddle 2 (pow_ne_zero _ two_ne_zero),
    overflowThreshold]
  exact (mul_sub ..).symm

theorem strictMono_border : StrictMono border := fun _ _ h =>
  Nat.add_lt_add (strictMono_units h) (strictMono_units (Nat.succ_lt_succ h))

/-- A quotient overflows exactly if it is not below the last border. -/
theorem finiteCount_le_nearestIndex_iff (n : Nat) {d : Nat} (hd : 0 < d) :
    finiteCount ≤ nearestIndex n d ↔ border lastIndex * d ≤ 2 * n := by
  rw [← lastIndex_succ]
  constructor
  · intro h
    obtain ⟨j, hj⟩ := Nat.exists_eq_succ_of_ne_zero (Nat.ne_zero_of_lt h)
    have hborder := strictMono_border.monotone (show lastIndex ≤ j by omega)
    exact (Nat.mul_le_mul_right d hborder).trans (border_le_two_mul hd hj).1
  · intro h
    by_contra hlt
    obtain ⟨hle, htie⟩ := two_mul_le_border n hd
    have hindexes : nearestIndex n d ≤ lastIndex := by omega
    have hbelow := Nat.mul_le_mul_right d (strictMono_border.monotone hindexes)
    -- the quotient is on the last border, which belongs to an odd index
    have hborder : border (nearestIndex n d) = border lastIndex :=
      Nat.eq_of_mul_eq_mul_right hd (by omega)
    have heven := htie (by omega)
    rw [strictMono_border.injective hborder] at heven
    exact absurd heven (by decide)

/-- A quotient is rounded to a finite number exactly if it is below the threshold. -/
theorem isFinite_ofQuotient_iff_lt (s : Bool) (n : Nat) {d : Nat} (hd : 0 < d) :
    (ofQuotient s n d).isFinite = true ↔ quotient n d < overflowThreshold := by
  have hborder := le_two_mul_quotient_iff lastIndex n hd
  rw [grid_lastIndex_add, mul_le_mul_iff_right₀ two_pos,
    ← finiteCount_le_nearestIndex_iff n hd] at hborder
  rw [isFinite_ofQuotient_iff, ← not_le, ← not_le, hborder]

theorem ofQuotient_of_isFinite_eq_false {s : Bool} {n d : Nat}
    (h : (ofQuotient s n d).isFinite = false) : ofQuotient s n d = .infinity s := by
  rw [ofQuotient] at h ⊢
  split at h
  · cases h
  · next hlarge => rw [dif_neg hlarge]

theorem two_pow_lt_overflowThreshold : 2 ^ 63 < overflowThreshold := by
  have hsmall : (2 : Rat) ^ 63 < 2 ^ 970 := pow_lt_pow_right₀ one_lt_two (by decide)
  have hlarge : (2 : Rat) ^ 1024 = 2 ^ 54 * 2 ^ 970 := by rw [← pow_add]
  have habove (q : Rat) (hq : 2 ^ 63 < q) : 2 ^ 63 < 2 ^ 54 * q - q := by linarith
  rw [overflowThreshold, hlarge]
  exact habove _ hsmall

theorem isFinite_ofInt64 (n : Int64) : (ofInt64 n).isFinite = true := by
  have hcount : (n.toInt.natAbs : Rat) ≤ 2 ^ 63 := by
    have hlower := n.minValue_le_toInt
    have hupper := n.toInt_le
    rw [Int64.toInt_minValue] at hlower
    rw [Int64.toInt_maxValue] at hupper
    have hle : n.toInt.natAbs ≤ 2 ^ 63 := by omega
    exact_mod_cast hle
  have hquotient : quotient (n.toInt * oneUnits).natAbs 1 = n.toInt.natAbs := by
    rw [quotient, Int.natAbs_mul, Int.natAbs_natCast, Nat.cast_mul, Nat.cast_one, one_mul,
      mul_div_cancel_right₀ _ oneUnits_cast_pos.ne']
  rw [ofInt64, ofInt, ofUnits, isFinite_ofQuotient_iff_lt _ _ Nat.one_pos, hquotient]
  exact lt_of_le_of_lt hcount two_pow_lt_overflowThreshold

end TrialSummary.Binary64
