import TrialSummary.Proofs.Binary64.Overflow

/-!
# The values that are rounded to a number

The values that are rounded to one magnitude are an interval around it. Its ends are the middles
between the magnitude and its two neighbours, and they belong to it exactly if the index is even.

The magnitude stands in the middle of its interval, except where the neighbour below is only half as
far away as the neighbour above: that is so for the powers of two from `2 ^ (-1021)` on, and for
nothing else. Elsewhere a value that is nearer than one of the interval is in the interval itself.
-/

namespace TrialSummary.Binary64

/-- The values between the middles in front of and behind a magnitude, the middles included if the
index is even. -/
structure RoundsTo (q : Rat) (k : Nat) : Prop where
  ge : grid (k - 1) + grid k ≤ 2 * q
  le : 2 * q ≤ grid k + grid (k + 1)
  even_of_eq_lower : 2 * q = grid (k - 1) + grid k → k % 2 = 0
  even_of_eq_upper : 2 * q = grid k + grid (k + 1) → k % 2 = 0

theorem grid_pos {k : Nat} (hk : 0 < k) : 0 < grid k := by
  rw [← grid_zero]
  exact strictMono_grid (by exact_mod_cast hk)

theorem grid_pred_lt (k : Nat) : grid (k - 1) < grid k := strictMono_grid (sub_one_lt _)

theorem grid_lt_succ (k : Nat) : grid k < grid (k + 1) := strictMono_grid (lt_add_one _)

/-- A quotient stands in the interval of the magnitude to which it is rounded. -/
theorem roundsTo_nearestIndex (n : Nat) {d : Nat} (hd : 0 < d) :
    RoundsTo (quotient n d) (nearestIndex n d) := by
  obtain ⟨hupper, hupperEven⟩ := two_mul_le_border n hd
  refine ⟨?_, (two_mul_quotient_le_iff _ n hd).mpr hupper, ?_, ?_⟩
  · cases hk : nearestIndex n d with
    | zero =>
      have hquotient : 0 ≤ quotient n d :=
        div_nonneg (Nat.cast_nonneg n) (mul_oneUnits_cast_pos hd).le
      have hbelow := grid_pred_lt 0
      have hzero : grid (0 : Nat) = 0 := grid_zero
      linarith
    | succ k =>
      rw [Nat.cast_succ, add_sub_cancel_right]
      exact (le_two_mul_quotient_iff k n hd).mpr (border_le_two_mul hd hk).1
  · intro htie
    cases hk : nearestIndex n d with
    | zero => rfl
    | succ k =>
      rw [hk, Nat.cast_succ, add_sub_cancel_right] at htie
      obtain ⟨hborder, heven⟩ := border_le_two_mul hd hk
      exact heven (hborder.antisymm ((two_mul_quotient_le_iff k n hd).mp htie.le))
  · exact fun htie => hupperEven (hupper.antisymm ((le_two_mul_quotient_iff _ n hd).mp htie.ge))

namespace RoundsTo

variable {p q r : Rat} {j k : Nat}

theorem unique (hj : RoundsTo q j) (hk : RoundsTo q k) : j = k := by
  wlog hlt : j < k generalizing j k
  · rcases lt_trichotomy j k with h | h | h
    · exact this hj hk h
    · exact h
    · exact (this hk hj h).symm
  -- the one ends where the other begins, and not both of the two have an even index
  have hnext : grid (j + 1) ≤ grid k := strictMono_grid.monotone (by exact_mod_cast hlt)
  have hprevious : grid j ≤ grid (k - 1) := strictMono_grid.monotone (by omega)
  have hge := hk.ge
  have hle := hj.le
  have hjEven := hj.even_of_eq_upper (by linarith)
  have hkEven := hk.even_of_eq_lower (by linarith)
  have hplace : (j : Int) = k - 1 := strictMono_grid.injective (by linarith)
  omega

theorem pos (h : RoundsTo q k) (hk : 0 < k) : 0 < q := by
  have hge := h.ge
  have hpos := grid_pos hk
  have hprevious : grid 0 ≤ grid (k - 1) := strictMono_grid.monotone (by omega)
  rw [grid_zero] at hprevious
  linarith

theorem of_between (hq : RoundsTo q k) (hr : RoundsTo r k) (hqp : q ≤ p) (hpr : p ≤ r) :
    RoundsTo p k := by
  have hge := hq.ge
  have hle := hr.le
  refine ⟨by linarith, by linarith, fun h => hq.even_of_eq_lower ?_,
    fun h => hr.even_of_eq_upper ?_⟩ <;> linarith

end RoundsTo

/-- A magnitude is in its interval, and on neither end of it. -/
theorem roundsTo_grid (k : Nat) : RoundsTo (grid k) k := by
  have hlower := grid_pred_lt k
  have hupper := grid_lt_succ k
  refine ⟨by linarith, by linarith, fun h => ?_, fun h => ?_⟩ <;> linarith

theorem nearestIndex_eq_iff (n : Nat) {d k : Nat} (hd : 0 < d) :
    nearestIndex n d = k ↔ RoundsTo (quotient n d) k := by
  refine ⟨?_, (roundsTo_nearestIndex n hd).unique⟩
  rintro rfl
  exact roundsTo_nearestIndex n hd

theorem ofQuotient_eq_finite_iff {s : Bool} (n : Nat) {d : Nat} {k : Fin finiteCount} (hd : 0 < d) :
    ofQuotient s n d = .finite s k ↔ RoundsTo (quotient n d) k := by
  rw [← nearestIndex_eq_iff n hd, ofQuotient]
  split
  · simp [Fin.ext_iff]
  · next h => simpa using fun heq : nearestIndex n d = k => h (heq ▸ k.isLt)

/-- The two neighbours of a magnitude are equally far away. -/
def EvenGaps (k : Nat) : Prop := grid (k - 1) + grid (k + 1) = 2 * grid k

/-- If the magnitude stands in the middle of its interval, whatever is as near as a value of the
interval is in the interval. -/
theorem RoundsTo.of_near {p q : Rat} {k : Nat} (hq : RoundsTo q k) (hgaps : EvenGaps k)
    (hp : |p - grid k| ≤ |q - grid k|) : RoundsTo p k := by
  rw [EvenGaps] at hgaps
  have hmirror : RoundsTo (2 * grid k - q) k := by
    have hge := hq.ge
    have hle := hq.le
    refine ⟨by linarith, by linarith, fun h => hq.even_of_eq_upper ?_,
      fun h => hq.even_of_eq_lower ?_⟩ <;> linarith
  obtain ⟨hlower, hupper⟩ := abs_le.mp hp
  rcases le_total q (grid k) with hbelow | habove
  · rw [abs_of_nonpos (by linarith)] at hlower hupper
    exact hq.of_between hmirror (by linarith) (by linarith)
  · rw [abs_of_nonneg (by linarith)] at hlower hupper
    exact hmirror.of_between hq (by linarith) (by linarith)

section Gaps

/-- The magnitudes of a block are multiples of one last place. -/
theorem grid_block {place m : Nat} (hm : m ≤ 2 ^ 53) (hfull : place = 0 ∨ 2 ^ 52 ≤ m) :
    grid (place * 2 ^ 52 + m : Nat) = m * (2 ^ place / oneUnits) := by
  rw [grid_natCast, units_block hm hfull, ← mul_div_assoc]
  push_cast
  rfl

theorem grid_block_succ {place m : Nat} (hm : m < 2 ^ 53) (hfull : place = 0 ∨ 2 ^ 52 ≤ m) :
    grid ((place * 2 ^ 52 + m : Nat) + 1) = (m + 1) * (2 ^ place / oneUnits) := by
  have hnext := grid_block (show m + 1 ≤ 2 ^ 53 from hm) (show place = 0 ∨ 2 ^ 52 ≤ m + 1 by omega)
  rw [← Nat.add_assoc, Nat.cast_succ, Nat.cast_succ] at hnext
  exact hnext

theorem grid_of_le {k : Nat} (hk : k ≤ 2 ^ 53) : grid k = k * (1 / oneUnits) := by
  have hblock := grid_block hk (.inl (Eq.refl 0))
  rwa [Nat.zero_mul, Nat.zero_add, pow_zero] at hblock

/-- Only powers of two have neighbours at different distances. -/
theorem evenGaps_or_eq_two_pow (k : Nat) : EvenGaps k ∨ ∃ e : Int, -1021 ≤ e ∧ grid k = 2 ^ e := by
  obtain ⟨place, m, rfl, hm, hfull⟩ := exists_block k
  by_cases hfirst : 0 < place ∧ m = 2 ^ 52
  · obtain ⟨hplace, rfl⟩ := hfirst
    refine .inr ⟨place - 1022, by omega, ?_⟩
    have hexponent : (place : Int) - 1022 = 52 + (place - 1074) := by omega
    rw [grid_block (by omega) (.inr le_rfl), oneUnits_cast, hexponent, zpow_add₀ two_ne_zero,
      zpow_sub₀ two_ne_zero]
    norm_cast
  · left
    rcases Nat.eq_zero_or_pos m with rfl | hpos
    · obtain rfl : place = 0 := by omega
      have hmirror := grid_neg 1
      simp [EvenGaps, hmirror]
    · obtain ⟨i, rfl⟩ : ∃ i, m = i + 1 := ⟨m - 1, by omega⟩
      have hself := grid_block hm.le hfull
      have hnext := grid_block_succ hm hfull
      have hprevious : grid ((place * 2 ^ 52 + (i + 1) : Nat) - 1) = i * (2 ^ place / oneUnits) := by
        rw [← Nat.add_assoc, Nat.cast_succ, add_sub_cancel_right]
        exact grid_block (by omega) (by omega)
      rw [EvenGaps, hprevious, hnext, hself]
      push_cast
      ring

/-- The neighbour above is not nearer than the neighbour below. -/
theorem two_mul_grid_le {k : Nat} (hk : 0 < k) : 2 * grid k ≤ grid (k - 1) + grid (k + 1) := by
  obtain ⟨j, rfl⟩ : ∃ j, k = j + 1 := ⟨k - 1, by omega⟩
  rw [Nat.cast_succ, add_sub_cancel_right]
  obtain ⟨place, m, rfl, hm, hfull⟩ := exists_block j
  have hplace : (0 : Rat) < 2 ^ place / oneUnits := div_pos (by positivity) oneUnits_cast_pos
  have hafter : (m + 2) * (2 ^ place / oneUnits) ≤ grid ((place * 2 ^ 52 + m : Nat) + 1 + 1) := by
    rcases Nat.lt_or_eq_of_le (show m + 1 ≤ 2 ^ 53 from hm) with hlt | heq
    · have hnext := grid_block_succ hlt (show place = 0 ∨ 2 ^ 52 ≤ m + 1 by omega)
      rw [← Nat.add_assoc, Nat.cast_succ] at hnext
      rw [hnext]
      push_cast
      linarith
    · -- the magnitude behind the next one is the second of its block
      have hindex : ((place * 2 ^ 52 + m : Nat) : Int) + 1 + 1 =
          ((place + 1) * 2 ^ 52 + (2 ^ 52 + 1) : Nat) := by
        push_cast
        omega
      have hcount : (m : Rat) + 2 = 2 ^ 53 + 1 := by exact_mod_cast congrArg (· + 1) heq
      have hdouble : (2 : Rat) ^ (place + 1) / oneUnits = 2 * (2 ^ place / oneUnits) := by
        rw [pow_succ', mul_div_assoc]
      rw [hindex, grid_block (by omega) (by omega), hdouble, hcount]
      push_cast
      linarith
  rw [grid_block hm.le hfull, grid_block_succ hm hfull]
  linarith

/-- Only among the first magnitudes the next one is farther off by a tenth. -/
theorem lt_ten_of_grid_lt {k : Nat} (h : grid k < 10 * (grid (k + 1) - grid k)) : k < 10 := by
  obtain ⟨place, m, rfl, hm, hfull⟩ := exists_block k
  have hplace : (0 : Rat) < 2 ^ place / oneUnits := div_pos (by positivity) oneUnits_cast_pos
  rw [grid_block hm.le hfull, grid_block_succ hm hfull] at h
  have hlt : (m : Rat) < 10 := by
    refine lt_of_mul_lt_mul_right ?_ hplace.le
    linarith
  have : m < 10 := by exact_mod_cast hlt
  omega

end Gaps

end TrialSummary.Binary64
