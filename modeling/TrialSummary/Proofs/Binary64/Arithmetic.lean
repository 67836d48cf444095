import TrialSummary.Proofs.Binary64.Nearest

/-!
# Arithmetic with one rounding

A sum of finite numbers is the number nearest to the sum of their values, and so is a quotient for the
quotient of the values, as long as it is finite. It is exact if the value stands on the grid. This is
so for twice a number, if that is finite, and for whole numbers up to `2 ^ 53`.
-/

namespace TrialSummary.Binary64

variable {x y : Binary64}

theorem exists_finite (h : x.isFinite = true) : ∃ s k, x = .finite s k := by
  match x with
  | .finite s k => exact ⟨s, k, rfl⟩

theorem isFinite_ofQuotient_of_le (s : Bool) {n d k : Nat} (hd : 0 < d) (hk : k < finiteCount)
    (h : n ≤ units k * d) : (ofQuotient s n d).isFinite = true := by
  rw [isFinite_ofQuotient_iff]
  refine Nat.lt_of_le_of_lt (not_lt.mp fun hlt => ?_) hk
  obtain ⟨j, hj⟩ := Nat.exists_eq_succ_of_ne_zero (Nat.ne_zero_of_lt hlt)
  have hborder := (border_le_two_mul hd hj).1
  have habove : 2 * units k < border j := by
    have hle : units k ≤ units j := strictMono_units.monotone (by omega)
    have hnext := units_lt_units_succ j
    rw [border]
    omega
  have := (Nat.mul_lt_mul_right hd).mpr habove
  have hexpand : 2 * units k * d = 2 * (units k * d) := Nat.mul_assoc ..
  omega

theorem signed_quotient_natAbs (z : Int) :
    signed (decide (z < 0)) (quotient z.natAbs 1) = z / oneUnits := by
  rw [signed, quotient, Nat.cast_one, one_mul]
  by_cases hz : z < 0
  · have habs : (z.natAbs : Int) = -z := by omega
    have hcast : (z.natAbs : Rat) = -z := by rw [← Int.cast_natCast, habs, Int.cast_neg]
    rw [if_pos (decide_eq_true hz), hcast, neg_div, neg_neg]
  · have habs : (z.natAbs : Int) = z := by omega
    have hcast : (z.natAbs : Rat) = z := by rw [← Int.cast_natCast, habs]
    rw [if_neg (by simpa using hz), hcast]

theorem nearestTo_ofUnits {z : Int} (h : (ofUnits z).isFinite = true) :
    NearestTo (z / oneUnits) (ofUnits z) := by
  rw [← signed_quotient_natAbs]
  exact nearestTo_ofQuotient _ Nat.one_pos h

theorem add_finite (s t : Bool) (j k : Fin finiteCount) :
    finite s j + finite t k =
      if signedUnits s j + signedUnits t k = 0 then zero (s && t)
      else ofUnits (signedUnits s j + signedUnits t k) := rfl

@[simp] theorem toRat_zero (s : Bool) : (zero s).toRat = 0 := by
  have hplace : (zero s).place = 0 := by cases s <;> rfl
  rw [toRat_eq_grid, hplace, grid_zero]

theorem nearestTo_add (hx : x.isFinite = true) (hy : y.isFinite = true)
    (h : (x + y).isFinite = true) : NearestTo (x.toRat + y.toRat) (x + y) := by
  obtain ⟨s, j, rfl⟩ := exists_finite hx
  obtain ⟨t, k, rfl⟩ := exists_finite hy
  have hvalue : toRat (.finite s j) + toRat (.finite t k) =
      (signedUnits s j + signedUnits t k : Int) / oneUnits := by
    rw [toRat, toRat, ← add_div, Int.cast_add]
  rw [add_finite] at h ⊢
  rw [hvalue]
  split at h
  · next hzero =>
    have hself := nearestTo_toRat (x := zero (s && t)) rfl
    rwa [hzero, if_pos rfl, Int.cast_zero, zero_div, ← toRat_zero (s && t)]
  · next hne =>
    rw [if_neg hne]
    exact nearestTo_ofUnits h

theorem ofUnits_gridUnits {z : Int} (hz : z.natAbs < finiteCount) :
    (ofUnits (gridUnits z)).isFinite = true ∧ (ofUnits (gridUnits z)).toRat = grid z := by
  have hfinite : (ofUnits (gridUnits z)).isFinite = true := by
    apply isFinite_ofQuotient_of_le _ Nat.one_pos hz
    rw [natAbs_gridUnits, Nat.mul_one]
  exact ⟨hfinite, (nearestTo_ofUnits hfinite).toRat_eq⟩

/-- A sum that stands on the grid is exact. -/
theorem add_of_grid {z : Int} (hx : x.isFinite = true) (hy : y.isFinite = true)
    (hz : z.natAbs < finiteCount) (h : x.toRat + y.toRat = grid z) :
    (x + y).isFinite = true ∧ (x + y).toRat = grid z := by
  obtain ⟨s, j, rfl⟩ := exists_finite hx
  obtain ⟨t, k, rfl⟩ := exists_finite hy
  have hunits : signedUnits s j + signedUnits t k = gridUnits z := by
    rw [toRat, toRat, ← add_div, grid, div_left_inj' oneUnits_cast_pos.ne'] at h
    exact_mod_cast h
  rw [add_finite]
  split
  · next hzero =>
    refine ⟨rfl, ?_⟩
    rw [toRat_zero, grid, ← hunits, hzero, Int.cast_zero, zero_div]
  · rw [hunits]
    exact ofUnits_gridUnits hz

theorem div_finite (s t : Bool) (j k : Fin finiteCount) (hk : k.val ≠ 0) :
    finite s j / finite t k = ofQuotient (s ^^ t) (units j * oneUnits) (units k) := by
  change (if k.val = 0 then _ else _) = _
  rw [if_neg hk]

theorem nearestTo_div (hx : x.isFinite = true) (hy : y.isFinite = true) (hne : y.toRat ≠ 0)
    (h : (x / y).isFinite = true) : NearestTo (x.toRat / y.toRat) (x / y) := by
  obtain ⟨s, j, rfl⟩ := exists_finite hx
  obtain ⟨t, k, rfl⟩ := exists_finite hy
  have hk : k.val ≠ 0 := by
    intro hzero
    rw [toRat_finite, hzero, Nat.cast_zero, grid_zero] at hne
    cases t <;> simp [signed] at hne
  have hunits : 0 < units k := by
    rw [← units_zero]
    exact strictMono_units (Nat.pos_of_ne_zero hk)
  have hvalue : toRat (.finite s j) / toRat (.finite t k) =
      signed (s ^^ t) (quotient (units j * oneUnits) (units k)) := by
    have hcancel : (units j : Rat) / oneUnits / (units k / oneUnits) =
        units j * oneUnits / (units k * oneUnits) := by
      rw [div_div_div_cancel_right₀ oneUnits_cast_pos.ne',
        mul_div_mul_right _ _ oneUnits_cast_pos.ne']
    rw [toRat_finite, toRat_finite, signed_div_signed, grid_natCast, grid_natCast, quotient,
      Nat.cast_mul, hcancel]
  rw [div_finite s t j k hk] at h ⊢
  rw [hvalue]
  exact nearestTo_ofQuotient _ hunits h

/-- Dividing by one or more does not overflow. -/
theorem isFinite_div (hx : x.isFinite = true) (hy : y.isFinite = true) (hone : 1 ≤ y.toRat) :
    (x / y).isFinite = true := by
  obtain ⟨s, j, rfl⟩ := exists_finite hx
  obtain ⟨t, k, rfl⟩ := exists_finite hy
  have hunits : oneUnits ≤ units k := by
    have hgrid : 1 ≤ grid k.val := by
      have hnonneg : 0 ≤ grid k.val := by
        rw [← grid_zero]
        exact strictMono_grid.monotone (Int.natCast_nonneg _)
      rw [toRat_finite, signed] at hone
      split at hone <;> linarith
    rw [grid_natCast, one_le_div₀ oneUnits_cast_pos] at hgrid
    exact_mod_cast hgrid
  have hpos : 0 < units k := Nat.lt_of_lt_of_le oneUnits_pos hunits
  have hk : k.val ≠ 0 := by
    intro hzero
    rw [hzero, units_zero] at hpos
    exact absurd hpos (lt_irrefl 0)
  rw [div_finite s t j k hk]
  exact isFinite_ofQuotient_of_le _ hpos j.isLt (Nat.mul_le_mul_left _ hunits)

theorem exists_grid_eq_intCast {z : Int} (hz : z.natAbs ≤ 2 ^ 53) :
    ∃ p, grid p = z ∧ p.natAbs < finiteCount := by
  obtain ⟨k, hk⟩ := exists_units_eq 1074 hz
  have hunits : units k = z.natAbs * oneUnits := by rw [hk, oneUnits_eq]
  have hcount : k < finiteCount := by
    rw [← strictMono_units.lt_iff_lt, hunits, units_finiteCount, Nat.mul_lt_mul_right oneUnits_pos]
    exact Nat.lt_of_le_of_lt hz (pow_lt_pow_right₀ one_lt_two (by decide))
  have hgrid : grid k = z.natAbs := by
    rw [grid_natCast, hunits, Nat.cast_mul, mul_div_cancel_right₀ _ oneUnits_cast_pos.ne']
  rcases Int.natAbs_eq z with h | h
  · refine ⟨k, ?_, by simpa using hcount⟩
    rw [hgrid, h]
    simp
  · refine ⟨-k, ?_, by simpa using hcount⟩
    rw [grid_neg, hgrid, h]
    simp

theorem ofNat_of_le {n : Nat} (hn : n ≤ 2 ^ 53) :
    (ofNat n).isFinite = true ∧ (ofNat n).toRat = n := by
  obtain ⟨p, hp, hcount⟩ := exists_grid_eq_intCast (z := n) (by simpa using hn)
  have hunits : (n : Int) * oneUnits = gridUnits p := by
    rw [grid, div_eq_iff oneUnits_cast_pos.ne'] at hp
    exact_mod_cast hp.symm
  obtain ⟨hfinite, hvalue⟩ := ofUnits_gridUnits hcount
  rw [ofNat, ofInt, hunits, hvalue, hp]
  exact ⟨hfinite, by simp⟩

end TrialSummary.Binary64
