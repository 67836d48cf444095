import Mathlib.Algebra.Order.Group.Unbundled.Abs
import Mathlib.Tactic.FieldSimp
import Mathlib.Tactic.Linarith
import TrialSummary.Proofs.Binary64.Grid

/-!
# Rounding to the nearest number

Rounding a quotient gives the number of the grid that is nearest to it, and of two equally near ones
the one with an even significand. Both follow from where the quotient stands between the borders that
separate a magnitude from its neighbours: it is not above the border behind the magnitude to which it
is rounded, and not below the one in front of it.

Nothing on the grid lies between a quotient and its nearest number, so rounding does not move a
quotient past a number of the grid, and a number of the grid is rounded to itself. Sums and quotients
of finite numbers are their exact values, rounded once.
-/

namespace TrialSummary

/-- A quotient is rounded down or up, and from the middle to the even side. -/
theorem divNearestEven_cases (n d : Nat) :
    (divNearestEven n d = n / d ∧ 2 * (n % d) ≤ d ∧
      (2 * (n % d) = d → divNearestEven n d % 2 = 0)) ∨
    (divNearestEven n d = n / d + 1 ∧ d ≤ 2 * (n % d) ∧
      (2 * (n % d) = d → divNearestEven n d % 2 = 0)) := by
  unfold divNearestEven
  dsimp only
  split
  · exact .inl ⟨rfl, by omega, by omega⟩
  · split
    · exact .inr ⟨rfl, by omega, by omega⟩
    · rcases Nat.mod_two_eq_zero_or_one (n / d) with h | h
      · exact .inl ⟨by omega, by omega, by omega⟩
      · exact .inr ⟨by omega, by omega, by omega⟩

/-- A rounded quotient is at most half a step too small, and by half a step only if it is even. -/
theorem two_mul_le_divNearestEven (n : Nat) {d : Nat} (hd : 0 < d) :
    2 * n ≤ (2 * divNearestEven n d + 1) * d ∧
      (2 * n = (2 * divNearestEven n d + 1) * d → divNearestEven n d % 2 = 0) := by
  have hsplit := Nat.div_add_mod n d
  have hmod := Nat.mod_lt n hd
  have hexpand (q : Nat) : (2 * q + 1) * d = 2 * (d * q) + d := by ring
  rw [hexpand]
  obtain ⟨hq, hhalf, htie⟩ | ⟨hq, -, -⟩ := divNearestEven_cases n d
  · refine ⟨?_, fun h => htie ?_⟩
    · rw [hq]
      omega
    · rw [hq] at h
      omega
  · rw [hq, Nat.mul_add]
    omega

/-- A rounded quotient is at most half a step too large, and by half a step only if it is even. -/
theorem divNearestEven_le_two_mul (n d : Nat) :
    2 * divNearestEven n d * d ≤ 2 * n + d ∧
      (2 * divNearestEven n d * d = 2 * n + d → divNearestEven n d % 2 = 0) := by
  have hsplit := Nat.div_add_mod n d
  have hexpand (q : Nat) : 2 * q * d = 2 * (d * q) := by ring
  rw [hexpand]
  obtain ⟨hq, hhalf, htie⟩ | ⟨hq, hhalf, htie⟩ := divNearestEven_cases n d
  · refine ⟨?_, fun h => htie ?_⟩
    · rw [hq]
      omega
    · rw [hq] at h
      omega
  · refine ⟨?_, fun h => htie ?_⟩
    · rw [hq, Nat.mul_add]
      omega
    · rw [hq, Nat.mul_add] at h
      omega

namespace Binary64

/-- The whole part of a quotient has at most 53 digits in front of its last place. -/
theorem lt_of_log2 (n : Nat) {d place : Nat} (hd : 0 < d) (hplace : place = (n / d).log2 - 52) :
    n < 2 ^ 53 * (d * 2 ^ place) := by
  have hlog : n / d < 2 ^ ((n / d).log2 + 1) := Nat.lt_log2_self
  have hlt : n / d < 2 ^ (53 + place) :=
    Nat.lt_of_lt_of_le hlog (Nat.pow_le_pow_right (by decide) (by omega))
  rw [Nat.div_lt_iff_lt_mul hd, Nat.pow_add] at hlt
  calc n < 2 ^ 53 * 2 ^ place * d := hlt
    _ = 2 ^ 53 * (d * 2 ^ place) := by ring

/-- It has fewer digits only if its last place is a unit. -/
theorem le_of_log2 (n : Nat) {d place : Nat} (hd : 0 < d) (hplace : place = (n / d).log2 - 52) :
    place = 0 ∨ 2 ^ 52 * (d * 2 ^ place) ≤ n := by
  rcases Nat.eq_zero_or_pos place with hzero | hpos
  · exact .inl hzero
  · have hne : n / d ≠ 0 := by
      intro hzero
      rw [hzero, Nat.log2_zero] at hplace
      omega
    have hlog : 2 ^ (52 + place) ≤ n / d := by
      rw [hplace, Nat.add_sub_cancel' (by omega)]
      exact Nat.log2_self_le hne
    rw [Nat.le_div_iff_mul_le hd, Nat.pow_add] at hlog
    right
    calc 2 ^ 52 * (d * 2 ^ place) = 2 ^ 52 * 2 ^ place * d := by ring
      _ ≤ n := hlog

theorem nearestIndex_block (n : Nat) {d : Nat} (hd : 0 < d) :
    ∃ place m, nearestIndex n d = place * 2 ^ 52 + m ∧ m = divNearestEven n (d * 2 ^ place) ∧
      m ≤ 2 ^ 53 ∧ (place = 0 ∨ 2 ^ 52 ≤ m) ∧
      n < 2 ^ 53 * (d * 2 ^ place) ∧ (place = 0 ∨ 2 ^ 52 * (d * 2 ^ place) ≤ n) := by
  obtain ⟨place, hplace⟩ : ∃ place, place = (n / d).log2 - 52 := ⟨_, rfl⟩
  have hstep : 0 < d * 2 ^ place := Nat.mul_pos hd (Nat.two_pow_pos place)
  have hupper := lt_of_log2 n hd hplace
  have hlower := le_of_log2 n hd hplace
  refine ⟨place, _, ?_, rfl, ?_, ?_, hupper, hlower⟩
  · rw [nearestIndex_eq, ← hplace]
  · have hquot : n / (d * 2 ^ place) < 2 ^ 53 := (Nat.div_lt_iff_lt_mul hstep).mpr hupper
    obtain ⟨h, -⟩ | ⟨h, -⟩ := divNearestEven_cases n (d * 2 ^ place) <;> omega
  · refine hlower.imp_right fun h => ?_
    exact Nat.le_trans ((Nat.le_div_iff_mul_le hstep).mpr h) (div_le_divNearestEven n _)

/-- Twice the middle between a magnitude and the next one, in units. -/
def border (k : Nat) : Nat := units k + units (k + 1)

/-- A quotient is not above the border behind the magnitude to which it is rounded, and on the border
only if the index is even. -/
theorem two_mul_le_border (n : Nat) {d : Nat} (hd : 0 < d) :
    2 * n ≤ border (nearestIndex n d) * d ∧
      (2 * n = border (nearestIndex n d) * d → nearestIndex n d % 2 = 0) := by
  obtain ⟨place, m, hindex, hm, hle, hfull, hlt, -⟩ := nearestIndex_block n hd
  have hround := two_mul_le_divNearestEven n (Nat.mul_pos hd (Nat.two_pow_pos place))
  have hunits := units_block hle hfull
  rw [← hm] at hround
  rw [hindex]
  rcases Nat.lt_or_eq_of_le hle with hinside | rfl
  · have hnext : units (place * 2 ^ 52 + m + 1) = (m + 1) * 2 ^ place := by
      rw [Nat.add_assoc, units_block hinside (by omega)]
    have hborder : border (place * 2 ^ 52 + m) * d = (2 * m + 1) * (d * 2 ^ place) := by
      rw [border, hunits, hnext]
      ring
    rw [hborder]
    refine ⟨hround.1, fun h => ?_⟩
    have := hround.2 h
    omega
  · -- the quotient is still below the first magnitude of the next block
    have hnext := units_lt_units_succ (place * 2 ^ 52 + 2 ^ 53)
    have hborder : 2 * n < border (place * 2 ^ 52 + 2 ^ 53) * d := by
      calc 2 * n < 2 * (2 ^ 53 * (d * 2 ^ place)) := by omega
        _ = 2 * units (place * 2 ^ 52 + 2 ^ 53) * d := by
          rw [hunits]
          ring
        _ ≤ border (place * 2 ^ 52 + 2 ^ 53) * d := by
          apply Nat.mul_le_mul_right
          rw [border]
          omega
    exact ⟨Nat.le_of_lt hborder, fun h => absurd h (Nat.ne_of_lt hborder)⟩

/-- A quotient is not below the border in front of the magnitude to which it is rounded, and on the
border only if the index is even. -/
theorem border_le_two_mul {n d k : Nat} (hd : 0 < d) (hk : nearestIndex n d = k + 1) :
    border k * d ≤ 2 * n ∧ (border k * d = 2 * n → (k + 1) % 2 = 0) := by
  obtain ⟨place, m, hindex, hm, hle, hfull, -, hge⟩ := nearestIndex_block n hd
  have hround := divNearestEven_le_two_mul n (d * 2 ^ place)
  have hunits := units_block hle hfull
  rw [← hm] at hround
  rw [hk] at hindex
  rw [← hindex] at hunits
  by_cases hfirst : place ≠ 0 ∧ m = 2 ^ 52
  · -- the quotient has reached the first magnitude of its block
    obtain ⟨hplace, rfl⟩ := hfirst
    have hprevious := units_lt_units_succ k
    have hborder : border k * d < 2 * n := by
      calc border k * d < 2 * units (k + 1) * d := by
            rw [Nat.mul_lt_mul_right hd, border]
            omega
        _ = 2 * (2 ^ 52 * (d * 2 ^ place)) := by
          rw [hunits]
          ring
        _ ≤ 2 * n := by omega
    exact ⟨Nat.le_of_lt hborder, fun h => absurd h (Nat.ne_of_lt hborder)⟩
  · obtain ⟨m, rfl⟩ : ∃ i, m = i + 1 := ⟨m - 1, by omega⟩
    obtain rfl : k = place * 2 ^ 52 + m := by omega
    have hprevious : units (place * 2 ^ 52 + m) = m * 2 ^ place :=
      units_block (by omega) (by omega)
    have hborder : border (place * 2 ^ 52 + m) * d + d * 2 ^ place =
        2 * (m + 1) * (d * 2 ^ place) := by
      rw [border, hunits, hprevious]
      ring
    refine ⟨by omega, fun h => ?_⟩
    have := hround.2 (by omega)
    omega

theorem abs_toRat_finite (s : Bool) (k : Fin finiteCount) : |toRat (.finite s k)| = grid k.val := by
  have hnonneg : 0 ≤ grid k.val := by
    rw [grid_natCast]
    exact div_nonneg (Nat.cast_nonneg _) oneUnits_cast_pos.le
  rw [toRat_finite, signed]
  split
  · rw [abs_neg, abs_of_nonneg hnonneg]
  · rw [abs_of_nonneg hnonneg]

/-- Of two numbers the lower one is as near if the value is not above their middle. -/
theorem abs_sub_lower_le_iff {a b q : Rat} (h : a < b) : |a - q| ≤ |b - q| ↔ 2 * q ≤ a + b := by
  rcases abs_cases (a - q) with ⟨ha, _⟩ | ⟨ha, _⟩ <;>
    rcases abs_cases (b - q) with ⟨hb, _⟩ | ⟨hb, _⟩ <;> rw [ha, hb] <;>
    constructor <;> intro hle <;> linarith

/-- Of two numbers the higher one is as near if the value is not below their middle. -/
theorem abs_sub_upper_le_iff {a b q : Rat} (h : a < b) : |b - q| ≤ |a - q| ↔ a + b ≤ 2 * q := by
  rcases abs_cases (a - q) with ⟨ha, _⟩ | ⟨ha, _⟩ <;>
    rcases abs_cases (b - q) with ⟨hb, _⟩ | ⟨hb, _⟩ <;> rw [ha, hb] <;>
    constructor <;> intro hle <;> linarith

def quotient (n d : Nat) : Rat := n / (d * oneUnits)

theorem two_mul_quotient (n d : Nat) : 2 * quotient n d = (2 * n : Nat) / (d * oneUnits) := by
  rw [quotient, Nat.cast_mul, Nat.cast_ofNat, mul_div_assoc]

theorem grid_add_grid_succ (k : Nat) {d : Nat} (hd : 0 < d) :
    grid k + grid (k + 1) = (border k * d : Nat) / (d * oneUnits) := by
  have hone := oneUnits_cast_pos.ne'
  have hd' : (d : Rat) ≠ 0 := by exact_mod_cast hd.ne'
  have hnext : grid (k + 1) = units (k + 1) / oneUnits := grid_natCast (k + 1)
  rw [grid_natCast, hnext, border]
  push_cast
  field_simp

theorem mul_oneUnits_cast_pos {d : Nat} (hd : 0 < d) : (0 : Rat) < d * oneUnits :=
  mul_pos (by exact_mod_cast hd) oneUnits_cast_pos

theorem two_mul_quotient_le_iff (k n : Nat) {d : Nat} (hd : 0 < d) :
    2 * quotient n d ≤ grid k + grid (k + 1) ↔ 2 * n ≤ border k * d := by
  rw [grid_add_grid_succ k hd, two_mul_quotient,
    div_le_div_iff_of_pos_right (mul_oneUnits_cast_pos hd), Nat.cast_le]

theorem le_two_mul_quotient_iff (k n : Nat) {d : Nat} (hd : 0 < d) :
    grid k + grid (k + 1) ≤ 2 * quotient n d ↔ border k * d ≤ 2 * n := by
  rw [grid_add_grid_succ k hd, two_mul_quotient,
    div_le_div_iff_of_pos_right (mul_oneUnits_cast_pos hd), Nat.cast_le]

/-- No number of the grid is nearer to a quotient than the magnitude to which it is rounded, and
another one is equally near only if the index is even. -/
theorem nearest_grid_nearestIndex (n : Nat) {d : Nat} (hd : 0 < d) (z : Int) :
    |grid (nearestIndex n d) - quotient n d| ≤ |grid z - quotient n d| ∧
      (z ≠ nearestIndex n d →
        |grid z - quotient n d| ≤ |grid (nearestIndex n d) - quotient n d| →
        nearestIndex n d % 2 = 0) := by
  rcases lt_trichotomy z (nearestIndex n d) with hz | rfl | hz
  · have hlt := strictMono_grid hz
    rw [abs_sub_upper_le_iff hlt, abs_sub_lower_le_iff hlt]
    cases hk : nearestIndex n d with
    | zero =>
      -- the value and zero are above all numbers of the other sign
      have hzero : grid (0 : Nat) = 0 := grid_zero
      rw [hk, hzero] at hlt
      have hquotient : 0 ≤ quotient n d := div_nonneg (Nat.cast_nonneg n) (mul_oneUnits_cast_pos hd).le
      rw [hzero]
      exact ⟨by linarith, fun _ _ => rfl⟩
    | succ k =>
      obtain ⟨hborder, heven⟩ := border_le_two_mul hd hk
      have hprevious : grid z ≤ grid k := strictMono_grid.monotone (by omega)
      have hmiddle := (le_two_mul_quotient_iff k n hd).mpr hborder
      rw [Nat.cast_succ]
      refine ⟨by linarith, fun _ htie => heven (le_antisymm hborder ?_)⟩
      exact (two_mul_quotient_le_iff k n hd).mp (by linarith)
  · exact ⟨le_refl _, fun h => absurd rfl h⟩
  · have hlt := strictMono_grid hz
    rw [abs_sub_upper_le_iff hlt, abs_sub_lower_le_iff hlt]
    obtain ⟨hborder, heven⟩ := two_mul_le_border n hd
    generalize nearestIndex n d = k at *
    have hnext : grid (k + 1) ≤ grid z := strictMono_grid.monotone (by omega)
    have hmiddle := (two_mul_quotient_le_iff k n hd).mpr hborder
    refine ⟨by linarith, fun _ htie => heven (le_antisymm hborder ?_)⟩
    exact (le_two_mul_quotient_iff k n hd).mp (by linarith)

/-- A finite number that is nearest to a value among all numbers of the grid, and has an even
significand if another one is equally near. -/
structure NearestTo (q : Rat) (x : Binary64) : Prop where
  isFinite : x.isFinite = true
  le : ∀ z, |x.toRat - q| ≤ |grid z - q|
  even : ∀ z, grid z ≠ x.toRat → |grid z - q| ≤ |x.toRat - q| →
    significand x.magnitudeRank % 2 = 0

theorem isFinite_ofQuotient_iff (s : Bool) (n d : Nat) :
    (ofQuotient s n d).isFinite = true ↔ nearestIndex n d < finiteCount := by
  by_cases h : nearestIndex n d < finiteCount
  · rw [ofQuotient, dif_pos h]
    exact iff_of_true rfl h
  · rw [ofQuotient, dif_neg h]
    exact iff_of_false Bool.false_ne_true h

/-- A quotient is rounded to the nearest number, if that is finite. -/
theorem nearestTo_ofQuotient (s : Bool) {n d : Nat} (hd : 0 < d)
    (h : (ofQuotient s n d).isFinite = true) :
    NearestTo (signed s (quotient n d)) (ofQuotient s n d) := by
  have hindex := (isFinite_ofQuotient_iff s n d).mp h
  have hround : ofQuotient s n d = .finite s ⟨nearestIndex n d, hindex⟩ := dif_pos hindex
  have hdistance (z : Int) : ∃ w, grid z = signed s (grid w) ∧
      |grid z - signed s (quotient n d)| = |grid w - quotient n d| := by
    cases s with
    | false => exact ⟨z, rfl, rfl⟩
    | true =>
      refine ⟨-z, by simp [signed], ?_⟩
      rw [grid_neg, signed, if_pos rfl, sub_neg_eq_add, ← abs_neg]
      ring_nf
  have hself : |toRat (ofQuotient s n d) - signed s (quotient n d)| =
      |grid (nearestIndex n d) - quotient n d| := by
    rw [hround, toRat_finite, signed, signed]
    split
    · rw [← neg_sub', abs_neg]
    · rfl
  refine ⟨h, fun z => ?_, fun z hz htie => ?_⟩
  · obtain ⟨w, -, hw⟩ := hdistance z
    rw [hself, hw]
    exact (nearest_grid_nearestIndex n hd w).1
  · obtain ⟨w, hzw, hw⟩ := hdistance z
    rw [hself, hw] at htie
    rw [hround, toRat_finite, hzw] at hz
    rw [hround, magnitudeRank, significand_mod_two]
    refine (nearest_grid_nearestIndex n hd w).2 ?_ htie
    rintro rfl
    exact hz rfl

namespace NearestTo

variable {q : Rat} {x y : Binary64} {z : Int}

/-- Rounding does not move a value past a number of the grid that is not above it. -/
theorem grid_le (h : NearestTo q x) (hz : grid z ≤ q) : grid z ≤ x.toRat := by
  by_contra hlt
  have hnear := (abs_sub_lower_le_iff (not_le.mp hlt)).mp (h.le z)
  linarith

/-- Rounding does not move a value past a number of the grid that is not below it. -/
theorem le_grid (h : NearestTo q x) (hz : q ≤ grid z) : x.toRat ≤ grid z := by
  by_contra hlt
  have hnear := (abs_sub_upper_le_iff (not_le.mp hlt)).mp (h.le z)
  linarith

theorem toRat_eq (h : NearestTo (grid z) x) : x.toRat = grid z :=
  le_antisymm (h.le_grid (le_refl _)) (h.grid_le (le_refl _))

/-- Only one number is nearest to a value, up to the sign of zero. -/
theorem toRat_unique (h : NearestTo q x) (h' : NearestTo q y) : x.toRat = y.toRat := by
  wlog hlt : x.toRat < y.toRat generalizing x y
  · rcases lt_trichotomy x.toRat y.toRat with hxy | hxy | hxy
    · exact this h h' hxy
    · exact hxy
    · exact (this h' h hxy).symm
  have hxy := h.le y.place
  have hyx := h'.le x.place
  have hx := h.even y.place
  have hy := h'.even x.place
  rw [← toRat_eq_grid] at hxy hyx hx hy
  -- both have even places, so a number of the grid stands between them and is nearer
  have hplaces : x.place < y.place := by
    rwa [toRat_eq_grid, toRat_eq_grid, strictMono_grid.lt_iff_lt] at hlt
  have hbetween : x.place + 1 < y.place := by
    have hxeven := place_mod_two x (hx hlt.ne' hyx)
    have hyeven := place_mod_two y (hy hlt.ne hxy)
    omega
  have hlower : x.toRat < grid (x.place + 1) := by
    rw [toRat_eq_grid x]
    exact strictMono_grid (lt_add_one _)
  have hupper : grid (x.place + 1) < y.toRat := by
    rw [toRat_eq_grid y]
    exact strictMono_grid hbetween
  have hfirst := (abs_sub_lower_le_iff hlower).mp (h.le (x.place + 1))
  have hsecond := (abs_sub_upper_le_iff hupper).mp (h'.le (x.place + 1))
  linarith

end NearestTo

theorem nearestTo_toRat {x : Binary64} (hx : x.isFinite = true) : NearestTo x.toRat x := by
  refine ⟨hx, fun z => ?_, fun z hz htie => ?_⟩
  · rw [sub_self, abs_zero]
    exact abs_nonneg _
  · rw [sub_self, abs_zero] at htie
    exact absurd (sub_eq_zero.mp (abs_nonpos_iff.mp htie)) hz

end Binary64

end TrialSummary
