import Mathlib.Algebra.Order.Field.Basic
import Mathlib.Algebra.Order.Field.Power
import TrialSummary.Proofs.Binary64.Interval
import TrialSummary.Proofs.Decimal.NotFinite

/-!
# Fewest digits, nearest value

A decimal reads back as a number exactly if it stands in the interval of values that are rounded to
it, so the walk over the grids can be followed on that interval. Each grid is seen through the two
points next to the number: if a point of the grid is in the interval, so is the one of the two that
lies on its side, and it is at least as near.

No decimal that reads back has fewer digits than the one with which the walk ends, and none with as
few digits is nearer. A decimal on a finer grid could be so only with fewer digits in front, that is
below the power of ten at which the digits of the number start; but then that power of ten reads back
as well. The only number for which this leaves a case open is `2 ^ (-1073)`, with a power of ten above
it and decimals of one digit below it.
-/

namespace TrialSummary

namespace Decimal

open Binary64

/-- A decimal is read as a number if it stands in the interval of the number. -/
theorem toBinary64_eq_finite_iff {s : Bool} {d : Decimal} {k : Fin finiteCount} :
    d.toBinary64 s = .finite s k ↔ RoundsTo d.toRat k := by
  rw [toBinary64_eq_ofQuotient, ofQuotient_eq_finite_iff _ d.scale_pos, quotient_scaledCoefficient]

theorem ten_zpow_pos (e : Int) : (0 : Rat) < 10 ^ e := zpow_pos (by decide) e

theorem ten_zpow_le_iff {e e' : Int} : (10 : Rat) ^ e ≤ 10 ^ e' ↔ e ≤ e' :=
  zpow_le_zpow_iff_right₀ (by decide)

theorem ten_zpow_lt_iff {e e' : Int} : (10 : Rat) ^ e < 10 ^ e' ↔ e < e' :=
  zpow_lt_zpow_iff_right₀ (by decide)

theorem toRat_one (e : Int) : toRat ⟨1, e⟩ = 10 ^ e := by
  rw [toRat, Nat.cast_one, one_mul]

theorem toRat_le_toRat_iff {c c' : Nat} {e : Int} : toRat ⟨c, e⟩ ≤ toRat ⟨c', e⟩ ↔ c ≤ c' := by
  rw [toRat, toRat, mul_le_mul_iff_left₀ (ten_zpow_pos e), Nat.cast_le]

theorem toRat_lt_ten_zpow_iff {d : Decimal} {m : Nat} :
    d.toRat < 10 ^ (d.exponent + m) ↔ d.coefficient < 10 ^ m := by
  rw [toRat, zpow_add₀ (by decide), mul_comm, mul_lt_mul_iff_right₀ (ten_zpow_pos _), zpow_natCast]
  norm_cast

theorem toRat_shift (c n : Nat) (e : Int) : toRat ⟨c * 10 ^ n, e⟩ = toRat ⟨c, e + n⟩ := by
  rw [toRat, toRat, zpow_add₀ (by decide), zpow_natCast]
  push_cast
  ring

/-- A decimal of one digit below a power of ten is at most nine tenths of it. -/
theorem toRat_le_of_oneDigit {d : Decimal} {e : Int} (hd : d.coefficient ≤ 9)
    (hlt : d.toRat < 10 ^ e) : d.toRat ≤ 9 * 10 ^ (e - 1) := by
  rcases Nat.eq_zero_or_pos d.coefficient with hzero | hpos
  · rw [toRat, hzero, Nat.cast_zero, zero_mul]
    exact mul_nonneg (by decide) (ten_zpow_pos _).le
  · have hle : toRat ⟨1, d.exponent⟩ ≤ d.toRat := toRat_le_toRat_iff.mpr hpos
    rw [toRat_one] at hle
    have hexponent := ten_zpow_lt_iff.mp (hle.trans_lt hlt)
    calc d.toRat ≤ 9 * 10 ^ d.exponent := toRat_le_toRat_iff.mpr hd
      _ ≤ 9 * 10 ^ (e - 1) :=
        mul_le_mul_of_nonneg_left (ten_zpow_le_iff.mpr (by omega)) (by decide)

theorem coefficient_pos_of_toRat_pos {d : Decimal} (h : 0 < d.toRat) : 0 < d.coefficient := by
  by_contra hzero
  rw [toRat, Nat.eq_zero_of_not_pos hzero, Nat.cast_zero, zero_mul] at h
  exact lt_irrefl _ h

end Decimal

namespace Binary64

open Decimal

theorem readsBack_iff {k : Fin finiteCount} {d : Decimal} :
    readsBack k d = true ↔ RoundsTo d.toRat k := by
  refine ⟨fun h => ?_, fun h => ?_⟩
  · exact toBinary64_eq_finite_iff.mp (toBinary64_of_readsBack h false)
  · rw [readsBack, toBinary64_eq_finite_iff.mpr h]
    simp

section Neighbours

variable {k : Fin finiteCount} {e : Int} {d : Decimal}

theorem inSteps_ofNat (k e : Nat) : inSteps k (.ofNat e) = (units k, oneUnits * 10 ^ e) := rfl

theorem inSteps_negSucc (k e : Nat) :
    inSteps k (.negSucc e) = (units k * 10 ^ (e + 1), oneUnits) := rfl

theorem snd_inSteps_pos (k : Nat) (e : Int) : 0 < (inSteps k e).2 := by
  cases e with
  | ofNat e =>
    rw [inSteps_ofNat]
    exact Nat.mul_pos oneUnits_pos (Nat.pow_pos (by decide))
  | negSucc e =>
    simpa only [inSteps_negSucc] using oneUnits_pos

theorem grid_eq_inSteps (k : Nat) (e : Int) :
    grid k = (inSteps k e).1 / (inSteps k e).2 * 10 ^ e := by
  have hone := oneUnits_cast_pos.ne'
  rw [grid_natCast]
  cases e with
  | ofNat e =>
    rw [inSteps_ofNat, Int.ofNat_eq_natCast, zpow_natCast]
    push_cast
    field_simp
  | negSucc e =>
    rw [inSteps_negSucc, zpow_negSucc]
    push_cast
    field_simp

/-- The point of the grid `10 ^ e` below a magnitude, or at it. -/
def lowerPoint (k : Nat) (e : Int) : Decimal := ⟨(inSteps k e).1 / (inSteps k e).2, e⟩

/-- The next point of the grid. -/
def upperPoint (k : Nat) (e : Int) : Decimal := ⟨(inSteps k e).1 / (inSteps k e).2 + 1, e⟩

theorem toRat_upperPoint (k : Nat) (e : Int) :
    (upperPoint k e).toRat = (lowerPoint k e).toRat + 10 ^ e := by
  rw [upperPoint, lowerPoint, Decimal.toRat, Decimal.toRat, Nat.cast_succ, add_mul, one_mul]

theorem grid_sub_lowerPoint (k : Nat) (e : Int) :
    grid k - (lowerPoint k e).toRat =
      ((inSteps k e).1 % (inSteps k e).2 : Nat) / (inSteps k e).2 * 10 ^ e := by
  have hpos : (0 : Rat) < (inSteps k e).2 := by exact_mod_cast snd_inSteps_pos k e
  have hsplit := congrArg (Nat.cast (R := Rat)) (Nat.div_add_mod (inSteps k e).1 (inSteps k e).2)
  push_cast at hsplit
  rw [grid_eq_inSteps k e, lowerPoint, Decimal.toRat, ← sub_mul]
  congr 1
  rw [sub_eq_iff_eq_add, div_eq_iff hpos.ne', add_mul, div_mul_cancel₀ _ hpos.ne', ← hsplit]
  ring

theorem lowerPoint_le (k : Nat) (e : Int) : (lowerPoint k e).toRat ≤ grid k := by
  rw [← sub_nonneg, grid_sub_lowerPoint]
  exact mul_nonneg (div_nonneg (Nat.cast_nonneg _) (Nat.cast_nonneg _)) (ten_zpow_pos e).le

theorem lt_upperPoint (k : Nat) (e : Int) : grid k < (upperPoint k e).toRat := by
  have hpos : (0 : Rat) < (inSteps k e).2 := by exact_mod_cast snd_inSteps_pos k e
  have hmod : (((inSteps k e).1 % (inSteps k e).2 : Nat) : Rat) < (inSteps k e).2 := by
    exact_mod_cast Nat.mod_lt _ (snd_inSteps_pos k e)
  rw [toRat_upperPoint, ← sub_lt_iff_lt_add', grid_sub_lowerPoint,
    mul_lt_iff_lt_one_left (ten_zpow_pos e), div_lt_one hpos]
  exact hmod

/-- The lower point is the nearer one if the remainder is less than half a step. -/
theorem two_mul_mod_lt_iff (k : Nat) (e : Int) :
    2 * ((inSteps k e).1 % (inSteps k e).2) < (inSteps k e).2 ↔
      2 * grid k < (lowerPoint k e).toRat + (upperPoint k e).toRat := by
  have hpos : (0 : Rat) < (inSteps k e).2 := by exact_mod_cast snd_inSteps_pos k e
  have hstep : (lowerPoint k e).toRat + (upperPoint k e).toRat - 2 * grid k =
      10 ^ e - 2 * (grid k - (lowerPoint k e).toRat) := by
    rw [toRat_upperPoint]
    ring
  rw [← sub_pos (a := _ + _), hstep, grid_sub_lowerPoint, sub_pos, ← mul_assoc,
    mul_lt_iff_lt_one_left (ten_zpow_pos e), ← mul_div_assoc, div_lt_one hpos]
  norm_cast

/-- If a point of the grid reads back, so does the point next to the magnitude on its side, which is
at least as near. -/
theorem exists_point_of_roundsTo {c : Nat} (h : RoundsTo (Decimal.toRat ⟨c, e⟩) k) :
    ∃ p, (p = lowerPoint k e ∨ p = upperPoint k e) ∧ RoundsTo p.toRat k ∧
      |p.toRat - grid k| ≤ |Decimal.toRat ⟨c, e⟩ - grid k| := by
  have hlower := lowerPoint_le k e
  have hupper := (lt_upperPoint k e).le
  rcases Nat.lt_or_ge ((inSteps k e).1 / (inSteps k e).2) c with hc | hc
  · have hle : (upperPoint k e).toRat ≤ Decimal.toRat ⟨c, e⟩ := toRat_le_toRat_iff.mpr hc
    refine ⟨_, .inr rfl, (roundsTo_grid k).of_between h hupper hle, ?_⟩
    rw [abs_of_nonneg (sub_nonneg.mpr hupper), abs_of_nonneg (by linarith)]
    linarith
  · have hle : Decimal.toRat ⟨c, e⟩ ≤ (lowerPoint k e).toRat := toRat_le_toRat_iff.mpr hc
    refine ⟨_, .inl rfl, h.of_between (roundsTo_grid k) hle hlower, ?_⟩
    rw [abs_of_nonpos (sub_nonpos.mpr hlower), abs_of_nonpos (by linarith)]
    linarith

/-- A decimal of the grid that reads back, and of those the nearest. -/
structure NearestOnGrid (k : Nat) (d : Decimal) : Prop where
  roundsTo : RoundsTo d.toRat k
  nearest : ∀ c, RoundsTo (Decimal.toRat ⟨c, d.exponent⟩) k →
    |d.toRat - grid k| ≤ |Decimal.toRat ⟨c, d.exponent⟩ - grid k|

theorem neighbour?_eq (k : Nat) (e : Int) : neighbour? k e =
    match readsBack k (lowerPoint k e), readsBack k (upperPoint k e) with
    | true, true =>
      some (if 2 * ((inSteps k e).1 % (inSteps k e).2) < (inSteps k e).2
        then lowerPoint k e else upperPoint k e)
    | true, false => some (lowerPoint k e)
    | false, true => some (upperPoint k e)
    | false, false => none := rfl

theorem exponent_of_neighbour? {k : Nat} (h : neighbour? k e = some d) : d.exponent = e := by
  rw [neighbour?_eq] at h
  split at h
  · obtain rfl := Option.some.inj h
    split <;> rfl
  · obtain rfl := Option.some.inj h
    rfl
  · obtain rfl := Option.some.inj h
    rfl
  · cases h

/-- There is no neighbour only if no point of the grid reads back. -/
theorem not_roundsTo_of_neighbour?_eq_none (h : neighbour? k e = none) (c : Nat) :
    ¬ RoundsTo (Decimal.toRat ⟨c, e⟩) k := by
  intro hc
  rw [neighbour?_eq] at h
  obtain ⟨p, hp, hround, -⟩ := exists_point_of_roundsTo hc
  rw [← readsBack_iff] at hround
  rcases hp with rfl | rfl <;> split at h <;> simp_all

/-- Of the two points, the neighbour is at least as near as each one that reads back. -/
theorem neighbour?_nearer (h : neighbour? k e = some d) {p : Decimal}
    (hp : p = lowerPoint k e ∨ p = upperPoint k e) (hback : readsBack k p = true) :
    |d.toRat - grid k| ≤ |p.toRat - grid k| := by
  have hpoints := (lowerPoint_le k e).trans_lt (lt_upperPoint k e)
  rw [neighbour?_eq] at h
  split at h
  · obtain rfl := Option.some.inj h
    split
    · next hhalf =>
      rw [two_mul_mod_lt_iff] at hhalf
      rcases hp with rfl | rfl
      · exact le_refl _
      · exact (abs_sub_lower_le_iff hpoints).mpr hhalf.le
    · next hhalf =>
      rw [two_mul_mod_lt_iff, not_lt] at hhalf
      rcases hp with rfl | rfl
      · exact (abs_sub_upper_le_iff hpoints).mpr hhalf
      · exact le_refl _
  · next hother =>
    obtain rfl := Option.some.inj h
    rcases hp with rfl | rfl
    · exact le_refl _
    · rw [hother] at hback
      cases hback
  · next hother _ =>
    obtain rfl := Option.some.inj h
    rcases hp with rfl | rfl
    · rw [hother] at hback
      cases hback
    · exact le_refl _
  · cases h

theorem nearestOnGrid_of_neighbour? (h : neighbour? k e = some d) : NearestOnGrid k d := by
  refine ⟨readsBack_iff.mp (readsBack_of_neighbour? h), fun c hc => ?_⟩
  rw [exponent_of_neighbour? h] at hc ⊢
  obtain ⟨p, hp, hround, hnear⟩ := exists_point_of_roundsTo hc
  exact (neighbour?_nearer h hp (readsBack_iff.mpr hround)).trans hnear

end Neighbours

section Walk

variable {k : Fin finiteCount}

/-- With `2 ^ places` units in one, a unit is `5 ^ places` steps of `10 ^ (-places)`. -/
theorem toRat_wholeUnits (n places : Nat) (h : oneUnits = 2 ^ places) :
    Decimal.toRat ⟨n * Nat.pow 5 places, -(places : Int)⟩ = n / oneUnits := by
  have hpow : (10 : Rat) ^ places = 5 ^ places * 2 ^ places := by
    rw [← mul_pow]
    norm_num
  rw [Decimal.toRat, zpow_neg, zpow_natCast, hpow, Nat.pow_eq, h]
  push_cast
  field_simp

theorem toRat_exactDecimal (k : Nat) : (exactDecimal k).toRat = grid k :=
  (toRat_wholeUnits (units k) 1074 oneUnits_eq).trans (grid_natCast k).symm

theorem exponent_exactDecimal (k : Nat) : (exactDecimal k).exponent = -1074 := rfl

theorem nearestOnGrid_exactDecimal (k : Nat) : NearestOnGrid k (exactDecimal k) := by
  refine ⟨?_, fun c _ => ?_⟩
  · rw [toRat_exactDecimal]
    exact roundsTo_grid k
  · rw [toRat_exactDecimal, sub_self, abs_zero]
    exact abs_nonneg _

theorem nearestOnGrid_shortestFrom (k : Fin finiteCount) (steps : Nat) :
    NearestOnGrid k (shortestFrom k steps) := by
  induction steps with
  | zero => exact nearestOnGrid_exactDecimal k
  | succ steps ih =>
    rw [shortestFrom]
    cases h : neighbour? k ((steps : Int) - 1073) with
    | none => exact ih
    | some d => exact nearestOnGrid_of_neighbour? h

theorem exponent_shortestFrom_le (k : Nat) (steps : Nat) :
    (shortestFrom k steps).exponent ≤ steps - 1074 := by
  induction steps with
  | zero =>
    rw [shortestFrom, exponent_exactDecimal]
    omega
  | succ steps ih =>
    rw [shortestFrom]
    cases h : neighbour? k ((steps : Int) - 1073) with
    | none =>
      rw [Option.getD_none]
      omega
    | some d =>
      rw [Option.getD_some, exponent_of_neighbour? h]
      omega

/-- The walk passes no grid that has a point that reads back. -/
theorem le_exponent_shortestFrom {steps : Nat} {d : Decimal} (hd : RoundsTo d.toRat k)
    (hexponent : d.exponent ≤ steps - 1074) : d.exponent ≤ (shortestFrom k steps).exponent := by
  induction steps with
  | zero => exact hexponent
  | succ steps ih =>
    rw [shortestFrom]
    cases h : neighbour? k ((steps : Int) - 1073) with
    | none =>
      have hne : d.exponent ≠ steps - 1073 := by
        intro heq
        rw [← heq] at h
        exact not_roundsTo_of_neighbour?_eq_none h _ hd
      exact ih (by omega)
    | some d' =>
      rw [Option.getD_some, exponent_of_neighbour? h]
      omega

end Walk

section PowerOfTenAbove

/-- The least magnitude is about five times `10 ^ (-324)`. -/
theorem one_div_oneUnits_bounds :
    1 / (oneUnits : Rat) < 5 * 10 ^ (-324 : Int) ∧
      100 * 10 ^ (-324 : Int) < 21 * (1 / (oneUnits : Rat)) := by
  have hlower : (10 ^ 324 : Rat) < 5 * oneUnits := by
    exact_mod_cast show 10 ^ 324 < 5 * oneUnits by decide +kernel
  have hupper : (100 * oneUnits : Rat) < 21 * 10 ^ 324 := by
    exact_mod_cast show 100 * oneUnits < 21 * 10 ^ 324 by decide +kernel
  have hpow : (10 : Rat) ^ (-324 : Int) = 1 / 10 ^ 324 := by
    rw [zpow_neg, one_div]
    norm_cast
  have hpos : (0 : Rat) < 10 ^ 324 := pow_pos (by decide) _
  rw [hpow, mul_one_div, mul_one_div, mul_one_div]
  exact ⟨(div_lt_div_iff₀ oneUnits_cast_pos hpos).mpr (by rwa [one_mul]),
    (div_lt_div_iff₀ hpos oneUnits_cast_pos).mpr hupper⟩

/-- The first nine magnitudes are whole units apart. A power of ten above one of them reads back as
it only for the second. -/
theorem eq_two_of_roundsTo_ten_zpow {k : Nat} (hk : 0 < k) (hsmall : k < 10) {e : Int}
    (hlt : grid k < 10 ^ e) (he : RoundsTo (10 ^ e) k) : k = 2 ∧ e = -323 := by
  have hself : grid k = k * (1 / oneUnits) := grid_of_le (by omega)
  have hnext : grid (k + 1) = (k + 1) * (1 / oneUnits) := by
    have h := grid_of_le (show k + 1 ≤ 2 ^ 53 by omega)
    push_cast at h
    exact h
  obtain ⟨hunit, hunit'⟩ := one_div_oneUnits_bounds
  have hpos : (0 : Rat) < 1 / oneUnits := one_div_pos.mpr oneUnits_cast_pos
  have hone : (1 : Rat) ≤ k := by exact_mod_cast hk
  have hnine : (k : Rat) ≤ 9 := by exact_mod_cast Nat.lt_succ_iff.mp hsmall
  have hle := he.le
  rw [hself, hnext] at hle
  rw [hself] at hlt
  generalize 1 / (oneUnits : Rat) = unit at *
  have hleast : unit ≤ k * unit := le_mul_of_one_le_left hpos.le hone
  have hgreatest : k * unit ≤ 9 * unit := mul_le_mul_of_nonneg_right hnine hpos.le
  have hstep (e : Int) : (10 : Rat) ^ (1 + e) = 10 * 10 ^ e := zpow_one_add₀ (by decide) e
  -- a unit is less than five and almost five times `10 ^ (-324)`
  have hexponent : e = 1 + -324 := by
    rcases lt_trichotomy e (1 + -324) with hbelow | heq | habove
    · have hpower : (10 : Rat) ^ e ≤ 10 ^ (-324 : Int) := ten_zpow_le_iff.mpr (by omega)
      linarith
    · exact heq
    · have hpower : (10 : Rat) ^ (1 + (1 + -324) : Int) ≤ 10 ^ e := ten_zpow_le_iff.mpr (by omega)
      rw [hstep, hstep] at hpower
      linarith
  rw [hexponent, hstep] at hlt hle
  have hupper : (k : Rat) < 3 := lt_of_mul_lt_mul_right (by linarith) hpos.le
  have hlower : (1 : Rat) < k := lt_of_mul_lt_mul_right (by linarith) hpos.le
  norm_cast at hupper hlower
  exact ⟨by omega, hexponent⟩

/-- If a power of ten above a magnitude reads back, no decimal of one digit below the power is
nearer. One that reads back as well exists only for the second magnitude. -/
theorem ten_zpow_nearest {k : Nat} (hk : 0 < k) {e : Int} {q : Rat} (hlt : grid k < 10 ^ e)
    (he : RoundsTo (10 ^ e) k) (hq : RoundsTo q k) (hdigit : q ≤ 9 * 10 ^ (e - 1)) :
    |10 ^ e - grid k| ≤ |q - grid k| := by
  have hstep : (10 : Rat) ^ e = 10 * 10 ^ (e - 1) := by
    rw [← zpow_one_add₀ (by decide), add_sub_cancel]
  have hsmall : k < 10 := by
    have hge := hq.ge
    have hle := he.le
    have hgap := two_mul_grid_le hk
    exact lt_ten_of_grid_lt (by linarith)
  obtain ⟨rfl, rfl⟩ := eq_two_of_roundsTo_ten_zpow hk hsmall hlt he
  have hself : grid (2 : Nat) = (2 : Nat) * (1 / oneUnits) := grid_of_le (by decide)
  obtain ⟨hunit, hunit'⟩ := one_div_oneUnits_bounds
  have hexponent : (-323 : Int) - 1 = -324 := rfl
  rw [hexponent] at hstep hdigit
  rw [hstep, hself, Nat.cast_ofNat] at hlt ⊢
  rw [abs_of_nonneg (by linarith), abs_of_nonpos (by linarith)]
  linarith

end PowerOfTenAbove

section Shortest

variable {k : Fin finiteCount}

/-- The first grid of the walk. -/
def topExponent (k : Nat) : Int := scaledLength k - 1074

theorem shortest_exponent_le (k : Nat) : (shortest k).exponent ≤ topExponent k :=
  exponent_shortestFrom_le k _

/-- The shortest decimal is on the coarsest grid that has a point that reads back. -/
theorem le_shortest_exponent {d : Decimal} (hd : RoundsTo d.toRat k)
    (hexponent : d.exponent ≤ topExponent k) : d.exponent ≤ (shortest k).exponent :=
  le_exponent_shortestFrom hd hexponent

theorem nearestOnGrid_shortest (k : Fin finiteCount) : NearestOnGrid k (shortest k) :=
  nearestOnGrid_shortestFrom k _

theorem grid_lt_ten_zpow (k : Nat) : grid k < 10 ^ topExponent k := by
  have hvalue : (exactDecimal k).coefficient < 10 ^ scaledLength k :=
    (Nat.length_toDigits_le_iff (by decide) Nat.length_toDigits_pos).mp (le_refl _)
  rw [← toRat_lt_ten_zpow_iff, toRat_exactDecimal] at hvalue
  refine hvalue.trans_le (ten_zpow_le_iff.mpr ?_)
  rw [topExponent, exponent_exactDecimal]
  omega

/-- A magnitude above zero is not below the power of ten of the next grid. -/
theorem ten_zpow_le_grid {k : Nat} (hk : 0 < k) : (10 : Rat) ^ (topExponent k - 1) ≤ grid k := by
  have hcoefficient : 0 < (exactDecimal k).coefficient := by
    apply coefficient_pos_of_toRat_pos
    rw [toRat_exactDecimal]
    exact grid_pos hk
  obtain ⟨length, hlength⟩ : ∃ length, scaledLength k = length + 1 :=
    Nat.exists_eq_succ_of_ne_zero Nat.length_toDigits_pos.ne'
  have hdigits : ¬ (exactDecimal k).coefficient < 10 ^ length := by
    rcases Nat.eq_zero_or_pos length with rfl | hpos
    · rw [Nat.pow_zero]
      omega
    · have hlt : length < scaledLength k := by omega
      rw [← Nat.length_toDigits_le_iff (by decide) hpos, Nat.not_le]
      exact hlt
  rw [← toRat_lt_ten_zpow_iff, toRat_exactDecimal, not_lt] at hdigits
  refine le_trans (ten_zpow_le_iff.mpr ?_) hdigits
  rw [topExponent, exponent_exactDecimal, hlength]
  omega

/-- A power of ten between a magnitude and a value that reads back reads back itself. -/
theorem roundsTo_ten_zpow {d : Decimal} {e : Int} (hd : RoundsTo d.toRat k)
    (h : d.toRat ≤ 10 ^ e ∧ (10 : Rat) ^ e ≤ grid k ∨ grid k ≤ 10 ^ e ∧ (10 : Rat) ^ e ≤ d.toRat) :
    RoundsTo (Decimal.toRat ⟨1, e⟩) k := by
  rw [toRat_one]
  rcases h with ⟨hlower, hupper⟩ | ⟨hlower, hupper⟩
  · exact hd.of_between (roundsTo_grid k) hlower hupper
  · exact (roundsTo_grid k).of_between hd hlower hupper

/-- On the first grid the only point that can read back is the power of ten itself. -/
theorem shortest_eq_of_exponent_eq (hk : 0 < k.val)
    (h : (shortest k).exponent = topExponent k) : shortest k = ⟨1, topExponent k⟩ := by
  obtain ⟨hround, hnearest⟩ := nearestOnGrid_shortest k
  have htop := grid_lt_ten_zpow k
  generalize shortest k = d at *
  obtain ⟨c, e⟩ := d
  dsimp only at h hnearest
  subst h
  have hpos : 1 ≤ c := coefficient_pos_of_toRat_pos (hround.pos hk)
  have hle := toRat_le_toRat_iff (e := topExponent k).mpr hpos
  have hone : RoundsTo (Decimal.toRat ⟨1, topExponent k⟩) k := by
    rw [toRat_one] at hle
    exact roundsTo_ten_zpow hround (.inr ⟨htop.le, hle⟩)
  have hnear := hnearest 1 hone
  rw [← toRat_one] at htop
  rw [abs_of_nonneg (by linarith), abs_of_nonneg (by linarith)] at hnear
  have hge : c ≤ 1 := toRat_le_toRat_iff (e := topExponent k).mp (by linarith)
  rw [le_antisymm hge hpos]

/-- Below the first grid nothing reaches its power of ten. -/
theorem lt_ten_zpow_of_exponent_ne (h : (shortest k).exponent ≠ topExponent k) {d : Decimal}
    (hd : RoundsTo d.toRat k) : d.toRat < 10 ^ topExponent k := by
  by_contra hge
  have hround := roundsTo_ten_zpow hd (.inr ⟨(grid_lt_ten_zpow k).le, not_lt.mp hge⟩)
  exact h (le_antisymm (shortest_exponent_le k) (le_shortest_exponent hround (le_refl _)))

/-- If something below the power of ten of the second grid reads back, the walk goes no further. -/
theorem pred_le_of_lt_ten_zpow (hk : 0 < k.val) {d : Decimal} (hd : RoundsTo d.toRat k)
    (hlt : d.toRat < 10 ^ (topExponent k - 1)) :
    RoundsTo (Decimal.toRat ⟨1, topExponent k - 1⟩) k ∧
      topExponent k - 1 ≤ (shortest k).exponent := by
  have hround := roundsTo_ten_zpow hd (.inl ⟨hlt.le, ten_zpow_le_grid hk⟩)
  refine ⟨hround, ?_⟩
  exact le_shortest_exponent (d := ⟨1, topExponent k - 1⟩) hround (Int.sub_le_self _ (by decide))

/-- No decimal that reads back has fewer digits than the shortest one. -/
theorem coefficient_shortest_lt (hk : 0 < k.val) {d : Decimal} (hd : RoundsTo d.toRat k) {m : Nat}
    (hm : d.coefficient < 10 ^ m) : (shortest k).coefficient < 10 ^ m := by
  have hpos := coefficient_pos_of_toRat_pos (hd.pos hk)
  have hmpos : m ≠ 0 := by
    rintro rfl
    rw [Nat.pow_zero] at hm
    omega
  by_cases htop : (shortest k).exponent = topExponent k
  · rw [shortest_eq_of_exponent_eq hk htop]
    exact Nat.one_lt_pow hmpos (by decide)
  · have hbelow : d.exponent ≤ topExponent k := by
      have hle : Decimal.toRat ⟨1, d.exponent⟩ ≤ d.toRat := toRat_le_toRat_iff.mpr hpos
      rw [toRat_one] at hle
      exact (ten_zpow_lt_iff.mp (hle.trans_lt (lt_ten_zpow_of_exponent_ne htop hd))).le
    have hexponent := le_shortest_exponent hd hbelow
    have hround := (nearestOnGrid_shortest k).roundsTo
    have hlength : topExponent k ≤ (shortest k).exponent + m := by
      rcases lt_or_ge d.toRat (10 ^ (topExponent k - 1)) with hlt | hge
      · have := (pred_le_of_lt_ten_zpow hk hd hlt).2
        omega
      · have := ten_zpow_lt_iff.mp (hge.trans_lt (toRat_lt_ten_zpow_iff.mpr hm))
        omega
    rw [← toRat_lt_ten_zpow_iff]
    exact (lt_ten_zpow_of_exponent_ne htop hround).trans_le (ten_zpow_le_iff.mpr hlength)

/-- A decimal on a coarser grid is also on the grid of the shortest one, which is the nearest there. -/
theorem shortest_nearest_of_coarse {d : Decimal} (hd : RoundsTo d.toRat k)
    (hcoarse : (shortest k).exponent ≤ d.exponent) :
    |(shortest k).toRat - grid k| ≤ |d.toRat - grid k| := by
  obtain ⟨n, hn⟩ : ∃ n : Nat, d.exponent = (shortest k).exponent + n :=
    ⟨(d.exponent - (shortest k).exponent).toNat, by omega⟩
  have hshift := toRat_shift d.coefficient n (shortest k).exponent
  rw [← hn] at hshift
  have hnear := (nearestOnGrid_shortest k).nearest (d.coefficient * 10 ^ n)
  rw [hshift] at hnear
  exact hnear hd

/-- On a finer grid as few digits do not reach the first digit of the number, so the power of ten at
which it stands is nearer. -/
theorem shortest_nearest_of_fine (hk : 0 < k.val) (htop : (shortest k).exponent ≠ topExponent k)
    {d : Decimal} (hd : RoundsTo d.toRat k) (hfine : d.exponent < (shortest k).exponent)
    (hdigits : d.coefficient < 10 ^ (shortest k).digits.length) :
    |(shortest k).toRat - grid k| ≤ |d.toRat - grid k| := by
  obtain ⟨hround, hnearest⟩ := nearestOnGrid_shortest k
  have hle := shortest_exponent_le k
  obtain ⟨n, hn⟩ : ∃ n : Nat, topExponent k = (shortest k).exponent + n :=
    ⟨(topExponent k - (shortest k).exponent).toNat, by omega⟩
  have hcoefficient : (shortest k).coefficient < 10 ^ n := by
    rw [← toRat_lt_ten_zpow_iff, ← hn]
    exact lt_ten_zpow_of_exponent_ne htop hround
  have hlength : (shortest k).digits.length ≤ n :=
    (Nat.length_toDigits_le_iff (by decide) (by omega)).mpr hcoefficient
  have hlt : d.toRat < 10 ^ (topExponent k - 1) := by
    refine (toRat_lt_ten_zpow_iff.mpr hdigits).trans_le (ten_zpow_le_iff.mpr ?_)
    omega
  have hlower := ten_zpow_le_grid hk
  obtain ⟨hten, hexponent⟩ := pred_le_of_lt_ten_zpow hk hd hlt
  have hsecond : topExponent k - 1 = (shortest k).exponent := by omega
  rw [hsecond] at hten hlt hlower
  calc |(shortest k).toRat - grid k| ≤ |10 ^ (shortest k).exponent - grid k| := by
        have hnear := hnearest 1 hten
        rwa [toRat_one] at hnear
    _ ≤ |d.toRat - grid k| := by
        rw [abs_of_nonpos (by linarith), abs_of_nonpos (by linarith)]
        linarith

/-- On the first grid the shortest decimal is a power of ten above the number, with one digit. -/
theorem shortest_nearest_of_first (hk : 0 < k.val) (htop : (shortest k).exponent = topExponent k)
    {d : Decimal} (hd : RoundsTo d.toRat k)
    (hdigits : d.coefficient < 10 ^ (shortest k).digits.length) :
    |(shortest k).toRat - grid k| ≤ |d.toRat - grid k| := by
  have hshortest := shortest_eq_of_exponent_eq hk htop
  have hround := (nearestOnGrid_shortest k).roundsTo
  have hupper := grid_lt_ten_zpow k
  rw [hshortest] at hdigits
  rw [hshortest, toRat_one] at hround ⊢
  rcases lt_or_ge d.toRat (10 ^ topExponent k) with hlt | hge
  · have hlength : (digits ⟨1, topExponent k⟩).length = 1 := by
      rw [digits, Nat.toDigits_of_lt_base (show 1 < 10 by decide), List.length_singleton]
    rw [hlength] at hdigits
    have hdigit : d.coefficient ≤ 9 := Nat.lt_succ_iff.mp hdigits
    exact ten_zpow_nearest hk hupper hround hd (toRat_le_of_oneDigit hdigit hlt)
  · rw [abs_of_nonneg (by linarith), abs_of_nonneg (by linarith)]
    linarith

/-- No decimal that reads back is nearer than the shortest one, unless it has more digits. -/
theorem shortest_nearest (hk : 0 < k.val) {d : Decimal} (hd : RoundsTo d.toRat k)
    (hdigits : d.coefficient < 10 ^ (shortest k).digits.length) :
    |(shortest k).toRat - grid k| ≤ |d.toRat - grid k| := by
  by_cases htop : (shortest k).exponent = topExponent k
  · exact shortest_nearest_of_first hk htop hd hdigits
  · rcases lt_or_ge d.exponent (shortest k).exponent with hfine | hcoarse
    · exact shortest_nearest_of_fine hk htop hd hfine hdigits
    · exact shortest_nearest_of_coarse hd hcoarse

end Shortest

end Binary64

end TrialSummary
