import TrialSummary.Proofs.Binary64.Median

/-!
# Statistics of one repeated value

The mean of a value and copies of it is the value: equal values are not added. Neither are they for
the median of an odd number of copies, which is the value as well.

The median of an even number of copies adds the value to itself and halves the sum. Doubling and
halving are exact, they keep the sign of zero, and they do not change an infinity. Only a finite
number of `2 ^ 1023` or more is not restored: its double overflows, and half of an infinity is
infinite.
-/

namespace TrialSummary.Binary64

variable {x : Binary64}

/-- A whole number of units that is not zero keeps its sign. -/
theorem ofUnits_of_pos (s : Bool) {n : Nat} (hn : 0 < n) :
    ofUnits (if s then -(n : Int) else n) = ofQuotient s n 1 := by
  cases s with
  | false =>
    have hsign : decide ((n : Int) < 0) = false := decide_eq_false (by omega)
    show ofQuotient (decide ((n : Int) < 0)) (n : Int).natAbs 1 = _
    rw [hsign, Int.natAbs_natCast]
  | true =>
    have hsign : decide (-(n : Int) < 0) = true := decide_eq_true (by omega)
    show ofQuotient (decide (-(n : Int) < 0)) (-(n : Int)).natAbs 1 = _
    rw [hsign, Int.natAbs_neg, Int.natAbs_natCast]

/-- A number is doubled by rounding twice its units. -/
theorem add_self_finite (s : Bool) (k : Fin finiteCount) :
    finite s k + finite s k = ofQuotient s (2 * units k) 1 := by
  have hdouble : signedUnits s k + signedUnits s k =
      if s then -((2 * units k : Nat) : Int) else (2 * units k : Nat) := by
    rw [signedUnits]
    split <;> omega
  rw [add_finite, hdouble]
  rcases Nat.eq_zero_or_pos (units k) with hzero | hpos
  · have hround := ofQuotient_units s ⟨0, by decide⟩
    rw [units_zero] at hround
    rw [hzero, Nat.mul_zero, hround, if_pos (by simp), Bool.and_self]
    rfl
  · have hne : (if s then -((2 * units k : Nat) : Int) else (2 * units k : Nat)) ≠ 0 := by
      split <;> omega
    rw [if_neg hne, ofUnits_of_pos s (by omega)]

theorem ofNat_two : ofNat 2 = .finite false ⟨1024 * 2 ^ 52, by decide⟩ := by decide +kernel

theorem units_two : units (1024 * 2 ^ 52) = 2 * oneUnits := by decide +kernel

/-- A finite number whose double is not finite. -/
def TooLargeToDouble (x : Binary64) : Prop := x.isFinite = true ∧ 2 ^ 1023 ≤ |x.toRat|

instance : Decidable (TooLargeToDouble x) := inferInstanceAs (Decidable (_ ∧ _))

theorem tooLargeToDouble_finite_iff (s : Bool) (k : Fin finiteCount) :
    TooLargeToDouble (.finite s k) ↔ units finiteCount ≤ 2 * units k := by
  have hpower (b : Nat) : b ^ 1024 = b * b ^ 1023 := by ring
  have hlimit : units finiteCount = 2 * (2 ^ 1023 * oneUnits) := by
    rw [units_finiteCount, hpower 2, Nat.mul_assoc]
  have hunits : (2 : Rat) ^ 1023 ≤ units k / oneUnits ↔ 2 ^ 1023 * oneUnits ≤ units k := by
    rw [le_div_iff₀ oneUnits_cast_pos]
    exact_mod_cast Iff.rfl
  rw [TooLargeToDouble, abs_toRat_finite, grid_natCast, hunits, hlimit]
  exact ⟨fun h => Nat.mul_le_mul_left 2 h.2, fun h => ⟨rfl, Nat.le_of_mul_le_mul_left h two_pos⟩⟩

theorem infinity_div_two (s : Bool) : infinity s / ofNat 2 = infinity s := by
  rw [ofNat_two]
  cases s <;> rfl

theorem finite_div_two (s : Bool) {j : Nat} (hj : j < finiteCount) (k : Fin finiteCount)
    (h : units j = 2 * units k) : finite s ⟨j, hj⟩ / ofNat 2 = .finite s k := by
  have hhalf : units j * oneUnits * 1 = units k * (2 * oneUnits) := by
    rw [h]
    ring
  have hpos : 0 < 2 * oneUnits := Nat.mul_pos Nat.two_pos oneUnits_pos
  calc finite s ⟨j, hj⟩ / ofNat 2
      = ofQuotient s (units j * oneUnits) (units (1024 * 2 ^ 52)) := by
        rw [ofNat_two, div_finite _ _ _ _ (by decide), Bool.xor_false]
    _ = ofQuotient s (units k) 1 := by
        rw [units_two]
        exact ofQuotient_congr s hpos Nat.one_pos hhalf
    _ = .finite s k := ofQuotient_units s k

theorem midpoint_self (x : Binary64) :
    midpoint x x = if TooLargeToDouble x then .infinity x.negative else x := by
  match x with
  | .nan s => rfl
  | .infinity s =>
    have hsum : infinity s + infinity s = infinity s := if_pos rfl
    rw [midpoint, hsum, infinity_div_two, if_neg fun h => Bool.false_ne_true h.1]
  | .finite s k =>
    obtain ⟨j, hj⟩ := exists_units_eq_two_mul k
    have hlimit : TooLargeToDouble (.finite s k) ↔ finiteCount ≤ j := by
      rw [tooLargeToDouble_finite_iff, ← hj, strictMono_units.le_iff_le]
    rw [midpoint, add_self_finite, ← hj]
    split
    · next hlarge =>
      have hsum : ofQuotient s (units j) 1 = .infinity s := by
        rw [ofQuotient, nearestIndex_units, dif_neg (Nat.not_lt.mpr (hlimit.mp hlarge))]
      rw [hsum, infinity_div_two]
      rfl
    · next hsmall =>
      have hlt : j < finiteCount := Nat.lt_of_not_le (mt hlimit.mpr hsmall)
      rw [ofQuotient_units s ⟨j, hlt⟩, finite_div_two s hlt k hj]

theorem sorted_replicate (n : Nat) (x : Binary64) :
    sorted (List.replicate n x) = List.replicate n x := by
  refine (eq_sorted (List.Perm.refl _) ?_).symm
  exact List.pairwise_replicate.mpr (.inr (le_refl _))

theorem median?_replicate {n : Nat} (hn : 0 < n) (x : Binary64) :
    median? (List.replicate n x) = some (if n % 2 = 1 then x else midpoint x x) := by
  have hcopy {i : Nat} (hi : i < n) : (sorted (List.replicate n x))[i]? = some x := by
    rw [sorted_replicate, List.getElem?_replicate, if_pos hi]
  split
  · next hodd =>
    rw [median?_of_odd (by rwa [List.length_replicate])]
    exact hcopy (by rw [List.length_replicate]; omega)
  · next heven =>
    apply median?_of_even
    · rw [List.length_replicate]
      omega
    · exact hcopy (by rw [List.length_replicate]; omega)
    · exact hcopy (by rw [List.length_replicate]; omega)

theorem sameNumber_self (hx : x.isNaN = false) : sameNumber x x = true := by
  match x with
  | .nan _ => cases hx
  | .infinity _ => simp [sameNumber]
  | .finite _ _ => simp [sameNumber]

theorem mean?_replicate {n : Nat} (hn : 0 < n) (hx : x.isNaN = false) :
    mean? (List.replicate n x) = some x := by
  obtain ⟨n, rfl⟩ := Nat.exists_eq_succ_of_ne_zero hn.ne'
  have hsame : (List.replicate n x).all (sameNumber · x) = true := by
    rw [List.all_eq_true]
    intro y hy
    rw [List.eq_of_mem_replicate hy]
    exact sameNumber_self hx
  rw [List.replicate_succ, mean?, if_pos hsame]

end TrialSummary.Binary64
