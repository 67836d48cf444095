import Mathlib.Algebra.Order.BigOperators.Group.List
import TrialSummary.Proofs.Binary64.Arithmetic
import TrialSummary.Proofs.Binary64.Statistic

/-!
# The mean of whole numbers

A sum of finite whole numbers is exact as long as their sizes add up to at most `2 ^ 53`: no partial
sum is larger than that, and whole numbers of that size stand on the grid. The number of values is
exact for the same reason, so the division is the only step that rounds, and the mean is the number
nearest to the average. If all values are equal then the average is one of them and there is nothing
to round, which gives the same number.

The average does not depend on the order of the values and is between the least and the greatest of
them. Both are kept by the rounding.
-/

namespace TrialSummary.Binary64

variable {x y : Binary64} {xs ys : List Binary64}

/-- A finite number without a fraction. -/
def IsWhole (x : Binary64) : Prop := x.isFinite = true ∧ ∃ z : Int, x.toRat = z

theorem isWhole_zero (s : Bool) : IsWhole (zero s) := ⟨rfl, 0, by simp⟩

theorem IsWhole.add (hx : IsWhole x) (hy : IsWhole y) (hsize : |x.toRat| + |y.toRat| ≤ 2 ^ 53) :
    IsWhole (x + y) ∧ (x + y).toRat = x.toRat + y.toRat := by
  obtain ⟨hxfinite, v, hv⟩ := hx
  obtain ⟨hyfinite, w, hw⟩ := hy
  have hcast : x.toRat + y.toRat = (v + w : Int) := by rw [hv, hw, Int.cast_add]
  have hbound : (v + w).natAbs ≤ 2 ^ 53 := by
    have habs : |((v + w : Int) : Rat)| ≤ 2 ^ 53 := by
      rw [← hcast]
      exact le_trans (abs_add_le _ _) hsize
    rw [← Int.cast_abs, Int.abs_eq_natAbs] at habs
    exact_mod_cast habs
  obtain ⟨p, hp, hcount⟩ := exists_grid_eq_intCast hbound
  obtain ⟨hfinite, hvalue⟩ := add_of_grid hxfinite hyfinite hcount (by rw [hcast, hp])
  exact ⟨⟨hfinite, v + w, by rw [hvalue, hp]⟩, by rw [hvalue, hp, hcast]⟩

/-- Whole numbers whose sizes add up to at most `2 ^ 53`. -/
structure WholeNumbers (xs : List Binary64) : Prop where
  whole : ∀ x ∈ xs, IsWhole x
  sizes : (xs.map fun x => |x.toRat|).sum ≤ 2 ^ 53

theorem WholeNumbers.perm (h : WholeNumbers xs) (hperm : ys.Perm xs) : WholeNumbers ys where
  whole x hx := h.whole x (hperm.mem_iff.mp hx)
  sizes := by
    rw [(hperm.map fun x => |x.toRat|).sum_eq]
    exact h.sizes

theorem sum_abs_nonneg (xs : List Binary64) : 0 ≤ (xs.map fun x => |x.toRat|).sum := by
  apply List.sum_nonneg
  simp only [List.mem_map, forall_exists_index, and_imp, forall_apply_eq_imp_iff₂]
  exact fun x _ => abs_nonneg x.toRat

theorem foldl_add_of_whole (a : Binary64) (xs : List Binary64) (ha : IsWhole a)
    (hxs : ∀ x ∈ xs, IsWhole x)
    (hsize : |a.toRat| + (xs.map fun x => |x.toRat|).sum ≤ 2 ^ 53) :
    IsWhole (xs.foldl add a) ∧ (xs.foldl add a).toRat = a.toRat + (xs.map toRat).sum := by
  induction xs generalizing a with
  | nil => exact ⟨ha, by simp⟩
  | cons x xs ih =>
    rw [List.map_cons, List.sum_cons] at hsize
    have hrest := sum_abs_nonneg xs
    obtain ⟨hwhole, hvalue⟩ := ha.add (hxs x List.mem_cons_self) (by linarith)
    have hpartial : |(a + x).toRat| ≤ |a.toRat| + |x.toRat| := by
      rw [hvalue]
      exact abs_add_le _ _
    obtain ⟨hsum, htotal⟩ := ih (a + x) hwhole (fun y hy => hxs y (List.mem_cons_of_mem _ hy))
      (by linarith)
    refine ⟨hsum, htotal.trans ?_⟩
    rw [hvalue, List.map_cons, List.sum_cons, add_assoc]

theorem sum_of_whole (h : WholeNumbers xs) :
    IsWhole (sum xs) ∧ (sum xs).toRat = (xs.map toRat).sum := by
  have hzero := toRat_zero false
  obtain ⟨hwhole, hvalue⟩ := foldl_add_of_whole (zero false) xs (isWhole_zero false) h.whole
    (by rw [hzero, abs_zero, zero_add]; exact h.sizes)
  rw [hzero, zero_add] at hvalue
  exact ⟨hwhole, hvalue⟩

def average (xs : List Binary64) : Rat := (xs.map toRat).sum / xs.length

theorem average_eq_of_perm (h : ys.Perm xs) : average ys = average xs := by
  rw [average, average, (h.map toRat).sum_eq, h.length_eq]

theorem length_cast_pos (hne : xs ≠ []) : (0 : Rat) < xs.length := by
  exact_mod_cast List.length_pos_iff.mpr hne

theorem le_average {q : Rat} (hne : xs ≠ []) (h : ∀ x ∈ xs, q ≤ x.toRat) : q ≤ average xs := by
  rw [average, le_div_iff₀ (length_cast_pos hne), mul_comm, ← nsmul_eq_mul]
  have hsum := List.card_nsmul_le_sum (xs.map toRat) q (by simpa using h)
  rwa [List.length_map] at hsum

theorem average_le {q : Rat} (hne : xs ≠ []) (h : ∀ x ∈ xs, x.toRat ≤ q) : average xs ≤ q := by
  rw [average, div_le_iff₀ (length_cast_pos hne), mul_comm, ← nsmul_eq_mul]
  have hsum := List.sum_le_card_nsmul (xs.map toRat) q (by simpa using h)
  rwa [List.length_map] at hsum

theorem toRat_eq_of_sameNumber (h : sameNumber x y = true) : x.toRat = y.toRat := by
  cases x <;> cases y <;> simp [sameNumber] at h
  · rfl
  · rename_i s j t k
    obtain ⟨rfl, rfl⟩ | ⟨hj, hk⟩ := h
    · rfl
    · rw [toRat_finite, toRat_finite, hj, hk]
      simp [signed]

/-- Adding the values and dividing once gives the number nearest to the average. -/
theorem nearestTo_sum_div (hne : xs ≠ []) (h : WholeNumbers xs) (hlength : xs.length ≤ 2 ^ 53) :
    NearestTo (average xs) (sum xs / ofNat xs.length) := by
  obtain ⟨⟨hfinite, -⟩, hsum⟩ := sum_of_whole h
  obtain ⟨hcount, hvalue⟩ := ofNat_of_le hlength
  have hone : 1 ≤ (ofNat xs.length).toRat := by
    rw [hvalue]
    exact_mod_cast List.length_pos_iff.mpr hne
  have hround := nearestTo_div hfinite hcount (by linarith) (isFinite_div hfinite hcount hone)
  rwa [hsum, hvalue] at hround

/-- The first of equal values is their average. -/
theorem nearestTo_of_all_same (h : WholeNumbers (x :: xs))
    (hsame : xs.all (sameNumber · x) = true) : NearestTo (average (x :: xs)) x := by
  have hvalue : ∀ y ∈ x :: xs, y.toRat = x.toRat := by
    rw [List.forall_mem_cons]
    exact ⟨rfl, fun y hy => toRat_eq_of_sameNumber (List.all_eq_true.mp hsame y hy)⟩
  have haverage : average (x :: xs) = x.toRat :=
    le_antisymm (average_le (List.cons_ne_nil _ _) fun y hy => (hvalue y hy).le)
      (le_average (List.cons_ne_nil _ _) fun y hy => (hvalue y hy).ge)
  rw [haverage]
  exact nearestTo_toRat (h.whole x List.mem_cons_self).1

theorem exists_mean?_nearestTo (hne : xs ≠ []) (h : WholeNumbers xs)
    (hlength : xs.length ≤ 2 ^ 53) : ∃ m, mean? xs = some m ∧ NearestTo (average xs) m := by
  cases xs with
  | nil => exact absurd rfl hne
  | cons x xs =>
    rw [mean?]
    split
    · next hsame => exact ⟨x, rfl, nearestTo_of_all_same h hsame⟩
    · exact ⟨_, rfl, nearestTo_sum_div hne h hlength⟩

/-- The mean of whole numbers whose sizes add up to at most `2 ^ 53` is the number nearest to their
average, and the same number as the quotient of their sum, also where equal values are returned
as they are. So it is one number for all orders of the values, and between the least and the
greatest of them. -/
theorem mean?_of_whole (xs : List Binary64) (hne : xs ≠ []) (h : WholeNumbers xs)
    (hlength : xs.length ≤ 2 ^ 53) :
    ∃ m, mean? xs = some m ∧ NearestTo (average xs) m ∧
      NearestTo (average xs) (sum xs / ofNat xs.length) ∧
      m.toRat = (sum xs / ofNat xs.length).toRat ∧
      (∀ ys, ys.Perm xs → ∃ m', mean? ys = some m' ∧ m'.toRat = m.toRat) ∧
      (∀ a ∈ xs, (∀ x ∈ xs, a.toRat ≤ x.toRat) → a.toRat ≤ m.toRat) ∧
      ∀ b ∈ xs, (∀ x ∈ xs, x.toRat ≤ b.toRat) → m.toRat ≤ b.toRat := by
  obtain ⟨m, hm, hnearest⟩ := exists_mean?_nearestTo hne h hlength
  have hdivided := nearestTo_sum_div hne h hlength
  refine ⟨m, hm, hnearest, hdivided, hnearest.toRat_unique hdivided, ?_, ?_, ?_⟩
  · intro ys hperm
    have hne' : ys ≠ [] := by
      rintro rfl
      exact hne hperm.nil_eq.symm
    obtain ⟨m', hm', hnearest'⟩ := exists_mean?_nearestTo hne' (h.perm hperm)
      (hperm.length_eq ▸ hlength)
    rw [average_eq_of_perm hperm] at hnearest'
    exact ⟨m', hm', hnearest'.toRat_unique hnearest⟩
  · intro a _ hleast
    have hle := le_average hne hleast
    rw [toRat_eq_grid a] at hle ⊢
    exact hnearest.grid_le hle
  · intro b _ hgreatest
    have hle := average_le hne hgreatest
    rw [toRat_eq_grid b] at hle ⊢
    exact hnearest.le_grid hle

/-- The mean of three counts whose average has no finite binary expansion. -/
theorem mean?_of_three_counts :
    ∃ m, mean? [ofNat 30, ofNat 36, ofNat 41] = some m ∧ NearestTo (107 / 3) m ∧
      (∃ m', mean? [ofNat 41, ofNat 36, ofNat 30] = some m' ∧ m'.toRat = m.toRat) ∧
      30 ≤ m.toRat ∧ m.toRat ≤ 41 := by
  obtain ⟨h30, hvalue30⟩ := ofNat_of_le (n := 30) (by decide)
  obtain ⟨h36, hvalue36⟩ := ofNat_of_le (n := 36) (by decide)
  obtain ⟨h41, hvalue41⟩ := ofNat_of_le (n := 41) (by decide)
  have hwhole : WholeNumbers [ofNat 30, ofNat 36, ofNat 41] := by
    constructor
    · simp only [List.forall_mem_cons, List.not_mem_nil, false_imp_iff, implies_true, and_true]
      exact ⟨⟨h30, 30, hvalue30⟩, ⟨h36, 36, hvalue36⟩, h41, 41, hvalue41⟩
    · simp [hvalue30, hvalue36, hvalue41]
      norm_num
  obtain ⟨m, hm, hnearest, -, -, horder, hleast, hgreatest⟩ :=
    mean?_of_whole _ (List.cons_ne_nil _ _) hwhole (by decide)
  have haverage : average [ofNat 30, ofNat 36, ofNat 41] = 107 / 3 := by
    simp [average, hvalue30, hvalue36, hvalue41]
    norm_num
  refine ⟨m, hm, haverage ▸ hnearest, horder _ (List.reverse_perm [ofNat 30, ofNat 36, ofNat 41]),
    ?_, ?_⟩
  · have hle := hleast (ofNat 30) (by simp) (by simp [hvalue30, hvalue36, hvalue41]; norm_num)
    rwa [hvalue30] at hle
  · have hle := hgreatest (ofNat 41) (by simp) (by simp [hvalue30, hvalue36, hvalue41]; norm_num)
    rwa [hvalue41] at hle

end TrialSummary.Binary64
