import TrialSummary.Proofs.Binary64.Arithmetic
import TrialSummary.Proofs.Binary64.Statistic

/-!
# The median

Values with one rank are one value, so a list has only one sorted form, and its median does not
depend on its order, whatever NaNs, infinities and zeros of either sign are in it. The median of an
odd number of finite values is one of them.

For an even number it is the midpoint of the middle two, which takes two roundings. Twice a number of
the grid is on the grid as well, so the rounded sum of two numbers is between their doubles, and half
of it is between the numbers, down to the subnormal ones. Only a sum that is not finite has no
midpoint.
-/

namespace TrialSummary

/-- In a list that is ordered by `r`, a value has its predecessors in front of it. -/
theorem succ_le_countP {α : Type} {r : α → α → Prop} {s : List α} {i : Nat} {a : α}
    {p : α → Bool} (hs : s.Pairwise r) (ha : s[i]? = some a) (hbefore : ∀ x, r x a → p x = true)
    (hself : p a = true) : i + 1 ≤ s.countP p := by
  obtain ⟨hi, rfl⟩ := List.getElem?_eq_some_iff.mp ha
  have hsplit : s.take i ++ s[i] :: s.drop (i + 1) = s := by
    rw [List.getElem_cons_drop, List.take_append_drop]
  have hall : (s.take i).countP p = (s.take i).length := by
    rw [List.countP_eq_length]
    intro x hx
    rw [← hsplit, List.pairwise_append] at hs
    exact hbefore x (hs.2.2 x hx _ List.mem_cons_self)
  calc i + 1 ≤ (s.take i).countP p + (s[i] :: s.drop (i + 1)).countP p := by
        rw [hall, List.length_take_of_le (Nat.le_of_lt hi), List.countP_cons_of_pos hself]
        omega
    _ = s.countP p := by rw [← List.countP_append, hsplit]

/-- In a list that is ordered by `r`, a value has its successors behind it. -/
theorem length_le_add_countP {α : Type} {r : α → α → Prop} {s : List α} {i : Nat} {a : α}
    {p : α → Bool} (hs : s.Pairwise r) (ha : s[i]? = some a) (hbehind : ∀ x, r a x → p x = true)
    (hself : p a = true) : s.length ≤ i + s.countP p := by
  have hi : i < s.length := (List.getElem?_eq_some_iff.mp ha).1
  have hmirror : s.reverse[s.length - 1 - i]? = some a := by
    rw [List.getElem?_reverse (by omega), show s.length - 1 - (s.length - 1 - i) = i by omega, ha]
  have hordered : s.reverse.Pairwise fun x y => r y x := List.pairwise_reverse.mpr hs
  have hcount := succ_le_countP hordered hmirror hbehind hself
  rw [List.countP_reverse] at hcount
  omega

namespace Binary64

variable {x y : Binary64} {xs ys s : List Binary64}

theorem toRat_le_of_rank_le (hx : x.isFinite = true) (hy : y.isFinite = true)
    (h : x.rank ≤ y.rank) : x.toRat ≤ y.toRat := by
  obtain ⟨s, j, rfl⟩ := exists_finite hx
  obtain ⟨t, k, rfl⟩ := exists_finite hy
  rw [toRat_eq_grid, toRat_eq_grid, strictMono_grid.le_iff_le]
  cases s <;> cases t <;> simp [rank, place, negative, magnitudeRank] at h ⊢ <;> omega

/-- The midpoint of two numbers is the rounded half of their rounded sum. -/
theorem nearestTo_midpoint (hsum : (x + y).isFinite = true) :
    NearestTo ((x + y).toRat / 2) (midpoint x y) := by
  obtain ⟨htwo, hvalue⟩ := ofNat_of_le (n := 2) (by decide)
  have htwo' : (ofNat 2).toRat = 2 := hvalue
  have hfinite : (midpoint x y).isFinite = true := isFinite_div hsum htwo (by rw [htwo']; norm_num)
  have hround := nearestTo_div hsum htwo (by rw [htwo']; norm_num) hfinite
  rwa [htwo'] at hround

theorem midpoint_between (hx : x.isFinite = true) (hy : y.isFinite = true)
    (hle : x.toRat ≤ y.toRat) (hsum : (x + y).isFinite = true) :
    x.toRat ≤ (midpoint x y).toRat ∧ (midpoint x y).toRat ≤ y.toRat := by
  have hadd := nearestTo_add hx hy hsum
  have hhalf := nearestTo_midpoint hsum
  obtain ⟨v, hv⟩ := exists_grid_eq_two_mul x.place
  obtain ⟨w, hw⟩ := exists_grid_eq_two_mul y.place
  rw [← toRat_eq_grid] at hv hw
  have hlower : grid v ≤ (x + y).toRat := hadd.grid_le (by linarith)
  have hupper : (x + y).toRat ≤ grid w := hadd.le_grid (by linarith)
  constructor
  · rw [toRat_eq_grid x] at hv ⊢
    exact hhalf.grid_le (by linarith)
  · rw [toRat_eq_grid y] at hw ⊢
    exact hhalf.le_grid (by linarith)

theorem sorted_perm (xs : List Binary64) : (sorted xs).Perm xs := List.mergeSort_perm xs totalLe

theorem pairwise_sorted (xs : List Binary64) :
    (sorted xs).Pairwise fun x y => x.rank ≤ y.rank := by
  refine (List.pairwise_mergeSort ?_ totalLe_total xs).imp totalLe_iff.mp
  exact fun _ _ _ => totalLe_trans

theorem eq_sorted (hperm : s.Perm xs) (hordered : s.Pairwise fun x y => x.rank ≤ y.rank) :
    s = sorted xs := by
  refine (hperm.trans (sorted_perm xs).symm).eq_of_pairwise ?_ hordered (pairwise_sorted xs)
  exact fun x y _ _ hxy hyx => rank_injective (le_antisymm hxy hyx)

theorem median?_eq_of_perm (h : ys.Perm xs) : median? ys = median? xs := by
  have hsorted : sorted ys = sorted xs :=
    eq_sorted ((sorted_perm ys).trans h) (pairwise_sorted ys)
  rw [median?, median?, hsorted]

theorem median?_of_odd (hodd : xs.length % 2 = 1) :
    median? xs = (sorted xs)[xs.length / 2]? := by
  simp only [median?, length_sorted, hodd, if_true]

theorem median?_of_even {a b : Binary64} (heven : xs.length % 2 = 0)
    (ha : (sorted xs)[xs.length / 2 - 1]? = some a) (hb : (sorted xs)[xs.length / 2]? = some b) :
    median? xs = some (midpoint a b) := by
  have hodd : ¬xs.length % 2 = 1 := by omega
  simp only [median?, length_sorted, if_neg hodd, ha, hb]
  rfl

/-- At least half of the values are not above a number, and at least half are not below it. -/
structure Halves (xs : List Binary64) (m : Binary64) : Prop where
  below : xs.length ≤ 2 * xs.countP fun x => decide (x.toRat ≤ m.toRat)
  above : xs.length ≤ 2 * xs.countP fun x => decide (m.toRat ≤ x.toRat)

/-- Whatever is between the middle values of the sorted list halves it. -/
theorem halves_of_between (hfinite : ∀ x ∈ xs, x.isFinite = true) {m a b : Binary64} {i j : Nat}
    (ha : (sorted xs)[i]? = some a) (hb : (sorted xs)[j]? = some b)
    (hi : xs.length ≤ 2 * (i + 1)) (hj : 2 * j ≤ xs.length)
    (ham : a.toRat ≤ m.toRat) (hmb : m.toRat ≤ b.toRat) : Halves xs m := by
  have hordered : (sorted xs).Pairwise fun x y => x.toRat ≤ y.toRat := by
    refine (pairwise_sorted xs).imp_of_mem fun {x y} hx hy h => ?_
    exact toRat_le_of_rank_le (hfinite x ((sorted_perm xs).mem_iff.mp hx))
      (hfinite y ((sorted_perm xs).mem_iff.mp hy)) h
  constructor
  · have hcount := succ_le_countP (p := fun x => decide (x.toRat ≤ m.toRat)) hordered ha
      (fun x hx => decide_eq_true (le_trans hx ham)) (decide_eq_true ham)
    rw [(sorted_perm xs).countP_eq] at hcount
    omega
  · have hcount := length_le_add_countP (p := fun x => decide (m.toRat ≤ x.toRat)) hordered hb
      (fun x hx => decide_eq_true (le_trans hmb hx)) (decide_eq_true hmb)
    rw [(sorted_perm xs).countP_eq, length_sorted] at hcount
    omega

/-- The median is the same for each order of the values, and there is one unless there are no
values. For finite values it is taken from the middle of the sorted list: it is the middle value of
an odd number, and between the middle two of an even number if their sum does not overflow. Then it
halves the values. -/
theorem median?_middle (xs : List Binary64) :
    (∀ ys, ys.Perm xs → median? ys = median? xs) ∧ (median? xs = none ↔ xs = []) ∧
      ∀ s : List Binary64, s.Perm xs → s.Pairwise (fun x y => x.rank ≤ y.rank) → xs ≠ [] →
        (∀ x ∈ xs, x.isFinite = true) →
        (xs.length % 2 = 1 →
          ∃ m, s[xs.length / 2]? = some m ∧ median? xs = some m ∧ Halves xs m) ∧
        (xs.length % 2 = 0 →
          ∃ a b : Binary64, s[xs.length / 2 - 1]? = some a ∧ s[xs.length / 2]? = some b ∧
            ((a + b).isFinite = true →
              ∃ m, median? xs = some m ∧ m.isFinite = true ∧ a.toRat ≤ m.toRat ∧
                m.toRat ≤ b.toRat ∧ Halves xs m)) := by
  refine ⟨fun ys h => median?_eq_of_perm h, ?_, ?_⟩
  · rw [← Option.not_isSome_iff_eq_none, isSome_median?_iff, not_not]
  · intro s hperm hordered hne hfinite
    obtain rfl := eq_sorted hperm hordered
    have hlength : 0 < xs.length := List.length_pos_iff.mpr hne
    have hupper : xs.length / 2 < (sorted xs).length := by
      rw [length_sorted]
      omega
    have hlower : xs.length / 2 - 1 < (sorted xs).length := by omega
    have hb := List.getElem?_eq_getElem hupper
    have ha := List.getElem?_eq_getElem hlower
    have hmember (i : Nat) (hi : i < (sorted xs).length) : (sorted xs)[i].isFinite = true :=
      hfinite _ ((sorted_perm xs).mem_iff.mp (List.getElem_mem hi))
    refine ⟨fun hodd => ⟨_, hb, ?_, ?_⟩, fun heven => ⟨_, _, ha, hb, fun hsum => ?_⟩⟩
    · rw [median?_of_odd hodd, hb]
    · exact halves_of_between hfinite hb hb (by omega) (by omega) (le_refl _) (le_refl _)
    · have hrank := List.pairwise_iff_getElem.mp hordered _ _ hlower hupper (by omega)
      have hle := toRat_le_of_rank_le (hmember _ hlower) (hmember _ hupper) hrank
      obtain ⟨hma, hmb⟩ := midpoint_between (hmember _ hlower) (hmember _ hupper) hle hsum
      refine ⟨_, median?_of_even heven ha hb, (nearestTo_midpoint hsum).isFinite, hma, hmb, ?_⟩
      exact halves_of_between hfinite ha hb (by omega) (by omega) hma hmb

/-- The middle of one and two units is rounded to two units. -/
theorem median?_of_subnormals :
    let tiny (k : Fin 8) : Binary64 := .finite false ⟨k, Nat.lt_trans k.isLt (by decide)⟩
    let xs := [tiny 2, zero true, tiny 7, tiny 1]
    median? xs.reverse = median? xs ∧ median? xs ≠ none ∧
      (∃ m, median? xs = some m ∧ m.isFinite = true ∧ (tiny 1).toRat ≤ m.toRat ∧
        m.toRat ≤ (tiny 2).toRat ∧ Halves xs m ∧ m = tiny 2) ∧
      median? [tiny 7, zero true, tiny 1] = some (tiny 1) := by
  intro tiny xs
  have hperm : [zero true, tiny 1, tiny 2, tiny 7].Perm xs := by decide
  have hordered : [zero true, tiny 1, tiny 2, tiny 7].Pairwise fun x y => x.rank ≤ y.rank := by
    decide
  have hindex : xs.length / 2 = 2 := by decide
  obtain ⟨horder, hnone, hmiddle⟩ := median?_middle xs
  obtain ⟨-, heven⟩ := hmiddle _ hperm hordered (List.cons_ne_nil _ _) (by decide)
  obtain ⟨a, b, ha, hb, hbetween⟩ := heven (by decide)
  rw [hindex] at ha hb
  have ha' : tiny 1 = a := Option.some.inj ha
  have hb' : tiny 2 = b := Option.some.inj hb
  rw [← ha', ← hb'] at hbetween
  obtain ⟨m, hm, hfinite, hlower, hupper, hhalves⟩ := hbetween (by decide +kernel)
  have hmidpoint : median? xs = some (midpoint (tiny 1) (tiny 2)) := by
    have hsorted := eq_sorted hperm hordered
    rw [ha', hb']
    apply median?_of_even (by decide) <;> rw [← hsorted, hindex] <;> assumption
  have hround : midpoint (tiny 1) (tiny 2) = tiny 2 := by decide +kernel
  have hm' : m = tiny 2 := by
    rw [hmidpoint, hround] at hm
    exact (Option.some.inj hm).symm
  obtain ⟨-, -, hmiddle'⟩ := median?_middle [tiny 7, zero true, tiny 1]
  obtain ⟨hodd, -⟩ := hmiddle' [zero true, tiny 1, tiny 7] (by decide) (by decide)
    (List.cons_ne_nil _ _) (by decide)
  obtain ⟨n, hn, hmedian, -⟩ := hodd (by decide)
  have hindex' : [tiny 7, zero true, tiny 1].length / 2 = 1 := by decide
  rw [hindex'] at hn
  have hn' : tiny 1 = n := Option.some.inj hn
  refine ⟨horder _ (List.reverse_perm xs), fun h => List.cons_ne_nil _ _ (hnone.mp h), ?_, ?_⟩
  · exact ⟨m, hm, hfinite, hlower, hupper, hhalves, hm'⟩
  · rw [hmedian, hn']

end Binary64

end TrialSummary
