import Mathlib.Data.List.Nodup
import TrialSummary.Run.Sweep

/-!
# The rates of a grid

No rate of a grid is cut down to the range of its type: the number of rates is chosen so that the
last of them is not beyond the end of the grid. So the rates increase, and none comes twice. They
are all the numbers between the ends of the grid that are whole steps away from the first one.

The same list comes from a walk that adds the step to the rate where it stands, looks first whether
the sum fits its type and then whether it is beyond the last rate, and stops if either is so. There
is no other list that such a walk from the first rate can give.
-/

namespace TrialSummary.RateGrid

variable {r : RateGrid} {i : Nat} {x y : UInt32}

theorem step_pos (hstep : r.step ≠ 0) : 0 < r.step.toNat := by
  rw [Nat.pos_iff_ne_zero, ← UInt32.toNat_zero, Ne, UInt32.toNat_inj]
  exact hstep

theorem rate_le (hstep : r.step ≠ 0) (hi : i < r.size) :
    r.first.toNat + i * r.step.toNat ≤ r.last.toNat := by
  rw [size, if_neg hstep] at hi
  split at hi
  · next hle =>
    have hdiv : i ≤ (r.last.toNat - r.first.toNat) / r.step.toNat := by omega
    have hmul := (Nat.le_div_iff_mul_le (step_pos hstep)).mp hdiv
    have hfirst := UInt32.le_iff_toNat_le.mp hle
    omega
  · omega

theorem toNat_rate (hi : i < r.size) :
    (UInt32.ofNat (r.first.toNat + i * r.step.toNat)).toNat =
      r.first.toNat + i * r.step.toNat := by
  apply UInt32.toNat_ofNat_of_lt'
  by_cases hstep : r.step = 0
  · have hfirst := r.first.toNat_lt
    rw [hstep, UInt32.toNat_zero, Nat.mul_zero]
    exact hfirst
  · exact Nat.lt_of_le_of_lt (rate_le hstep hi) r.last.toNat_lt

theorem pairwise_lt_rates (r : RateGrid) : r.rates.Pairwise (· < ·) := by
  rw [rates, List.pairwise_map]
  apply List.pairwise_lt_range.imp_of_mem
  intro i j hi hj hij
  rw [List.mem_range] at hi hj
  have hstep : 0 < r.step.toNat := by
    apply Nat.pos_of_ne_zero
    intro hzero
    -- without a step there is only one rate
    have hsize : r.size = 1 := if_pos (UInt32.toNat_inj.mp hzero)
    omega
  have hmul := Nat.mul_lt_mul_of_pos_right hij hstep
  rw [UInt32.lt_iff_toNat_lt, toNat_rate hi, toNat_rate hj]
  omega

theorem nodup_rates (r : RateGrid) : r.rates.Nodup := by
  apply r.pairwise_lt_rates.imp
  intro a b hab
  exact UInt32.ne_of_lt hab

theorem getElem?_rates_eq_some_iff :
    r.rates[i]? = some x ↔ i < r.size ∧ x.toNat = r.first.toNat + i * r.step.toNat := by
  rw [rates, List.getElem?_map, Option.map_eq_some_iff]
  constructor
  · rintro ⟨j, hj, rfl⟩
    obtain ⟨hi, rfl⟩ := List.getElem?_eq_some_iff.mp hj
    rw [List.length_range] at hi
    rw [List.getElem_range]
    exact ⟨hi, toNat_rate hi⟩
  · rintro ⟨hi, hx⟩
    refine ⟨i, List.getElem?_range hi, UInt32.toNat_inj.mp ?_⟩
    exact (toNat_rate hi).trans hx.symm

/-- The places go on as long as the end is not passed. -/
theorem lt_size_iff (hstep : r.step ≠ 0) :
    i < r.size ↔ r.first.toNat + i * r.step.toNat ≤ r.last.toNat := by
  refine ⟨rate_le hstep, fun hle => ?_⟩
  have hfirst : r.first ≤ r.last := by
    rw [UInt32.le_iff_toNat_le]
    omega
  have hmul : i * r.step.toNat ≤ r.last.toNat - r.first.toNat := by omega
  rw [size, if_neg hstep, if_pos hfirst, Nat.lt_succ_iff]
  exact (Nat.le_div_iff_mul_le (step_pos hstep)).mpr hmul

/-- The rates are the numbers between the ends that are whole steps away from the first one. -/
theorem mem_rates_iff (hstep : r.step ≠ 0) :
    x ∈ r.rates ↔ r.first ≤ x ∧ x ≤ r.last ∧ r.step.toNat ∣ x.toNat - r.first.toNat := by
  simp only [List.mem_iff_getElem?, getElem?_rates_eq_some_iff, lt_size_iff hstep,
    UInt32.le_iff_toNat_le]
  constructor
  · rintro ⟨i, hi, hx⟩
    refine ⟨by omega, by omega, i, ?_⟩
    rw [hx, Nat.add_sub_cancel_left, Nat.mul_comm]
  · rintro ⟨hfirst, hlast, i, hi⟩
    have hx : x.toNat = r.first.toNat + i * r.step.toNat := by
      rw [Nat.mul_comm, ← hi]
      omega
    exact ⟨i, hx ▸ hlast, hx⟩

/-- The rate behind another one. There is none if the sum does not fit its type, and none if the sum
is beyond the last rate. -/
def next? (r : RateGrid) (x : UInt32) : Option UInt32 :=
  if x.toNat + r.step.toNat < UInt32.size ∧ x + r.step ≤ r.last then some (x + r.step) else none

theorem toNat_add_of_fits (h : x.toNat + y.toNat < UInt32.size) :
    (x + y).toNat = x.toNat + y.toNat := by
  rw [UInt32.toNat_add]
  exact Nat.mod_eq_of_lt h

theorem next?_eq_some_iff :
    r.next? x = some y ↔ y.toNat = x.toNat + r.step.toNat ∧ y ≤ r.last := by
  rw [next?, Option.ite_none_right_eq_some, Option.some.injEq]
  constructor
  · rintro ⟨⟨hfits, hlast⟩, rfl⟩
    exact ⟨toNat_add_of_fits hfits, hlast⟩
  · rintro ⟨hy, hlast⟩
    have hfits : x.toNat + r.step.toNat < UInt32.size := hy ▸ y.toNat_lt
    have hsum : x + r.step = y := UInt32.toNat_inj.mp ((toNat_add_of_fits hfits).trans hy.symm)
    exact ⟨⟨hfits, hsum ▸ hlast⟩, hsum⟩

/-- One step of the walk leads from the rate at a place to the one behind it, or ends the walk where
there is none. -/
theorem getElem?_rates_succ (hstep : r.step ≠ 0) (hx : r.rates[i]? = some x) :
    r.rates[i + 1]? = r.next? x := by
  obtain ⟨-, hx⟩ := getElem?_rates_eq_some_iff.mp hx
  apply Option.ext
  intro y
  rw [getElem?_rates_eq_some_iff, next?_eq_some_iff, lt_size_iff hstep, UInt32.le_iff_toNat_le,
    Nat.succ_mul]
  constructor
  · rintro ⟨hlast, hy⟩
    omega
  · rintro ⟨hy, hlast⟩
    omega

/-- Going from a rate to the next one until there is none. -/
inductive Walk (r : RateGrid) : UInt32 → List UInt32 → Prop where
  | stop {x : UInt32} (h : r.next? x = none) : Walk r x [x]
  | step {x y : UInt32} {xs : List UInt32} (h : r.next? x = some y) (hrest : Walk r y xs) :
    Walk r x (x :: xs)

theorem Walk.unique {xs ys : List UInt32} (h : r.Walk x xs) (h' : r.Walk x ys) : xs = ys := by
  induction h generalizing ys with
  | stop hnone =>
    cases h' with
    | stop => rfl
    | step hsome => cases hnone.symm.trans hsome
  | step hsome _ ih =>
    cases h' with
    | stop hnone => cases hnone.symm.trans hsome
    | step hsome' hrest =>
      obtain rfl := Option.some.inj (hsome.symm.trans hsome')
      rw [ih hrest]

theorem next?_of_drop_rates (hstep : r.step ≠ 0) {xs : List UInt32}
    (h : r.rates.drop i = x :: xs) : r.next? x = xs.head? := by
  have hplace (j : Nat) : r.rates[i + j]? = (x :: xs)[j]? := by
    rw [← List.getElem?_drop, h]
  rw [← getElem?_rates_succ hstep (hplace 0), hplace 1, List.getElem?_cons_succ,
    List.head?_eq_getElem?]

/-- What is left of the rates from one place on is a walk. -/
theorem walk_of_drop_rates (hstep : r.step ≠ 0) {xs : List UInt32}
    (h : r.rates.drop i = x :: xs) : r.Walk x (x :: xs) := by
  induction xs generalizing i x with
  | nil => exact .stop (next?_of_drop_rates hstep h)
  | cons y ys ih =>
    have hrest : r.rates.drop (i + 1) = y :: ys := by
      rw [← List.tail_drop, h, List.tail_cons]
    exact .step (next?_of_drop_rates hstep h) (ih hrest)

theorem head?_rates (hstep : r.step ≠ 0) (h : r.first ≤ r.last) :
    r.rates.head? = some r.first := by
  rw [List.head?_eq_getElem?, getElem?_rates_eq_some_iff, lt_size_iff hstep, Nat.zero_mul]
  exact ⟨UInt32.le_iff_toNat_le.mp h, rfl⟩

/-- The walk from the first rate meets the rates and nothing else. -/
theorem walk_first_iff (hstep : r.step ≠ 0) (h : r.first ≤ r.last) {xs : List UInt32} :
    r.Walk r.first xs ↔ xs = r.rates := by
  have hrates : r.Walk r.first r.rates := by
    obtain ⟨ys, hys⟩ := List.head?_eq_some_iff.mp (head?_rates hstep h)
    rw [hys]
    exact walk_of_drop_rates (i := 0) hstep hys
  constructor
  · exact fun hwalk => hwalk.unique hrates
  · rintro rfl
    exact hrates

theorem rates_of_step_eq_zero (hstep : r.step = 0) : r.rates = [r.first] := by
  simp [rates, size, hstep]

theorem rates_ne_nil (h : r.first ≤ r.last) : r.rates ≠ [] := by
  by_cases hstep : r.step = 0
  · rw [rates_of_step_eq_zero hstep]
    exact List.cons_ne_nil _ _
  · intro hnil
    have hhead := head?_rates hstep h
    rw [hnil] at hhead
    cases hhead

theorem first_le_last_of_fault?_eq_none {s : Settings} (h : s.fault? = none) :
    s.sweep.rates.first ≤ s.sweep.rates.last := by
  by_contra hlt
  rw [Settings.fault?, if_pos (UInt32.not_le.mp hlt)] at h
  split at h <;> cases h

/-- A grid without a step has its first rate alone. Otherwise its rates increase and are the numbers
between its ends that are whole steps away from the first one; if there are any, the first one is
among them, and their number follows from the ends. None of them is cut down to the range of its
type, and each one follows from the one in front of it by a step that is not taken if it would leave
the range or pass the end, so that the walk from the first rate on meets them all and ends. A sweep
by faultless settings has a rate, and no rate twice. -/
theorem rates_exact (r : RateGrid) :
    (r.step = 0 → r.rates = [r.first]) ∧
      (r.step ≠ 0 →
        r.rates.Pairwise (· < ·) ∧
        (∀ x, x ∈ r.rates ↔ r.first ≤ x ∧ x ≤ r.last ∧ r.step.toNat ∣ x.toNat - r.first.toNat) ∧
        (r.last < r.first → r.rates = []) ∧
        (r.first ≤ r.last → r.rates.head? = some r.first ∧
          r.rates.length = (r.last.toNat - r.first.toNat) / r.step.toNat + 1 ∧
          ∀ xs, r.Walk r.first xs ↔ xs = r.rates) ∧
        ∀ i x, r.rates[i]? = some x →
          x.toNat = r.first.toNat + i * r.step.toNat ∧ r.rates[i + 1]? = r.next? x) ∧
      ∀ s : Settings, s.fault? = none →
        (Sweep.ofSettings s.sweep).rates ≠ [] ∧ (Sweep.ofSettings s.sweep).rates.Nodup := by
  refine ⟨rates_of_step_eq_zero, fun hstep => ?_, fun s hs => ?_⟩
  · refine ⟨r.pairwise_lt_rates, fun x => mem_rates_iff hstep, fun hlt => ?_, fun hle => ?_, ?_⟩
    · apply List.eq_nil_iff_length_eq_zero.mpr
      rw [length_rates, size, if_neg hstep, if_neg (UInt32.not_le.mpr hlt)]
    · refine ⟨head?_rates hstep hle, ?_, fun xs => walk_first_iff hstep hle⟩
      rw [length_rates, size, if_neg hstep, if_pos hle]
    · intro i x hx
      exact ⟨(getElem?_rates_eq_some_iff.mp hx).2, getElem?_rates_succ hstep hx⟩
  · exact ⟨rates_ne_nil (first_le_last_of_fault?_eq_none hs), nodup_rates _⟩

/-- A grid that ends where its type does. Behind the last rate the sum is cut down to a small
number, which is no rate. A grid with its ends the wrong way round has no rates, or one if it has no
step. -/
theorem rates_exact_at_end :
    let r : RateGrid := ⟨4294967285, 4294967295, 4⟩
    r.rates = [4294967285, 4294967289, 4294967293] ∧ r.step ≠ 0 ∧ r.first ≤ r.last ∧
      r.rates.length = 3 ∧ (4294967293 + r.step ≤ r.last ∧ r.next? 4294967293 = none) ∧
      (4294967293 : UInt32) ∈ r.rates ∧ r.rates[2 + 1]? = r.next? 4294967293 ∧
      r.Walk 4294967285 [4294967285, 4294967289, 4294967293] ∧
      (Sweep.ofSettings { rates := r }).rates ≠ [] ∧
      rates ⟨7, 3, 2⟩ = [] ∧ rates ⟨7, 3, 0⟩ = [7] := by
  intro r
  have hrates : r.rates = [4294967285, 4294967289, 4294967293] := by decide +kernel
  have hstep : r.step ≠ 0 := by decide
  have hle : r.first ≤ r.last := by decide
  obtain ⟨-, hwalk, hsettings⟩ := rates_exact r
  obtain ⟨-, hmem, -, hsize, hnext⟩ := hwalk hstep
  have hwrap : 4294967293 + r.step ≤ r.last ∧ r.next? 4294967293 = none := by decide +kernel
  refine ⟨hrates, hstep, hle, (hsize hle).2.1.trans (by decide), hwrap, ?_, ?_, ?_, ?_, ?_, ?_⟩
  · exact (hmem _).mpr ⟨by decide, by decide, 2, by decide⟩
  · exact (hnext 2 _ (by rw [hrates]; rfl)).2
  · exact ((hsize hle).2.2 _).mpr hrates.symm
  · exact (hsettings { sweep := { rates := r } } (by decide +kernel)).1
  · obtain ⟨-, -, hempty, -⟩ := (rates_exact ⟨7, 3, 2⟩).2.1 (by decide)
    exact hempty (by decide)
  · exact (rates_exact ⟨7, 3, 0⟩).1 rfl

end TrialSummary.RateGrid
