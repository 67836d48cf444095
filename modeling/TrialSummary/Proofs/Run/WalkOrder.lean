import Mathlib.Data.List.Basic
import TrialSummary.Run.Sweep

/-!
# The order of a walk

A walk changes the number of the trial fastest and the kind last: the trial at place `i` of the
kinds, `j` of the rates and `k` of the numbers stands at `(i * |rates| + j) * |numbers| + k`. Every
place below the product of the three lengths is of this form, so the order and the length determine
the walk.
-/

namespace TrialSummary

theorem getElem?_flatMap_of_length {α β : Type} {f : α → List β} {n : Nat}
    (hlength : ∀ a, (f a).length = n) {xs : List α} {i j : Nat} {a : α} {b : β}
    (ha : xs[i]? = some a) (hb : (f a)[j]? = some b) : (xs.flatMap f)[i * n + j]? = some b := by
  induction xs generalizing i with
  | nil => cases ha
  | cons x xs ih =>
    rw [List.flatMap_cons]
    cases i with
    | zero =>
      obtain rfl : x = a := Option.some.inj ha
      have hj : j < (f x).length := (List.getElem?_eq_some_iff.mp hb).1
      rwa [Nat.zero_mul, Nat.zero_add, List.getElem?_append_left hj]
    | succ i =>
      have hplace : (i + 1) * n + j - (f x).length = i * n + j := by
        rw [hlength, Nat.succ_mul]
        omega
      rw [List.getElem?_append_right (by rw [hlength, Nat.succ_mul]; omega), hplace]
      exact ih ha

namespace Sweep

variable {s : Sweep} {trials others : List TrialId}

/-- Trials in the order of a sweep. -/
structure InOrder (s : Sweep) (trials : List TrialId) : Prop where
  length_eq : trials.length = s.kinds.length * s.rates.length * s.numbers.length
  getElem?_eq : ∀ {i j k kind rate db}, s.kinds[i]? = some kind → s.rates[j]? = some rate →
    s.numbers[k]? = some db →
      trials[(i * s.rates.length + j) * s.numbers.length + k]? = some ⟨⟨kind, rate⟩, db⟩

theorem inOrder_walk (s : Sweep) : s.InOrder s.walk where
  length_eq := by
    simp [walk, configurations, trialsOf, List.length_flatMap]
  getElem?_eq {i j k kind rate db} hi hj hk := by
    have hrate : (s.rates.map (Configuration.mk kind))[j]? = some ⟨kind, rate⟩ := by
      rw [List.getElem?_map, hj, Option.map_some]
    have hconfig : s.configurations[i * s.rates.length + j]? = some ⟨kind, rate⟩ :=
      getElem?_flatMap_of_length (fun _ => List.length_map _) hi hrate
    have hnumber : (s.trialsOf ⟨kind, rate⟩)[k]? = some ⟨⟨kind, rate⟩, db⟩ := by
      rw [trialsOf, List.getElem?_map, hk, Option.map_some]
    exact getElem?_flatMap_of_length (fun _ => List.length_map _) hconfig hnumber

/-- A place of the walk belongs to one place in each of the three lists. -/
theorem exists_place {n : Nat} (h : n < s.kinds.length * s.rates.length * s.numbers.length) :
    ∃ i j k, n = (i * s.rates.length + j) * s.numbers.length + k ∧
      i < s.kinds.length ∧ j < s.rates.length ∧ k < s.numbers.length := by
  have hnumbers : 0 < s.numbers.length := Nat.pos_of_mul_pos_left (Nat.zero_lt_of_lt h)
  have hconfig : n / s.numbers.length < s.kinds.length * s.rates.length :=
    (Nat.div_lt_iff_lt_mul hnumbers).mpr h
  have hrates : 0 < s.rates.length := Nat.pos_of_mul_pos_left (Nat.zero_lt_of_lt hconfig)
  refine ⟨n / s.numbers.length / s.rates.length, n / s.numbers.length % s.rates.length,
    n % s.numbers.length, ?_, (Nat.div_lt_iff_lt_mul hrates).mpr hconfig, Nat.mod_lt _ hrates,
    Nat.mod_lt _ hnumbers⟩
  rw [Nat.div_add_mod', Nat.div_add_mod']

theorem InOrder.unique (h : s.InOrder trials) (h' : s.InOrder others) : trials = others := by
  refine List.ext_getElem? fun n => ?_
  by_cases hn : n < s.kinds.length * s.rates.length * s.numbers.length
  · obtain ⟨i, j, k, rfl, hi, hj, hk⟩ := exists_place hn
    have hkind := List.getElem?_eq_getElem hi
    have hrate := List.getElem?_eq_getElem hj
    have hdb := List.getElem?_eq_getElem hk
    rw [h.getElem?_eq hkind hrate hdb, h'.getElem?_eq hkind hrate hdb]
  · have hlength := h.length_eq
    have hlength' := h'.length_eq
    rw [List.getElem?_eq_none (by omega), List.getElem?_eq_none (by omega)]

/-- The walk is the one list of trials in the order of the sweep. -/
theorem inOrder_iff : s.InOrder trials ↔ trials = s.walk := by
  constructor
  · exact fun h => h.unique s.inOrder_walk
  · rintro rfl
    exact s.inOrder_walk

end Sweep

end TrialSummary
