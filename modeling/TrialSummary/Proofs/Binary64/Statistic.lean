import TrialSummary.Binary64.Statistic

/-!
# Statistics of some values

Values have a median and a mean if there are any values at all.
-/

namespace TrialSummary.Binary64

theorem isSome_median?_iff {xs : List Binary64} : (median? xs).isSome ↔ xs ≠ [] := by
  constructor
  · rintro h rfl
    simp at h
  · intro h
    have hlength : 0 < (sorted xs).length := by
      rw [length_sorted]
      exact List.length_pos_iff.mpr h
    have hupper : (sorted xs).length / 2 < (sorted xs).length := by omega
    have hlower : (sorted xs).length / 2 - 1 < (sorted xs).length := by omega
    simp only [median?, List.getElem?_eq_getElem hupper, List.getElem?_eq_getElem hlower]
    split <;> rfl

theorem isSome_mean?_iff {xs : List Binary64} : (mean? xs).isSome ↔ xs ≠ [] := by
  cases xs with
  | nil => simp
  | cons x xs =>
    simp only [mean?]
    split <;> simp

end TrialSummary.Binary64
