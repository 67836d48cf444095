import Mathlib.Data.List.Forall2

/-!
# Traversals that may fail

A traversal of a list runs a step on each element and ends with the first failure. It either has a
result for every element, in order, or it has the failure of an element in front of which all steps
succeed; there is no third case.
-/

namespace TrialSummary

variable {α β γ ε : Type}

theorem bind_eq_ok_iff {x : Except ε α} {f : α → Except ε β} {b : β} :
    (x >>= f) = .ok b ↔ ∃ a, x = .ok a ∧ f a = .ok b := by
  cases x with
  | error e => simp [bind, Except.bind]
  | ok a => simp [bind, Except.bind]

theorem bind_eq_error_iff {x : Except ε α} {f : α → Except ε β} {e : ε} :
    (x >>= f) = .error e ↔ x = .error e ∨ ∃ a, x = .ok a ∧ f a = .error e := by
  cases x with
  | error e => simp [bind, Except.bind]
  | ok a => simp [bind, Except.bind]

theorem map_eq_ok_iff {x : Except ε α} {f : α → β} {b : β} :
    x.map f = .ok b ↔ ∃ a, x = .ok a ∧ f a = b := by
  cases x with
  | error e => simp [Except.map]
  | ok a => simp [Except.map]

theorem map_eq_error_iff {x : Except ε α} {f : α → β} {e : ε} :
    x.map f = .error e ↔ x = .error e := by
  cases x with
  | error e => simp [Except.map]
  | ok a => simp [Except.map]

/-- Each element of a list has the result at its place. -/
abbrev Results (f : α → Except ε β) (xs : List α) (ys : List β) : Prop :=
  List.Forall₂ (fun x y => f x = .ok y) xs ys

/-- The failure of an element in front of which every element has a result. -/
def FirstFailure (f : α → Except ε β) (xs : List α) (e : ε) : Prop :=
  ∃ before x after, xs = before ++ x :: after ∧ (∃ ys, Results f before ys) ∧ f x = .error e

section

variable {f : α → Except ε β} {x : α} {xs : List α} {e : ε}

theorem firstFailure_cons_of_error (h : f x = .error e) : FirstFailure f (x :: xs) e :=
  ⟨[], x, xs, rfl, ⟨[], .nil⟩, h⟩

theorem firstFailure_cons_of_ok {y : β} (h : f x = .ok y) (hrest : FirstFailure f xs e) :
    FirstFailure f (x :: xs) e := by
  obtain ⟨before, z, after, rfl, ⟨ys, hys⟩, hz⟩ := hrest
  exact ⟨x :: before, z, after, rfl, ⟨y :: ys, .cons h hys⟩, hz⟩

end

theorem mapM_eq_ok_iff {f : α → Except ε β} {xs : List α} {ys : List β} :
    xs.mapM f = .ok ys ↔ Results f xs ys := by
  induction xs generalizing ys with
  | nil =>
    rw [List.mapM_nil]
    constructor
    · intro h
      cases h
      exact .nil
    · intro h
      cases h
      rfl
  | cons x xs ih =>
    rw [List.mapM_cons]
    constructor
    · intro h
      obtain ⟨y, hy, h⟩ := bind_eq_ok_iff.mp h
      obtain ⟨zs, hzs, h⟩ := bind_eq_ok_iff.mp h
      cases h
      exact .cons hy (ih.mp hzs)
    · intro h
      cases h with
      | cons hy hzs => rw [hy, ih.mpr hzs]; rfl

theorem mapM_eq_error_iff {f : α → Except ε β} {xs : List α} {e : ε} :
    xs.mapM f = .error e ↔ FirstFailure f xs e := by
  induction xs with
  | nil =>
    rw [List.mapM_nil]
    constructor
    · intro h
      cases h
    · rintro ⟨before, x, after, h, -⟩
      simp at h
  | cons x xs ih =>
    rw [List.mapM_cons, bind_eq_error_iff]
    constructor
    · rintro (hx | ⟨y, hy, h⟩)
      · exact firstFailure_cons_of_error hx
      · rcases bind_eq_error_iff.mp h with h | ⟨zs, -, h⟩
        · exact firstFailure_cons_of_ok hy (ih.mp h)
        · cases h
    · rintro ⟨before, z, after, heq, ⟨ys, hys⟩, hz⟩
      cases hys with
      | nil =>
        obtain ⟨rfl, rfl⟩ := List.cons.inj heq
        exact .inl hz
      | cons hy hys =>
        obtain ⟨rfl, rfl⟩ := List.cons.inj heq
        refine .inr ⟨_, hy, ?_⟩
        rw [ih.mpr ⟨_, z, after, rfl, ⟨_, hys⟩, hz⟩]
        rfl

theorem mapM_congr {f g : α → Except ε β} {xs : List α} (h : ∀ x ∈ xs, f x = g x) :
    xs.mapM f = xs.mapM g := by
  induction xs with
  | nil => rfl
  | cons x xs ih =>
    have hrest := ih fun y hy => h y (List.mem_cons_of_mem _ hy)
    rw [List.mapM_cons, List.mapM_cons, h x List.mem_cons_self, hrest]

theorem mapM_flatMap (f : α → Except ε β) (g : γ → List α) (xs : List γ) :
    (xs.flatMap g).mapM f = (xs.mapM fun x => (g x).mapM f).map List.flatten := by
  induction xs with
  | nil => rfl
  | cons x xs ih =>
    rw [List.flatMap_cons, List.mapM_append, List.mapM_cons, ih]
    cases (g x).mapM f with
    | error e => rfl
    | ok ys => cases xs.mapM fun x => (g x).mapM f <;> rfl

theorem firstFailure_flatMap_iff {f : α → Except ε β} {g : γ → List α} {xs : List γ} {e : ε} :
    FirstFailure f (xs.flatMap g) e ↔ FirstFailure (fun x => (g x).mapM f) xs e := by
  rw [← mapM_eq_error_iff, mapM_flatMap, map_eq_error_iff, mapM_eq_error_iff]

/-- Counting or otherwise changing results does not change the first failure. -/
theorem firstFailure_map_iff {f : α → Except ε β} {g : β → γ} {xs : List α} {e : ε} :
    FirstFailure (fun x => (f x).map g) xs e ↔ FirstFailure f xs e := by
  have hmap : xs.mapM (fun x => (f x).map g) = (xs.mapM f).map (List.map g) := by
    induction xs with
    | nil => rfl
    | cons x xs ih =>
      rw [List.mapM_cons, List.mapM_cons, ih]
      cases f x with
      | error e => rfl
      | ok y => cases xs.mapM f <;> rfl
  rw [← mapM_eq_error_iff, hmap, map_eq_error_iff, mapM_eq_error_iff]

section

variable {f : α → Except ε β} {xs : List α} {e e' : ε}

/-- Every traversal has results or a first failure. -/
theorem results_or_firstFailure (f : α → Except ε β) (xs : List α) :
    (∃ ys, Results f xs ys) ∨ ∃ e, FirstFailure f xs e := by
  cases h : xs.mapM f with
  | ok ys => exact .inl ⟨ys, mapM_eq_ok_iff.mp h⟩
  | error e => exact .inr ⟨e, mapM_eq_error_iff.mp h⟩

theorem Results.not_firstFailure {ys : List β} (h : Results f xs ys) : ¬FirstFailure f xs e := by
  intro hfirst
  have hok := mapM_eq_ok_iff.mpr h
  rw [mapM_eq_error_iff.mpr hfirst] at hok
  cases hok

theorem FirstFailure.iff_eq (h : FirstFailure f xs e) : FirstFailure f xs e' ↔ e = e' := by
  rw [← mapM_eq_error_iff, mapM_eq_error_iff.mpr h, Except.error.injEq]

end

/-- Each result belongs to an element. -/
theorem Results.exists_of_mem {f : α → Except ε β} {xs : List α} {ys : List β} {y : β}
    (h : Results f xs ys) (hy : y ∈ ys) : ∃ x ∈ xs, f x = .ok y := by
  induction h with
  | nil => cases hy
  | @cons x z xs zs hz _ ih =>
    rcases List.mem_cons.mp hy with rfl | hy
    · exact ⟨x, List.mem_cons_self, hz⟩
    · obtain ⟨w, hw, hwy⟩ := ih hy
      exact ⟨w, List.mem_cons_of_mem _ hw, hwy⟩

/-- What results have in common with their elements. -/
theorem Results.map_eq {f : α → Except ε β} {g : α → γ} {g' : β → γ} {xs : List α} {ys : List β}
    (h : Results f xs ys) (hg : ∀ x y, f x = .ok y → g' y = g x) : ys.map g' = xs.map g := by
  induction h with
  | nil => rfl
  | cons hy _ ih => rw [List.map_cons, List.map_cons, ih, hg _ _ hy]

/-- Something related to each element of a list can be chosen if there is something for each. -/
theorem exists_forall₂_iff {R : α → β → Prop} {xs : List α} :
    (∃ ys, List.Forall₂ R xs ys) ↔ ∀ x ∈ xs, ∃ y, R x y := by
  constructor
  · rintro ⟨ys, h⟩
    induction h with
    | nil => exact List.forall_mem_nil _
    | cons hy _ ih => exact List.forall_mem_cons.mpr ⟨⟨_, hy⟩, ih⟩
  · intro h
    induction xs with
    | nil => exact ⟨[], .nil⟩
    | cons x xs ih =>
      obtain ⟨y, hy⟩ := h x List.mem_cons_self
      obtain ⟨ys, hys⟩ := ih fun z hz => h z (List.mem_cons_of_mem _ hz)
      exact ⟨y :: ys, .cons hy hys⟩

/-- A list whose elements all have something. -/
theorem map_eq_map_some_iff {g : α → Option β} {xs : List α} {ys : List β} :
    xs.map g = ys.map some ↔ List.Forall₂ (fun x y => g x = some y) xs ys := by
  rw [← List.forall₂_eq_eq_eq, List.forall₂_map_left_iff, List.forall₂_map_right_iff]

/-- What fails exactly with the first failure succeeds exactly if every step does. -/
theorem exists_ok_iff_of_firstFailure {f : α → Except ε β} {xs : List α} {x : Except ε γ}
    (h : ∀ e, x = .error e ↔ FirstFailure f xs e) :
    (∃ c, x = .ok c) ↔ ∀ a ∈ xs, ∃ b, f a = .ok b := by
  rw [← exists_forall₂_iff]
  constructor
  · rintro ⟨c, hc⟩
    obtain hys | ⟨e, hfirst⟩ := results_or_firstFailure f xs
    · exact hys
    · rw [(h e).mpr hfirst] at hc
      cases hc
  · rintro ⟨ys, hys⟩
    cases hx : x with
    | ok c => exact ⟨c, rfl⟩
    | error e => exact absurd ((h e).mp hx) (Results.not_firstFailure hys)

end TrialSummary
