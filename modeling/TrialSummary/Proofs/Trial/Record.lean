import TrialSummary.Trial.Record

/-!
# Storing values in records

Values are only ever added to a record: storing some never empties a cell. If all of them are taken
from one complete set of measurements, it does not matter in which order they are stored, and the
record agrees with the measurements wherever one was.
-/

namespace TrialSummary

/-- A number for each field, of the type that belongs to it. -/
abbrev Measurements := (f : Field) → f.quantity.Carrier

namespace Measurements

variable (m : Measurements)

def value (f : Field) : Value := Value.ofCarrier f.quantity (m f)

def record (trial : TrialId) : Record := .ofCells trial fun f => some (m f)

@[simp] theorem cell_record (trial : TrialId) (f : Field) :
    (m.record trial).cell f = some (m f) := Record.cell_ofCells _ _ _

@[simp] theorem get_record (trial : TrialId) (f : Field) :
    (m.record trial).get f = some (m.value f) := by
  rw [Record.get_eq_map_cell, cell_record, Option.map_some, value]

/-- Which of the two types of numbers a value has follows from the field. -/
theorem value_of_measure {f : Field} (h : f.quantity = .measure) :
    ∃ x, m.value f = .measure x := by
  rw [value]
  generalize m f = c
  revert c
  rw [h]
  exact fun x => ⟨x, rfl⟩

theorem value_of_count {f : Field} (h : f.quantity = .count) : ∃ n, m.value f = .count n := by
  rw [value]
  generalize m f = c
  revert c
  rw [h]
  exact fun n => ⟨n, rfl⟩

end Measurements

namespace Record

@[simp] theorem trial_setAll (r : Record) (vs : List (Field × Value)) :
    (r.setAll vs).trial = r.trial := by
  induction vs generalizing r with
  | nil => rfl
  | cons fv vs ih => rw [setAll_cons, ih, trial_set]

theorem setAll_append (r : Record) (vs ws : List (Field × Value)) :
    r.setAll (vs ++ ws) = (r.setAll vs).setAll ws := List.foldl_append

theorem isSome_get_setAll (r : Record) (vs : List (Field × Value)) (f : Field) :
    ((r.setAll vs).get f).isSome ↔ f ∈ vs.map Prod.fst ∨ (r.get f).isSome := by
  induction vs generalizing r with
  | nil => simp
  | cons fv vs ih =>
    rw [setAll_cons, ih, List.map_cons, List.mem_cons]
    by_cases hf : f = fv.1
    · subst hf
      simp
    · simp [get_set_of_ne r hf, hf]

theorem get_setAll_of_notMem (r : Record) {vs : List (Field × Value)} {f : Field}
    (h : f ∉ vs.map Prod.fst) : (r.setAll vs).get f = r.get f := by
  induction vs generalizing r with
  | nil => rfl
  | cons fv vs ih =>
    rw [List.map_cons, List.mem_cons, not_or] at h
    rw [setAll_cons, ih _ h.2, get_set_of_ne r h.1]

/-- Values of different fields can be read back in any order. -/
theorem get_setAll_of_mem (r : Record) {vs : List (Field × Value)} {f : Field} {v : Value}
    (hdistinct : (vs.map Prod.fst).Nodup) (h : (f, v) ∈ vs) :
    (r.setAll vs).get f = some (Value.ofCarrier f.quantity (v.convert f.quantity)) := by
  induction vs generalizing r with
  | nil => cases h
  | cons fv vs ih =>
    obtain ⟨hfirst, hdistinct⟩ := List.nodup_cons.mp hdistinct
    rw [setAll_cons]
    rcases List.mem_cons.mp h with rfl | h
    · rw [get_setAll_of_notMem _ hfirst, get_set_self]
    · exact ih _ hdistinct h

/-- A value that is found after storing some was there before or is one of them. -/
theorem get_setAll_eq_some {r : Record} {vs : List (Field × Value)} {f : Field} {v : Value}
    (h : (r.setAll vs).get f = some v) :
    r.get f = some v ∨
      ∃ w, (f, w) ∈ vs ∧ v = Value.ofCarrier f.quantity (w.convert f.quantity) := by
  induction vs generalizing r with
  | nil => exact .inl h
  | cons fv vs ih =>
    obtain hset | ⟨w, hw, hv⟩ := ih h
    · by_cases hf : f = fv.1
      · subst hf
        rw [get_set_self] at hset
        exact .inr ⟨fv.2, List.mem_cons_self, (Option.some.inj hset).symm⟩
      · rw [get_set_of_ne r hf] at hset
        exact .inl hset
    · exact .inr ⟨w, List.mem_cons_of_mem _ hw, hv⟩

/-- A new record has no other values than those that were stored. -/
theorem exists_of_get_setAll_empty {trial : TrialId} {vs : List (Field × Value)} {f : Field}
    {v : Value} (h : ((empty trial).setAll vs).get f = some v) :
    ∃ w, (f, w) ∈ vs ∧ v = Value.ofCarrier f.quantity (w.convert f.quantity) := by
  refine (get_setAll_eq_some h).resolve_left fun hbefore => ?_
  rw [get_empty] at hbefore
  cases hbefore

/-- Storing only some of the values of different fields: a field is as it was, or as it is when all
of them are stored. -/
theorem get_setAll_of_sublist (r : Record) {vs ws : List (Field × Value)} (h : vs.Sublist ws)
    (hdistinct : (ws.map Prod.fst).Nodup) (f : Field) :
    (r.setAll vs).get f = r.get f ∨ (r.setAll vs).get f = (r.setAll ws).get f := by
  by_cases hf : f ∈ vs.map Prod.fst
  · obtain ⟨⟨_, v⟩, hv, rfl⟩ := List.mem_map.mp hf
    have hfewer : (vs.map Prod.fst).Nodup := (h.map Prod.fst).nodup hdistinct
    rw [get_setAll_of_mem r hfewer hv, get_setAll_of_mem r hdistinct (h.mem hv)]
    exact .inr rfl
  · exact .inl (get_setAll_of_notMem r hf)

theorem set_comm (r : Record) {f g : Field} (h : f ≠ g) (v w : Value) :
    (r.set f v).set g w = (r.set g w).set f v := by
  refine ext_get (by simp only [trial_set]) fun k => ?_
  by_cases hf : k = f
  · subst hf
    rw [get_set_of_ne _ h, get_set_self, get_set_self]
  · by_cases hg : k = g
    · subst hg
      rw [get_set_self, get_set_of_ne _ hf, get_set_self]
    · rw [get_set_of_ne _ hg, get_set_of_ne _ hf, get_set_of_ne _ hf, get_set_of_ne _ hg]

theorem set_setAll_comm (r : Record) {f : Field} {vs : List (Field × Value)}
    (h : f ∉ vs.map Prod.fst) (v : Value) : (r.set f v).setAll vs = (r.setAll vs).set f v := by
  induction vs generalizing r with
  | nil => rfl
  | cons gw vs ih =>
    rw [List.map_cons, List.mem_cons, not_or] at h
    rw [setAll_cons, setAll_cons, set_comm r h.1, ih _ h.2]

theorem setAll_comm (r : Record) {vs ws : List (Field × Value)}
    (h : ∀ f ∈ vs.map Prod.fst, f ∉ ws.map Prod.fst) :
    (r.setAll vs).setAll ws = (r.setAll ws).setAll vs := by
  induction vs generalizing r with
  | nil => rfl
  | cons fv vs ih =>
    rw [List.map_cons, List.forall_mem_cons] at h
    rw [setAll_cons, setAll_cons, ih _ h.2, set_setAll_comm r h.1]

theorem get_setAll_of_last (r : Record) (before : List (Field × Value)) {f : Field} (v : Value)
    {after : List (Field × Value)} (h : f ∉ after.map Prod.fst) :
    (r.setAll (before ++ (f, v) :: after)).get f =
      some (Value.ofCarrier f.quantity (v.convert f.quantity)) := by
  rw [setAll_append, setAll_cons, get_setAll_of_notMem _ h, get_set_self]

theorem cell_set_value (r : Record) (m : Measurements) (f g : Field) :
    (r.set f (m.value f)).cell g = if g = f then some (m g) else r.cell g := by
  rw [cell_set]
  by_cases h : g = f
  · subst h
    rw [if_pos rfl, if_pos rfl, Measurements.value, Value.convert_ofCarrier]
  · rw [if_neg h, if_neg h]

/-- Storing measurements of some fields, in any order and as often as you like. -/
theorem cell_setAll_values (r : Record) (m : Measurements) (fs : List Field) (g : Field) :
    (r.setAll (fs.map fun f => (f, m.value f))).cell g =
      if g ∈ fs then some (m g) else r.cell g := by
  induction fs generalizing r with
  | nil => simp
  | cons f fs ih =>
    rw [List.map_cons, setAll_cons, ih, cell_set_value]
    by_cases hg : g ∈ fs <;> simp [hg]

theorem setAll_values_eq_record (m : Measurements) (trial : TrialId) {fs : List Field}
    (h : ∀ f, f ∈ fs) : (empty trial).setAll (fs.map fun f => (f, m.value f)) = m.record trial := by
  refine ext_cell (trial_setAll _ _) fun f => ?_
  rw [cell_setAll_values, if_pos (h f), Measurements.cell_record]

end Record

end TrialSummary
