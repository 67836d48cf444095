import TrialSummary.Extraction.Reading
import TrialSummary.Proofs.Trial.Record

/-!
# Successful fillings

Filling a record succeeds exactly if each reading does, and then it comes to storing all their
values in order. A line that is missing gives no values, and it is no failure only if no required
field stands on it; so a successful filling has a value for every required field.
-/

namespace TrialSummary

namespace Extraction

/-- A filling succeeds with a record exactly if all readings succeed and their values make it. -/
theorem toExcept_fill_eq_ok_iff {r s : Record} {readings : List Reading} :
    (fill r readings).toExcept = .ok s ↔
      ∃ vss : List (List (Field × Value)), readings = vss.map .ok ∧ s = r.setAll vss.flatten := by
  induction readings generalizing r with
  | nil =>
    constructor
    · intro h
      cases h
      exact ⟨[], rfl, rfl⟩
    · rintro ⟨vss, hvss, rfl⟩
      cases List.map_eq_nil_iff.mp hvss.symm
      rfl
  | cons reading readings ih =>
    cases reading with
    | error e =>
      constructor
      · intro h
        cases h
      · rintro ⟨vss, hvss, -⟩
        cases vss <;> cases hvss
    | ok values =>
      rw [fill_ok, ih]
      constructor
      · rintro ⟨vss, rfl, rfl⟩
        exact ⟨values :: vss, rfl, by rw [List.flatten_cons, Record.setAll_append]⟩
      · rintro ⟨vss, hvss, rfl⟩
        cases vss with
        | nil => cases hvss
        | cons vs vss =>
          obtain ⟨hhead, rfl⟩ := List.cons.inj hvss
          cases hhead
          exact ⟨vss, rfl, by rw [List.flatten_cons, Record.setAll_append]⟩

/-- Filling a record of measurements: each reading gives the measurements of its fields. -/
theorem toExcept_fill_values {α : Type} (r : Record) (m : Measurements) (places : List α)
    (reading : α → Reading) (fields : α → List Field)
    (h : ∀ p ∈ places, reading p = .ok ((fields p).map fun f => (f, m.value f))) :
    (fill r (places.map reading)).toExcept =
      .ok (r.setAll ((places.flatMap fields).map fun f => (f, m.value f))) := by
  refine toExcept_fill_eq_ok_iff.mpr
    ⟨places.map fun p => (fields p).map fun f => (f, m.value f), ?_, ?_⟩
  · rw [List.map_map]
    exact List.map_congr_left h
  · rw [List.map_flatMap, List.flatMap_def]

theorem isSome_get_of_toExcept_fill {r s : Record} {readings : List Reading} {f : Field}
    (h : (fill r readings).toExcept = .ok s)
    (hf : (∃ reading ∈ readings, ∀ values, reading = .ok values → f ∈ values.map Prod.fst) ∨
      (r.get f).isSome) : (s.get f).isSome := by
  obtain ⟨vss, rfl, rfl⟩ := toExcept_fill_eq_ok_iff.mp h
  rw [Record.isSome_get_setAll]
  refine hf.imp_left ?_
  rintro ⟨reading, hmem, hvalues⟩
  obtain ⟨vs, hvs, rfl⟩ := List.mem_map.mp hmem
  rw [List.map_flatten, List.mem_flatten]
  exact ⟨vs.map Prod.fst, List.mem_map_of_mem hvs, hvalues vs rfl⟩

theorem trial_of_toExcept_fill {r s : Record} {readings : List Reading}
    (h : (fill r readings).toExcept = .ok s) : s.trial = r.trial := by
  obtain ⟨vss, -, rfl⟩ := toExcept_fill_eq_ok_iff.mp h
  exact Record.trial_setAll r _

end Extraction

namespace TextFile

variable {file : TextFile} {required fields : List Field} {offset : Nat}
variable {parse : String → Option (List (Field × Value))} {expected : String}

theorem reading_of_parse {line : String} {values : List (Field × Value)}
    (hline : file.lines[offset]? = some line) (hparse : parse line = some values) :
    file.reading required fields offset parse expected = .ok values := by
  simp [reading, hline, hparse]

/-- The values of a successful reading cover the required ones of its fields, if a line that holds
what it should gives values for all of them. -/
theorem mem_values_of_reading {values : List (Field × Value)} {f : Field}
    (hparse : ∀ line values, parse line = some values → values.map Prod.fst = fields)
    (h : file.reading required fields offset parse expected = .ok values)
    (hfield : f ∈ fields) (hrequired : f ∈ required) : f ∈ values.map Prod.fst := by
  rw [reading] at h
  split at h
  · next line _ =>
    split at h
    · next vs hvs =>
      cases h
      rwa [hparse line _ hvs]
    · cases h
  · split at h
    · cases h
    · next hnone =>
      have := List.find?_eq_none.mp hnone f hfield
      simp [hrequired] at this

end TextFile

end TrialSummary
