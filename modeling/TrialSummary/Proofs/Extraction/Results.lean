import TrialSummary.Extraction.PageRequests
import TrialSummary.Proofs.Extraction.Filling
import TrialSummary.Proofs.Extraction.LineForm

/-!
# Placed lines

What a reading of a placed line gives, and which lines there are: the schema sorts the placements of
the three phases, but it has the same ones, and together with the lines of the log they give every
field a place.
-/

namespace TrialSummary

namespace Placement

variable {m : Measurements} {file : TextFile} {required : List Field} {p : Placement}

theorem reading_of_holds {cs : List Char} (htyped : p.form.WellTyped)
    (hfinite : ∀ f, (m.value f).IsFinite) (hline : file.lines[p.offset]? = some (String.ofList cs))
    (hfeed : '\n' ∉ cs) (h : p.form.Holds m cs) :
    p.reading file required = .ok (p.form.fields.map fun f => (f, m.value f)) :=
  TextFile.reading_of_parse hline (LineForm.parse?_of_holds htyped hfinite hfeed h)

/-- A successful reading gives values to the required fields of its line. -/
theorem mem_values_of_reading {values : List (Field × Value)} {f : Field}
    (h : p.reading file required = .ok values) (hfield : f ∈ p.form.fields)
    (hrequired : f ∈ required) : f ∈ values.map Prod.fst :=
  TextFile.mem_values_of_reading (fun _ _ => LineForm.fields_of_parse?) h hfield hrequired

end Placement

namespace Schema

variable {l : PhaseLines}

@[simp] theorem mem_placements_ofPhaseLines {p : Placement} :
    p ∈ (ofPhaseLines l).placements ↔ p ∈ placementsOf l :=
  (List.mergeSort_perm _ _).mem_iff

/-- Placements whose lines do not decrease are in order as they are given. -/
theorem ofPlacements_of_pairwise {ps : List Placement}
    (h : ps.Pairwise fun a b => a.atOrBefore b = true) : ofPlacements ps = ⟨ps, h⟩ := by
  have hsorted : ps.mergeSort Placement.atOrBefore = ps := List.mergeSort_of_pairwise h
  simp only [ofPlacements, hsorted]

theorem ofPhaseLines_of_pairwise
    (h : (placementsOf l).Pairwise fun a b => a.atOrBefore b = true) :
    ofPhaseLines l = ⟨placementsOf l, h⟩ :=
  ofPlacements_of_pairwise h

theorem wellTyped_of_mem {p : Placement} (h : p ∈ placementsOf l) : p.form.WellTyped := by
  simp only [placementsOf, List.mem_cons, List.not_mem_nil, or_false] at h
  rcases h with rfl | rfl | rfl | rfl | rfl | rfl
  exacts [⟨rfl, rfl⟩, rfl, ⟨rfl, rfl⟩, rfl, rfl, rfl]

/-- Each field has its place on a line of the results file, or it is counted by the log. -/
theorem exists_placement_or_mem_fields (l : PhaseLines) (f : Field) :
    (∃ p ∈ placementsOf l, f ∈ p.form.fields) ∨ f ∈ PageCounter.fields := by
  cases f <;> simp [placementsOf, LineForm.fields, PageCounter.fields]

end Schema

end TrialSummary
