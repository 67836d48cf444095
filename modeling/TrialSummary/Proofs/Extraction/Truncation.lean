import TrialSummary.Proofs.Extraction.PageRequests
import TrialSummary.Proofs.Extraction.Required
import TrialSummary.Proofs.Extraction.Results

/-!
# Files that end early

If a file is cut behind some line, a line in front of the cut is read as before and a line behind it
is missing. So each reading of the cut file gives what it gave before, or nothing, or the failure
that the line of a required field is missing. Every field has its values from one place only; what
is stored from the cut file is therefore a part of what was stored from the whole one.
-/

namespace TrialSummary

namespace TextFile

variable {file : TextFile} {required fields : List Field} {offset : Nat}
variable {parse : String → Option (List (Field × Value))} {expected : String}

def take (file : TextFile) (n : Nat) : TextFile := ⟨file.path, file.lines.take n⟩

/-- A line of the cut file is read as before, or it is missing. -/
theorem reading_take (file : TextFile) (n : Nat) (required fields : List Field) (offset : Nat)
    (parse : String → Option (List (Field × Value))) (expected : String) :
    (file.take n).reading required fields offset parse expected =
        file.reading required fields offset parse expected ∨
      Reading.OfMissing required
        ((file.take n).reading required fields offset parse expected) := by
  rcases Nat.lt_or_ge offset (file.take n).lines.length with h | h
  · have hwhole : offset < file.lines.length :=
      Nat.lt_of_lt_of_le h (List.length_take_le' n file.lines)
    have hline : (file.take n).lines[offset] = file.lines[offset] := List.getElem_take
    refine .inl ?_
    simp only [reading, List.getElem?_eq_getElem h, List.getElem?_eq_getElem hwhole, hline]
    rfl
  · exact .inr (ofMissing_reading h required)

/-- The values of a successful reading are those of some of its fields, and of each only one. -/
theorem keys_sublist_of_reading {values : List (Field × Value)}
    (hparse : ∀ line values, parse line = some values → values.map Prod.fst = fields)
    (h : file.reading required fields offset parse expected = .ok values) :
    (values.map Prod.fst).Sublist fields := by
  rw [reading] at h
  split at h
  · next line _ =>
    split at h
    · next vs hvs =>
      cases h
      obtain rfl := hparse line _ hvs
      exact List.Sublist.refl _
    · cases h
  · split at h
    · cases h
    · cases h
      exact List.nil_sublist fields

end TextFile

/-- A reading of a file that has been cut, beside the reading of the whole file. -/
def Reading.Shortened (required : List Field) (short whole : Reading) : Prop :=
  short = whole ∨ OfMissing required short

namespace Extraction

variable {α : Type} {required : List Field} {places : List α}
variable {reading short : α → Reading} {vss : List (List (Field × Value))}

theorem keys_sublist_of_readings {fields : α → List Field}
    (hkeys : ∀ p ∈ places, ∀ values, reading p = .ok values →
      (values.map Prod.fst).Sublist (fields p))
    (h : places.map reading = vss.map .ok) :
    (vss.flatten.map Prod.fst).Sublist (places.flatMap fields) := by
  induction places generalizing vss with
  | nil =>
    cases List.map_eq_nil_iff.mp h.symm
    exact List.Sublist.slnil
  | cons p places ih =>
    cases vss with
    | nil => cases h
    | cons values vss =>
      obtain ⟨hvalues, hrest⟩ := List.cons.inj h
      rw [List.flatten_cons, List.map_append, List.flatMap_cons]
      apply List.Sublist.append
      · exact hkeys p List.mem_cons_self values hvalues
      · exact ih (fun p hp => hkeys p (List.mem_cons_of_mem _ hp)) hrest

/-- Filling from a cut file after the whole file was fine: a part of the values is stored, in the
same order, or the line of a required field is missing. -/
theorem fill_of_shortened
    (hshort : ∀ p ∈ places, Reading.Shortened required (short p) (reading p))
    (h : places.map reading = vss.map .ok) :
    (∃ wss : List (List (Field × Value)), places.map short = wss.map .ok ∧
        wss.flatten.Sublist vss.flatten) ∨
      ∃ e, (∀ r, (fill r (places.map short)).toExcept = .error e) ∧ e.IsMissing required := by
  induction places generalizing vss with
  | nil => exact .inl ⟨[], rfl, List.nil_sublist _⟩
  | cons p places ih =>
    cases vss with
    | nil => cases h
    | cons values vss =>
      obtain ⟨hvalues, hrest⟩ := List.cons.inj h
      have hfirst : (∃ ws, short p = .ok ws ∧ ws.Sublist values) ∨
          ∃ e, short p = .error e ∧ e.IsMissing required := by
        rcases hshort p List.mem_cons_self with hsame | hnone | hmissing
        · exact .inl ⟨values, hsame.trans hvalues, List.Sublist.refl values⟩
        · exact .inl ⟨[], hnone, List.nil_sublist values⟩
        · exact .inr hmissing
      obtain ⟨ws, hws, hsub⟩ | ⟨e, he, hfield⟩ := hfirst
      · obtain ⟨wss, hwss, hsubs⟩ | ⟨e, he, hfield⟩ :=
          ih (fun p hp => hshort p (List.mem_cons_of_mem _ hp)) hrest
        · refine .inl ⟨ws :: wss, ?_, ?_⟩
          · rw [List.map_cons, List.map_cons, hws, hwss]
          · rw [List.flatten_cons, List.flatten_cons]
            exact hsub.append hsubs
        · refine .inr ⟨e, ?_, hfield⟩
          intro r
          rw [List.map_cons, hws, fill_ok]
          exact he _
      · refine .inr ⟨e, ?_, hfield⟩
        intro r
        rw [List.map_cons, he, fill_error]
        rfl

end Extraction

theorem Placement.shortened_reading (file : TextFile) (n : Nat) (required : List Field)
    (p : Placement) :
    Reading.Shortened required (p.reading (file.take n) required) (p.reading file required) :=
  file.reading_take n _ _ _ _ _

theorem Placement.keys_sublist_of_reading {file : TextFile} {required : List Field} {p : Placement}
    {values : List (Field × Value)} (h : p.reading file required = .ok values) :
    (values.map Prod.fst).Sublist p.form.fields :=
  TextFile.keys_sublist_of_reading (fun _ _ => LineForm.fields_of_parse?) h

namespace PageCounter

theorem shortened_reading (c : PageCounter) (file : TextFile) (n : Nat) (required : List Field)
    (f : Field) :
    Reading.Shortened required (c.reading (file.take n) required f)
      (c.reading file required f) := by
  rw [reading, reading]
  cases c.offsets.offset? f with
  | none => exact .inl rfl
  | some offset => exact file.reading_take n _ _ _ _ _

theorem keys_sublist_of_reading {c : PageCounter} {file : TextFile} {required : List Field}
    {f : Field} {values : List (Field × Value)} (h : c.reading file required f = .ok values) :
    (values.map Prod.fst).Sublist [f] := by
  rw [reading] at h
  split at h
  · apply TextFile.keys_sublist_of_reading _ h
    intro line vs hvs
    obtain ⟨n, -, rfl⟩ := Option.map_eq_some_iff.mp hvs
    rfl
  · cases h
    exact List.nil_sublist _

end PageCounter

/-- Each field has one place: a line of the results file or a line of the log. -/
theorem Schema.nodup_fields (l : PhaseLines) :
    ((ofPhaseLines l).placements.flatMap (fun p => p.form.fields) ++
      PageCounter.fields).Nodup := by
  have hsorted : ((ofPhaseLines l).placements.flatMap fun p => p.form.fields).Perm
      ((placementsOf l).flatMap fun p => p.form.fields) :=
    (List.mergeSort_perm _ _).flatMap_right _
  rw [(hsorted.append_right _).nodup_iff]
  show [Field.avg1, .count1, .time1, .avg2, .count2, .time2, .count3, .time3, .pgreq1, .pgreqR3,
    .pgreqS3].Nodup
  decide

end TrialSummary
