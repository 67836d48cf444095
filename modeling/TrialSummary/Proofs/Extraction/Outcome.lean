import TrialSummary.Extraction.PageRequests
import TrialSummary.Extraction.Results
import TrialSummary.Proofs.Extraction.Filling

/-!
# What a filling leaves

A file is read by rules, one for each line that it should have. A rule is faulty if its line is
there and does not hold what it should, or if its line is not there and one of its fields is
required. Whether a rule is faulty depends on no other rule.

A filling goes through the rules in order. Either none of them is faulty, and the record ends up
with the values of all lines that are there, or the filling stops at the first faulty rule, reports
it, and leaves the values of the rules in front of it.
-/

namespace TrialSummary

/-- What a file should have on a line: the fields that stand there, how they are read, and what
messages say about the form of the line. -/
structure LineRule where
  offset : Nat
  fields : List Field
  parse : String → Option (List (Field × Value))
  expected : String

namespace LineRule

variable (rule : LineRule) (file : TextFile) (required : List Field)

/-- The line is there and does not hold what it should. -/
def Malformed : Prop := ∃ line, file.lines[rule.offset]? = some line ∧ rule.parse line = none

/-- The line is not there, and one of its fields is required. -/
def Missing : Prop := file.lines.length ≤ rule.offset ∧ ∃ f ∈ rule.fields, f ∈ required

def Faulty : Prop := rule.Malformed file ∨ rule.Missing file required

/-- The values on the line, none if there is no such line. -/
def values : List (Field × Value) := ((file.lines[rule.offset]?).bind rule.parse).getD []

/-- The failure that a faulty rule is reported with. -/
inductive Reports : FormatError → Prop where
  | malformed {line : String} (hline : file.lines[rule.offset]? = some line)
      (hparse : rule.parse line = none) :
      Reports (.malformed file.path rule.offset rule.expected line)
  | missing {f : Field} (hend : file.lines.length ≤ rule.offset)
      (hfirst : rule.fields.find? (fun f => required.contains f) = some f) :
      Reports (.missingLine file.path rule.offset f file.lines.length)

def reading : Reading := file.reading required rule.fields rule.offset rule.parse rule.expected

variable {rule file required}

theorem exists_reports_iff : (∃ e, rule.Reports file required e) ↔ rule.Faulty file required := by
  constructor
  · rintro ⟨e, h⟩
    cases h with
    | malformed hline hparse => exact .inl ⟨_, hline, hparse⟩
    | missing hend hfirst =>
      refine .inr ⟨hend, _, List.mem_of_find?_eq_some hfirst, ?_⟩
      exact List.contains_iff_mem.mp (List.find?_some hfirst)
  · rintro (⟨line, hline, hparse⟩ | ⟨hend, f, hf, hrequired⟩)
    · exact ⟨_, .malformed hline hparse⟩
    · have hfound : (rule.fields.find? fun f => required.contains f).isSome := by
        rw [List.find?_isSome]
        exact ⟨f, hf, List.contains_iff_mem.mpr hrequired⟩
      obtain ⟨g, hg⟩ := Option.isSome_iff_exists.mp hfound
      exact ⟨_, .missing hend hg⟩

theorem reading_eq_error_iff {e : FormatError} :
    rule.reading file required = .error e ↔ rule.Reports file required e := by
  rw [reading, TextFile.reading]
  constructor
  · intro h
    split at h
    · next line hline =>
      split at h
      · cases h
      · next hparse =>
        cases h
        exact .malformed hline hparse
    · next hnone =>
      split at h
      · next f hf =>
        cases h
        exact .missing (List.getElem?_eq_none_iff.mp hnone) hf
      · cases h
  · intro h
    cases h with
    | malformed hline hparse => simp only [hline, hparse]
    | missing hend hfirst => simp only [List.getElem?_eq_none hend, hfirst]

theorem values_of_reading {vs : List (Field × Value)} (h : rule.reading file required = .ok vs) :
    vs = rule.values file := by
  rw [reading, TextFile.reading] at h
  rw [values]
  split at h
  · next line hline =>
    split at h
    · next vs' hparse =>
      cases h
      rw [hline, Option.bind_some, hparse, Option.getD_some]
    · cases h
  · next hnone =>
    split at h
    · cases h
    · cases h
      rw [hnone, Option.bind_none, Option.getD_none]

theorem values_eq_of_parse {line : String} {vs : List (Field × Value)}
    (hline : file.lines[rule.offset]? = some line) (hparse : rule.parse line = some vs) :
    rule.values file = vs := by
  rw [values, hline, Option.bind_some, hparse, Option.getD_some]

theorem exists_parse_of_mem_values {fv : Field × Value} (h : fv ∈ rule.values file) :
    ∃ line vs, file.lines[rule.offset]? = some line ∧ rule.parse line = some vs ∧ fv ∈ vs := by
  rw [values] at h
  cases hparse : (file.lines[rule.offset]?).bind rule.parse with
  | none =>
    rw [hparse] at h
    cases h
  | some vs =>
    rw [hparse] at h
    obtain ⟨line, hline, hvs⟩ := Option.bind_eq_some_iff.mp hparse
    exact ⟨line, vs, hline, hvs, h⟩

theorem reading_eq_ok_iff {vs : List (Field × Value)} :
    rule.reading file required = .ok vs ↔ ¬rule.Faulty file required ∧ vs = rule.values file := by
  rw [← exists_reports_iff]
  constructor
  · intro h
    refine ⟨?_, values_of_reading h⟩
    rintro ⟨e, he⟩
    rw [reading_eq_error_iff.mpr he] at h
    cases h
  · rintro ⟨hsound, rfl⟩
    cases hreading : rule.reading file required with
    | error e => exact absurd ⟨e, reading_eq_error_iff.mp hreading⟩ hsound
    | ok vs => rw [values_of_reading hreading]

/-- A rule that is faulty stays so if more fields are required. -/
theorem Faulty.of_subset {required' : List Field} (h : rule.Faulty file required)
    (hsubset : required ⊆ required') : rule.Faulty file required' := by
  obtain hmalformed | ⟨hend, f, hf, hrequired⟩ := h
  · exact .inl hmalformed
  · exact .inr ⟨hend, f, hf, hsubset hrequired⟩

end LineRule

namespace Extraction

variable {α : Type} {rule : α → LineRule} {places : List α} {file : TextFile}
variable {required : List Field} {r s : Record}

/-- A filling by rules: it stores the values of all of them, or those in front of the first faulty
one. -/
theorem fill_rules (rule : α → LineRule) (places : List α) (file : TextFile)
    (required : List Field) (r : Record) :
    ((∀ p ∈ places, ¬(rule p).Faulty file required) ∧
      fill r (places.map fun p => (rule p).reading file required) =
        ⟨r.setAll (places.flatMap fun p => (rule p).values file), none⟩) ∨
    ∃ before p after e, places = before ++ p :: after ∧
      (∀ b ∈ before, ¬(rule b).Faulty file required) ∧ (rule p).Reports file required e ∧
      fill r (places.map fun p => (rule p).reading file required) =
        ⟨r.setAll (before.flatMap fun b => (rule b).values file), some e⟩ := by
  induction places generalizing r with
  | nil => exact .inl ⟨List.forall_mem_nil _, rfl⟩
  | cons p places ih =>
    rw [List.map_cons]
    cases hreading : (rule p).reading file required with
    | error e =>
      refine .inr ⟨[], p, places, e, rfl, List.forall_mem_nil _, ?_, rfl⟩
      exact LineRule.reading_eq_error_iff.mp hreading
    | ok vs =>
      obtain ⟨hsound, rfl⟩ := LineRule.reading_eq_ok_iff.mp hreading
      rw [fill_ok]
      obtain ⟨hall, hfill⟩ | ⟨before, q, after, e, rfl, hbefore, hreports, hfill⟩ :=
        ih (r.setAll ((rule p).values file))
      · refine .inl ⟨List.forall_mem_cons.mpr ⟨hsound, hall⟩, ?_⟩
        rw [hfill, List.flatMap_cons, Record.setAll_append]
      · refine .inr ⟨p :: before, q, after, e, rfl, ?_, hreports, ?_⟩
        · exact List.forall_mem_cons.mpr ⟨hsound, hbefore⟩
        · rw [hfill, List.flatMap_cons, Record.setAll_append]

/-- Whether a filling succeeds or not, its record has the values of some of the lines. -/
theorem exists_record_fill_rules (rule : α → LineRule) (places : List α) (file : TextFile)
    (required : List Field) (r : Record) :
    ∃ ps, ps ⊆ places ∧
      (fill r (places.map fun p => (rule p).reading file required)).record =
        r.setAll (ps.flatMap fun p => (rule p).values file) := by
  obtain ⟨-, hfill⟩ | ⟨before, p, after, e, rfl, -, -, hfill⟩ :=
    fill_rules rule places file required r
  · exact ⟨places, List.Subset.refl _, by rw [hfill]⟩
  · exact ⟨before, List.subset_append_left _ _, by rw [hfill]⟩

theorem fill_rules_eq_none_iff :
    fill r (places.map fun p => (rule p).reading file required) = ⟨s, none⟩ ↔
      (∀ p ∈ places, ¬(rule p).Faulty file required) ∧
        s = r.setAll (places.flatMap fun p => (rule p).values file) := by
  obtain ⟨hall, hfill⟩ | ⟨before, p, after, e, rfl, -, hreports, hfill⟩ :=
    fill_rules rule places file required r
  · rw [hfill, Extraction.mk.injEq, and_iff_left rfl, and_iff_right hall]
    exact eq_comm
  · rw [hfill, Extraction.mk.injEq]
    constructor
    · rintro ⟨-, hnone⟩
      cases hnone
    · rintro ⟨hall, -⟩
      exact absurd (LineRule.exists_reports_iff.mp ⟨e, hreports⟩) (hall p (by simp))

/-- Requiring fewer fields leaves a success as it is. -/
theorem fill_rules_of_subset (rule : α → LineRule) {required' : List Field}
    (hsubset : required ⊆ required')
    (h : fill r (places.map fun p => (rule p).reading file required') = ⟨s, none⟩) :
    fill r (places.map fun p => (rule p).reading file required) = ⟨s, none⟩ := by
  obtain ⟨hall, hs⟩ := fill_rules_eq_none_iff.mp h
  exact fill_rules_eq_none_iff.mpr ⟨fun p hp hfaulty => hall p hp (hfaulty.of_subset hsubset), hs⟩

/-- A failure of a filling is the report of one of its rules. -/
theorem exists_reports_of_toExcept_fill {e : FormatError}
    (h : (fill r (places.map fun p => (rule p).reading file required)).toExcept = .error e) :
    ∃ p ∈ places, (rule p).Reports file required e := by
  obtain ⟨-, hfill⟩ | ⟨before, p, after, e', rfl, -, hreports, hfill⟩ :=
    fill_rules rule places file required r
  · rw [hfill] at h
    cases h
  · rw [hfill] at h
    cases h
    exact ⟨p, by simp, hreports⟩

end Extraction

/-- The rule of a placed line. -/
def Placement.rule (p : Placement) : LineRule where
  offset := p.offset
  fields := p.form.fields
  parse := p.form.parse?
  expected := p.form.expected

theorem Schema.extract_eq_fill_rules (s : Schema) (file : TextFile) (required : List Field)
    (r : Record) :
    s.extract file required r =
      Extraction.fill r (s.placements.map fun p => p.rule.reading file required) := rfl

/-- The rule of a field that a log counts. Other fields have no line in a log. -/
def PageCounter.rule (c : PageCounter) (f : Field) : LineRule where
  offset := (c.offsets.offset? f).getD 0
  fields := [f]
  parse line := (c.count? f line).map fun n => [(f, .count n)]
  expected := c.expected

theorem PageCounter.extract_eq_fill_rules (c : PageCounter) (file : TextFile)
    (required : List Field) (r : Record) :
    c.extract file required r =
      Extraction.fill r (fields.map fun f => (c.rule f).reading file required) := rfl

end TrialSummary
