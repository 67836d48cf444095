import TrialSummary.Proofs.Extraction.LogOutcome
import TrialSummary.Proofs.Text.Replacement

/-!
# What is said about a malformed log line

A log line is malformed if it is there and says no number. It is reported with the form that it
should have: the escaped name of the counter, an equals sign between two blanks, and a word for the
number. This text is made from the pattern, where the group of digits is replaced wherever it
occurs. The name may be any text, the group itself among them. But in the pattern of a counter the
group occurs only at the end, so the name is shown as it is escaped there.
-/

namespace TrialSummary.PageCounter

variable {c : PageCounter} {file : TextFile} {required : List Field} {f : Field} {e : FormatError}

/-- Only the name of a counter has to be escaped in its label. -/
theorem escapePattern_label (c : PageCounter) :
    Text.escapePattern c.label = Text.escapePattern c.name.toList ++ " = ".toList := by
  have hequals : Text.escapePattern " = ".toList = " = ".toList := by decide
  rw [label, Text.escapePattern_append, hequals]

/-- In the pattern of a counter the group of digits occurs only at the end. -/
theorem onlyOccurrence_pattern (c : PageCounter) :
    Text.OnlyOccurrence Text.digitsGroup (Text.escapePattern c.name.toList ++ " = ".toList) []
      c.pattern := by
  rw [pattern, ← escapePattern_label]
  exact Text.onlyOccurrence_digitsGroup c.label

/-- The form of a line names the counter, escaped and with a word for the number. -/
theorem expected_eq_escaped (c : PageCounter) :
    c.expected = "'" ++ String.ofList (Text.escapePattern c.name.toList) ++ " = <int>'" := by
  have hreplaced := c.onlyOccurrence_pattern.replaceAll_eq (by decide) "<int>".toList
  rw [expected, hreplaced, ← String.toList_inj]
  simp [String.toList_append]

/-- The reading of a field fails exactly if the field is at fault. -/
theorem reading_eq_error_iff :
    c.reading file required f = .error e ↔ c.Fault file required f e := by
  cases hoffset : c.offsets.offset? f with
  | none =>
    have hreading : c.reading file required f = .ok [] := by simp only [reading, hoffset]
    rw [hreading]
    constructor
    · intro h
      cases h
    · intro h
      cases h with
      | malformed hsome | missing hsome =>
        rw [hoffset] at hsome
        cases hsome
  | some offset =>
    have hreading : c.reading file required f = (c.rule f).reading file required := by
      simp only [reading, rule, LineRule.reading, hoffset, Option.getD_some]
    rw [hreading, LineRule.reading_eq_error_iff, reports_rule_iff (mem_fields_of_offset? hoffset)]

/-- The reading of a field is malformed exactly if the line of the field is there and says no
number. What is reported as the expected form is then the counter's name between quotes, escaped
whatever it is, with an equals sign and a word for the number, because the group of digits occurs in
the pattern behind these and nowhere else. -/
theorem malformed_names_counter (c : PageCounter) :
    (∀ file required f path offset expected found,
      c.reading file required f = .error (.malformed path offset expected found) ↔
        path = file.path ∧ c.offsets.offset? f = some offset ∧
          file.lines[offset]? = some found ∧
          (¬∃ n, Text.FirstNumber c.label n found.toList) ∧
          expected = "'" ++ String.ofList (Text.escapePattern c.name.toList) ++ " = <int>'") ∧
      Text.OnlyOccurrence Text.digitsGroup (Text.escapePattern c.name.toList ++ " = ".toList) []
        c.pattern := by
  refine ⟨fun file required f path offset expected found => ?_, c.onlyOccurrence_pattern⟩
  rw [reading_eq_error_iff, ← expected_eq_escaped]
  constructor
  · intro h
    cases h with
    | malformed hoffset hline hnumber => exact ⟨rfl, hoffset, hline, hnumber, rfl⟩
  · rintro ⟨rfl, hoffset, hline, hnumber, rfl⟩
    exact .malformed hoffset hline hnumber

/-- The name has the group in it and ends in a parenthesis. The line would say a number if the name
had its meaning in a pattern. -/
theorem malformed_names_counter_of_group :
    let c : PageCounter := { name := "(\\d+)+\\(", offsets := ⟨0, 1, 2⟩ }
    let file : TextFile := ⟨"log", ["7( = 8"]⟩
    (¬∃ n, Text.FirstNumber c.label n "7( = 8".toList) ∧
      c.reading file [] .pgreq1 =
        .error (.malformed "log" 0 "'\\(\\\\d\\+\\)\\+\\\\\\( = <int>'" "7( = 8") ∧
      c.pattern = "\\(\\\\d\\+\\)\\+\\\\\\( = (\\d+)".toList := by
  intro c file
  have hnone : c.logged? "7( = 8" = none := by decide +kernel
  have hnumber : ¬∃ n, Text.FirstNumber c.label n "7( = 8".toList := by
    rintro ⟨n, hn⟩
    rw [logged?_eq_some_iff.mpr ⟨n, hn, rfl⟩] at hnone
    cases hnone
  obtain ⟨hmalformed, honly⟩ := malformed_names_counter c
  refine ⟨hnumber, (hmalformed file [] .pgreq1 _ _ _ _).mpr ?_, ?_⟩
  · exact ⟨rfl, rfl, rfl, hnumber, by decide +kernel⟩
  · rw [honly.text_eq]
    decide +kernel

end TrialSummary.PageCounter
