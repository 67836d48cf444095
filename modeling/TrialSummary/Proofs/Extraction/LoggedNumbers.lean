import TrialSummary.Proofs.Extraction.Counting
import TrialSummary.Proofs.Extraction.Outcome

/-!
# The numbers of a log

A log says a number for a field if it has the line of the field and a count can be found there. It
says one number at most. The field's rule has this number as its only value, adjusted for the field,
and is faulty if the line is there and no number can be found on it.
-/

namespace TrialSummary.PageCounter

variable {c : PageCounter} {file : TextFile} {required : List Field} {f : Field} {m n : Nat}

/-- The log has a line for a field, and this line says `m`. -/
def Logs (c : PageCounter) (file : TextFile) (f : Field) (m : Nat) : Prop :=
  ∃ offset line, c.offsets.offset? f = some offset ∧ file.lines[offset]? = some line ∧
    Text.FirstNumber c.label m line.toList

theorem Logs.unique (hm : c.Logs file f m) (hn : c.Logs file f n) : m = n := by
  obtain ⟨offset, line, hoffset, hline, hnumber⟩ := hm
  obtain ⟨offset', line', hoffset', hline', hnumber'⟩ := hn
  obtain rfl : offset = offset' := Option.some.inj (hoffset.symm.trans hoffset')
  obtain rfl : line = line' := Option.some.inj (hline.symm.trans hline')
  obtain ⟨front, digits, hrun, -, hm, -⟩ := hnumber
  obtain ⟨front', digits', hrun', -, hn, -⟩ := hnumber'
  have hfound := Text.firstDigitsBehind?_eq_some_iff.mpr ⟨front, hrun⟩
  have hfound' := Text.firstDigitsBehind?_eq_some_iff.mpr ⟨front', hrun'⟩
  rw [hfound'] at hfound
  rw [← hm, ← hn, Option.some.inj hfound]

theorem Logs.le_maxValue (h : c.Logs file f m) : (m : Int) ≤ Int64.maxValue.toInt := by
  obtain ⟨_, _, -, -, _, _, -, -, -, hmax⟩ := h
  exact hmax

theorem quantity_of_mem_fields (hf : f ∈ fields) : f.quantity = .count := by
  revert f
  decide

theorem mem_fields_of_offset? {offset : Nat} (h : c.offsets.offset? f = some offset) :
    f ∈ fields := by
  cases f <;> first | decide | cases h

theorem Logs.mem_fields (h : c.Logs file f m) : f ∈ fields := by
  obtain ⟨_, _, hoffset, -⟩ := h
  exact mem_fields_of_offset? hoffset

theorem offset_rule {offset : Nat} (h : c.offsets.offset? f = some offset) :
    (c.rule f).offset = offset := by
  rw [rule, h, Option.getD_some]

/-- The value of a line is the adjusted number that it says. -/
theorem values_rule_of_logs (h : c.Logs file f m) :
    (c.rule f).values file = [(f, .count (Int64.ofInt m + c.adjustment f))] := by
  obtain ⟨offset, line, hoffset, hline, hnumber⟩ := h
  rw [← offset_rule hoffset] at hline
  have hcount : c.count? f line = some (Int64.ofInt m + c.adjustment f) := by
    rw [count?, logged?_eq_some_iff.mpr ⟨m, hnumber, rfl⟩, Option.map_some]
  apply LineRule.values_eq_of_parse hline
  simp only [rule, hcount, Option.map_some]

/-- A value of a line is the adjusted count of its field. -/
theorem mem_values_rule {l : LogSettings} {kind : TrialKind} {g : Field} {w : Value}
    (hg : g ∈ fields) (h : (f, w) ∈ ((l.pageCounter kind).rule g).values file) :
    f = g ∧ ∃ m count, w = .count count ∧ (l.pageCounter kind).Logs file f m ∧
      count.toInt = m + ((l.pageCounter kind).adjustment f).toInt := by
  obtain ⟨offset, hoffset⟩ := (l.pageCounter kind).exists_offset hg
  obtain ⟨line, values, hline, hvalues, hmem⟩ := LineRule.exists_parse_of_mem_values h
  rw [offset_rule hoffset] at hline
  obtain ⟨count, hcount, rfl⟩ := Option.map_eq_some_iff.mp hvalues
  obtain ⟨logged, hlogged, rfl⟩ := Option.map_eq_some_iff.mp hcount
  obtain ⟨m, hnumber, rfl⟩ := logged?_eq_some_iff.mp hlogged
  cases List.mem_singleton.mp hmem
  have hlogs : (l.pageCounter kind).Logs file f m := ⟨offset, line, hoffset, hline, hnumber⟩
  exact ⟨rfl, m, _, rfl, hlogs, toInt_add_adjustment l kind f hlogs.le_maxValue⟩

end TrialSummary.PageCounter
