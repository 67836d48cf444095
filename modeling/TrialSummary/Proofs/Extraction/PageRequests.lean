import TrialSummary.Extraction.PageRequests
import TrialSummary.Proofs.Extraction.Filling
import TrialSummary.Proofs.Text.Search

/-!
# Lines that count pages

A log line carries a count that is off by the adjustment of its field. Reading the line undoes the
adjustment. The digits have to stand behind the first occurrence of the label that has decimal
digits behind it, and what follows them must not be a digit of any script.
-/

namespace TrialSummary.PageCounter

variable {c : PageCounter} {m : Measurements} {f : Field} {cs : List Char}

/-- What has to stand on the line of a field. -/
def Holds (c : PageCounter) (m : Measurements) (cs : List Char) (f : Field) : Prop :=
  ∃ front digits count, Text.FirstRun c.label front digits cs ∧
    (∀ d ∈ digits, d.isDigit = true) ∧ m.value f = .count count ∧
    (Text.digitsValue digits : Int) = count.toInt - (c.adjustment f).toInt ∧
    (Text.digitsValue digits : Int) ≤ Int64.maxValue.toInt

/-- The line of a field holds its measurement if the search finds the right digits. -/
theorem holds_of_firstDigitsBehind? (digits : List Char) {count : Int64}
    (h : Text.firstDigitsBehind? c.label cs = some digits)
    (hdigits : digits.all Char.isDigit = true) (hvalue : m.value f = .count count)
    (hraw : (Text.digitsValue digits : Int) = count.toInt - (c.adjustment f).toInt ∧
      (Text.digitsValue digits : Int) ≤ Int64.maxValue.toInt) : c.Holds m cs f := by
  obtain ⟨front, hrun⟩ := Text.firstDigitsBehind?_eq_some_iff.mp h
  exact ⟨front, digits, count, hrun, List.all_eq_true.mp hdigits, hvalue, hraw⟩

theorem count?_of_holds (h : c.Holds m cs f) :
    (c.count? f (String.ofList cs)).map Value.count = some (m.value f) := by
  obtain ⟨front, digits, count, hrun, hdigits, hvalue, hraw, hmax⟩ := h
  have hlogged : c.logged? (String.ofList cs) = some (Int64.ofInt (Text.digitsValue digits)) := by
    rw [logged?, String.toList_ofList, Text.firstDigitsBehind?_eq_some_iff.mpr ⟨front, hrun⟩,
      Option.bind_some]
    exact Text.readInt64?_of_digits hrun.run_ne_nil hdigits hmax
  have hsum : Int64.ofInt (Text.digitsValue digits) + c.adjustment f = count := by
    rw [hraw, Int64.ofInt_sub, Int64.ofInt_toInt, Int64.ofInt_toInt, Int64.sub_add_cancel]
  rw [count?, hlogged, Option.map_some, hsum, Option.map_some, hvalue]

theorem exists_offset (c : PageCounter) (hf : f ∈ fields) :
    ∃ offset, c.offsets.offset? f = some offset := by
  simp only [fields, List.mem_cons, List.not_mem_nil, or_false] at hf
  rcases hf with rfl | rfl | rfl <;> exact ⟨_, rfl⟩

theorem reading_of_count? {file : TextFile} {required : List Field} {offset : Nat} {line : String}
    {n : Int64} (hoffset : c.offsets.offset? f = some offset)
    (hline : file.lines[offset]? = some line) (h : c.count? f line = some n) :
    c.reading file required f = .ok [(f, .count n)] := by
  simp only [reading, hoffset]
  apply TextFile.reading_of_parse hline
  rw [h, Option.map_some]

theorem reading_of_holds {file : TextFile} {required : List Field} {offset : Nat}
    (hoffset : c.offsets.offset? f = some offset)
    (hline : file.lines[offset]? = some (String.ofList cs)) (h : c.Holds m cs f) :
    c.reading file required f = .ok ([f].map fun f => (f, m.value f)) := by
  obtain ⟨n, hn, hvalue⟩ := Option.map_eq_some_iff.mp (count?_of_holds h)
  rw [reading_of_count? hoffset hline hn, hvalue, List.map_singleton]

/-- A successful reading of a required field gives it a value. -/
theorem mem_values_of_reading {file : TextFile} {required : List Field}
    {values : List (Field × Value)} (hf : f ∈ fields) (hrequired : f ∈ required)
    (h : c.reading file required f = .ok values) : f ∈ values.map Prod.fst := by
  obtain ⟨offset, hoffset⟩ := c.exists_offset hf
  simp only [reading, hoffset] at h
  refine TextFile.mem_values_of_reading ?_ h (List.mem_singleton_self f) hrequired
  intro line vs hvs
  obtain ⟨n, -, rfl⟩ := Option.map_eq_some_iff.mp hvs
  rfl

end TrialSummary.PageCounter
