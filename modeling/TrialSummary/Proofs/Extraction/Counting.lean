import TrialSummary.Proofs.Extraction.PageRequests
import TrialSummary.Proofs.Text.Pattern

/-!
# What a counter counts

A counter is given by its name, which may be any text, and goes into a pattern. As the name is
escaped there, the pattern does what a plain search does: it looks for the first place in a line
where the name, an equals sign between two blanks, and a decimal digit stand one behind the other,
and takes the whole run of digits there. The run alone decides. If it has a digit of another script,
or if its value is too large, the line has no count, whatever stands behind it.
-/

namespace TrialSummary

namespace Text

/-- The run of digits behind the first occurrence of a word that has one is the numeral of `n`: all
of its digits are ASCII, and the value is not too large. -/
def FirstNumber (word : List Char) (n : Nat) (cs : List Char) : Prop :=
  ∃ front digits, FirstRun word front digits cs ∧ (∀ d ∈ digits, d.isDigit = true) ∧
    digitsValue digits = n ∧ (n : Int) ≤ Int64.maxValue.toInt

theorem splitSign_of_isDecimalDigit {cs : List Char} (h : ∀ c ∈ cs, isDecimalDigit c = true) :
    splitSign cs = (false, cs) := by
  unfold splitSign
  split
  · exact absurd (h '+' List.mem_cons_self) (by decide)
  · exact absurd (h '-' List.mem_cons_self) (by decide)
  · rfl

end Text

namespace PageCounter

variable {c : PageCounter} {f : Field} {file : TextFile} {required : List Field} {offset : Nat}
variable {line : String} {n : Int64}

/-- The name of a counter is literal in its pattern. -/
theorem readPattern?_pattern (c : PageCounter) :
    Text.readPattern? c.pattern = some (Text.countParts c.label) := by
  have hrest : Text.readPattern? (" = ".toList ++ Text.digitsGroup) =
      some (Text.countParts " = ".toList) := rfl
  rw [pattern, List.append_assoc, Text.readPattern?_escapePattern_append, hrest, Option.map_some,
    label, Text.countParts, Text.countParts, List.map_append, List.append_assoc]

/-- The logged count is the number in the first group of the pattern. -/
theorem logged?_eq_captures? (c : PageCounter) (line : String) :
    c.logged? line =
      ((Text.captures? (Text.countParts c.label) line.toList).bind (·[0]?)).bind
        Text.readInt64? := by
  rw [logged?, Text.captures?_countParts]
  cases Text.firstDigitsBehind? c.label line.toList with
  | none => rfl
  | some run => rfl

/-- The logged count is the number that the search finds. -/
theorem logged?_eq_some_iff :
    c.logged? line = some n ↔
      ∃ m, Text.FirstNumber c.label m line.toList ∧ n = Int64.ofInt m := by
  constructor
  · intro h
    obtain ⟨digits, hfound, hread⟩ := Option.bind_eq_some_iff.mp h
    obtain ⟨front, hrun⟩ := Text.firstDigitsBehind?_eq_some_iff.mp hfound
    have hsign := Text.splitSign_of_isDecimalDigit hrun.isDecimalDigit_run
    obtain ⟨hdigits, hmax, rfl⟩ := Text.digits_of_readInt64? hsign hread
    exact ⟨_, ⟨front, digits, hrun, hdigits, rfl, hmax⟩, rfl⟩
  · rintro ⟨m, ⟨front, digits, hrun, hdigits, rfl, hmax⟩, rfl⟩
    rw [logged?, Text.firstDigitsBehind?_eq_some_iff.mpr ⟨front, hrun⟩, Option.bind_some]
    exact Text.readInt64?_of_digits hrun.run_ne_nil hdigits hmax

theorem adjustment_pageCounter (l : LogSettings) (kind : TrialKind) (f : Field) :
    (l.pageCounter kind).adjustment f = 0 ∨ (l.pageCounter kind).adjustment f = -1 := by
  cases kind with
  | threshold => cases f <;> exact .inl rfl
  | probabilistic =>
    have hlast : (l.pageCounter .probabilistic).lastAdjustment = 0 ∨
        (l.pageCounter .probabilistic).lastAdjustment = -1 := by
      simp only [LogSettings.pageCounter]
      split
      · exact .inr rfl
      · exact .inl rfl
    cases f with
    | pgreq1 => exact .inr rfl
    | pgreqR3 => exact hlast
    | pgreqS3 => exact hlast
    | _ => exact .inl rfl

theorem toInt_add_adjustment (l : LogSettings) (kind : TrialKind) (f : Field) {m : Nat}
    (hmax : (m : Int) ≤ Int64.maxValue.toInt) :
    (Int64.ofInt m + (l.pageCounter kind).adjustment f).toInt =
      m + ((l.pageCounter kind).adjustment f).toInt := by
  have hrange : Int64.maxValue.toInt = 2 ^ 63 - 1 := by decide
  have hsum (a : Int64) (ha : -1 ≤ a.toInt ∧ a.toInt ≤ 0) :
      (Int64.ofInt m + a).toInt = m + a.toInt := by
    have hadd : Int64.ofInt m + a = Int64.ofInt (m + a.toInt) := by
      rw [Int64.ofInt_add, Int64.ofInt_toInt]
    rw [hadd, Int64.toInt_ofInt_of_le] <;> omega
  obtain h | h := adjustment_pageCounter l kind f
  · rw [h]
    exact hsum 0 (by decide)
  · rw [h]
    exact hsum (-1) (by decide)

theorem reading_of_count?_eq_none (hoffset : c.offsets.offset? f = some offset)
    (hline : file.lines[offset]? = some line) (h : c.count? f line = none) :
    c.reading file required f = .error (.malformed file.path offset c.expected line) := by
  simp only [reading, hoffset, TextFile.reading, hline, h, Option.map_none]

theorem reading_of_length_le (hoffset : c.offsets.offset? f = some offset)
    (hend : file.lines.length ≤ offset) : c.reading file [] f = .ok [] := by
  simp only [reading, hoffset, TextFile.reading, List.getElem?_eq_none hend]
  rfl

/-- A line that is there has the number that the search finds, or it is malformed. -/
theorem reading_of_line (l : LogSettings) (kind : TrialKind)
    (hoffset : (l.pageCounter kind).offsets.offset? f = some offset)
    (hline : file.lines[offset]? = some line) :
    let c := l.pageCounter kind
    (∃ n count, Text.FirstNumber c.label n line.toList ∧
        count.toInt = n + (c.adjustment f).toInt ∧
        ∀ required, c.reading file required f = .ok [(f, .count count)]) ∨
      (¬∃ n, Text.FirstNumber c.label n line.toList) ∧
        ∀ required, c.reading file required f =
          .error (.malformed file.path offset c.expected line) := by
  intro c
  cases hlogged : c.logged? line with
  | some n =>
    obtain ⟨m, hnumber, rfl⟩ := logged?_eq_some_iff.mp hlogged
    have hcount : c.count? f line = some (Int64.ofInt m + c.adjustment f) := by
      rw [count?, hlogged, Option.map_some]
    have hmax : (m : Int) ≤ Int64.maxValue.toInt := by
      obtain ⟨_, _, -, -, -, hmax⟩ := hnumber
      exact hmax
    refine .inl ⟨m, _, hnumber, toInt_add_adjustment l kind f hmax, ?_⟩
    exact fun _ => reading_of_count? hoffset hline hcount
  | none =>
    have hcount : c.count? f line = none := by rw [count?, hlogged, Option.map_none]
    refine .inr ⟨?_, fun _ => reading_of_count?_eq_none hoffset hline hcount⟩
    rintro ⟨m, hnumber⟩
    rw [logged?_eq_some_iff.mpr ⟨m, hnumber, rfl⟩] at hlogged
    cases hlogged

/-- The count of a field is what a search of its line finds. If nobody requires the field, it has no
value exactly if the file ends before the line. If the line is there, the first group of the pattern
is the number that the search finds, and the count is this number, adjusted without an overflow, or
the line is malformed because the search finds none. -/
theorem reading_eq_search (l : LogSettings) (kind : TrialKind) (file : TextFile) (f : Field)
    (hf : f ∈ fields) :
    let c := l.pageCounter kind
    ∃ offset, c.offsets.offset? f = some offset ∧
      (c.reading file [] f = .ok [] ↔ file.lines.length ≤ offset) ∧
      ∀ line, file.lines[offset]? = some line →
        (∃ parts, Text.readPattern? c.pattern = some parts ∧
          c.logged? line =
            ((Text.captures? parts line.toList).bind (·[0]?)).bind Text.readInt64?) ∧
        ((∃ n count, Text.FirstNumber c.label n line.toList ∧
            count.toInt = n + (c.adjustment f).toInt ∧
            ∀ required, c.reading file required f = .ok [(f, .count count)]) ∨
          (¬∃ n, Text.FirstNumber c.label n line.toList) ∧
            ∀ required, c.reading file required f =
              .error (.malformed file.path offset c.expected line)) := by
  intro c
  obtain ⟨offset, hoffset⟩ := c.exists_offset hf
  refine ⟨offset, hoffset, ⟨?_, reading_of_length_le hoffset⟩, ?_⟩
  · intro hnothing
    by_contra hend
    have hline := List.getElem?_eq_getElem (Nat.lt_of_not_le hend)
    obtain ⟨_, _, -, -, hreading⟩ | ⟨-, hreading⟩ := reading_of_line l kind hoffset hline
    · rw [hreading] at hnothing
      cases hnothing
    · rw [hreading] at hnothing
      cases hnothing
  · intro line hline
    exact ⟨⟨_, readPattern?_pattern c, logged?_eq_captures? c line⟩,
      reading_of_line l kind hoffset hline⟩

/-- The name of a counter may have a meaning of its own in a pattern. What counts is the first place
with a digit, also if the number there cannot be read. -/
theorem reading_of_meaningful_name :
    let l : LogSettings := { thresholdCounter := "(\\d+)|R.", threshold := ⟨0, 1, 2⟩ }
    let c := l.pageCounter .threshold
    let counted := "(\\d+)|R. = ?, 7 = 8, (\\d+)|R. = 0042, (\\d+)|R. = 9"
    let foreign := "(\\d+)|R. = 4\u0662, (\\d+)|R. = 9"
    let file : TextFile := ⟨"log", [counted, foreign]⟩
    Text.FirstNumber c.label 42 counted.toList ∧
      c.reading file [] .pgreq1 = .ok [(.pgreq1, .count 42)] ∧
      (¬∃ n, Text.FirstNumber c.label n foreign.toList) ∧
      c.reading file [] .pgreqR3 = .error (.malformed "log" 1 c.expected foreign) ∧
      c.reading file [] .pgreqS3 = .ok [] := by
  intro l c counted foreign file
  have hcounted : c.reading file [] .pgreq1 = .ok [(.pgreq1, .count 42)] := by decide +kernel
  have hforeign : c.reading file [] .pgreqR3 = .error (.malformed "log" 1 c.expected foreign) := by
    decide +kernel
  refine ⟨?_, hcounted, ?_, hforeign, ?_⟩
  · obtain ⟨offset, hoffset, -, hline⟩ := reading_eq_search l .threshold file .pgreq1 (by decide)
    cases hoffset
    obtain ⟨-, ⟨n, count, hnumber, hsum, hreading⟩ | ⟨-, hreading⟩⟩ := hline counted rfl
    · rw [hreading] at hcounted
      cases hcounted
      have hn : (42 : Int) = n + 0 := hsum
      obtain rfl : n = 42 := by omega
      exact hnumber
    · rw [hreading] at hcounted
      cases hcounted
  · obtain ⟨offset, hoffset, -, hline⟩ := reading_eq_search l .threshold file .pgreqR3 (by decide)
    cases hoffset
    obtain ⟨-, ⟨_, _, -, -, hreading⟩ | ⟨hnone, -⟩⟩ := hline foreign rfl
    · rw [hreading] at hforeign
      cases hforeign
    · exact hnone
  · obtain ⟨offset, hoffset, hend, -⟩ := reading_eq_search l .threshold file .pgreqS3 (by decide)
    cases hoffset
    exact hend.mpr (by decide)

end PageCounter

end TrialSummary
