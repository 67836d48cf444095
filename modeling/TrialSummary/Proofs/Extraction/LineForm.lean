import TrialSummary.Extraction.Results
import TrialSummary.Proofs.Decimal.RoundTrip
import TrialSummary.Proofs.Report.Table
import TrialSummary.Proofs.Text.Search
import TrialSummary.Proofs.Trial.Record

/-!
# Lines that hold measurements

A line of one of the three forms is written with the texts of its measurements, the ones that
reports print, and with any blanks around each of them. Reading the line gives the measurements
back. This needs a measure to be finite and a form to be filled with fields of the right quantity.
-/

namespace TrialSummary

namespace Text

def Padded (text cs : List Char) : Prop :=
  ∃ front back, (∀ c ∈ front, isBlank c = true) ∧ (∀ c ∈ back, isBlank c = true) ∧
    cs = front ++ text ++ back

theorem padded_trim (cs : List Char) : Padded (trim cs) cs := by
  have hall (cs : List Char) : ∀ c ∈ cs.takeWhile isBlank, isBlank c = true :=
    List.all_eq_true.mp List.all_takeWhile
  have hend : trimEnd (trimStart cs) ++ ((trimStart cs).reverse.takeWhile isBlank).reverse =
      trimStart cs := by
    rw [trimEnd, ← List.reverse_append, List.takeWhile_append_dropWhile, List.reverse_reverse]
  refine ⟨cs.takeWhile isBlank, ((trimStart cs).reverse.takeWhile isBlank).reverse, hall cs, ?_, ?_⟩
  · intro c hc
    exact hall _ c (List.mem_reverse.mp hc)
  · rw [trim, List.append_assoc, hend, trimStart, List.takeWhile_append_dropWhile]

/-- A text without blanks is what is left of a padded text when it is trimmed. -/
theorem padded_iff {text cs : List Char} (htext : ∀ c ∈ text, isBlank c = false) :
    Padded text cs ↔ trim cs = text := by
  constructor
  · rintro ⟨front, back, hfront, hback, rfl⟩
    exact trim_blanks_around hfront hback htext
  · rintro rfl
    exact padded_trim cs

/-- A character is not in a padded text if it is neither a blank nor in the text. -/
theorem Padded.notMem {text cs : List Char} {c : Char} (h : Padded text cs)
    (hblank : isBlank c = false) (htext : c ∉ text) : c ∉ cs := by
  obtain ⟨front, back, hfront, hback, rfl⟩ := h
  simp only [List.mem_append, not_or]
  refine ⟨⟨?_, htext⟩, ?_⟩
  · intro hc
    simp [hfront c hc] at hblank
  · intro hc
    simp [hback c hc] at hblank

end Text

namespace Value

/-- Infinities and NaNs are no results of a measurement. Every count is one. -/
def IsFinite : Value → Prop
  | .measure x => x.isFinite = true
  | .count _ => True

instance (v : Value) : Decidable v.IsFinite := by
  cases v <;> unfold IsFinite <;> infer_instance

end Value

namespace LineForm

variable {m : Measurements}

/-- The bar between an average and a count is in no number. -/
theorem bar_notMem_text (v : Value) : '|' ∉ v.text.toList := by
  intro h
  rcases v.isNumberChar_text _ h with h | h
  · simp at h
  · simp [numberSigns] at h

theorem padded_value_iff {v : Value} {cs : List Char} :
    Text.Padded v.text.toList cs ↔ Text.trim cs = v.text.toList :=
  Text.padded_iff fun c hc => (v.isNumberChar_text c hc).isBlank_eq_false

theorem readMeasure?_padded {x : Binary64} {cs : List Char} (hfinite : x.isFinite = true)
    (h : Text.Padded (Value.measure x).text.toList cs) : readMeasure? cs = some (.measure x) := by
  rw [readMeasure?, padded_value_iff.mp h, Value.text, Binary64.render, String.toList_ofList]
  cases x with
  | nan s => cases hfinite
  | infinity s => cases hfinite
  | finite s k => rw [Binary64.read?_text, Option.map_some]

theorem readCount?_padded {n : Int64} {cs : List Char}
    (h : Text.Padded (Value.count n).text.toList cs) : readCount? cs = some (.count n) := by
  rw [readCount?, padded_value_iff.mp h, Value.text, String.toList_ofList, Text.readInt64?_writeInt,
    Option.map_some]

/-- The fields of a form hold numbers of the type that the form reads. -/
def WellTyped : LineForm → Prop
  | .avgCount a n => a.quantity = .measure ∧ n.quantity = .count
  | .time f => f.quantity = .measure
  | .count f => f.quantity = .count

/-- What has to stand on a line of a form, with any blanks around each number. -/
def Holds (m : Measurements) (cs : List Char) : LineForm → Prop
  | .avgCount a n =>
    ∃ p q, Text.Padded (m.value a).text.toList p ∧ Text.Padded (m.value n).text.toList q ∧
      cs = p ++ '|' :: q
  | .time f =>
    ∃ p, Text.Padded (m.value f).text.toList p ∧ cs = "Time: ".toList ++ (p ++ " ms".toList)
  | .count f => Text.Padded (m.value f).text.toList cs

theorem timeText?_append {p : List Char} (h : '\n' ∉ p) :
    timeText? ("Time: ".toList ++ (p ++ " ms".toList)) = some p := by
  have hline : ∀ c ∈ p ++ " ms".toList, decide (c ≠ '\n') = true := by
    intro c hc
    rcases List.mem_append.mp hc with hc | hc
    · simpa using fun heq : c = '\n' => h (heq ▸ hc)
    · have hfeed : '\n' ∉ " ms".toList := by decide
      simpa using fun heq : c = '\n' => hfeed (heq ▸ hc)
  have hrun := Text.takeWhile_run hline Text.stopsRun_nil
  rw [List.append_nil] at hrun
  rw [timeText?, Text.after?_append, Option.bind_some, hrun, Text.beforeLast?_milliseconds]

theorem parse?_of_holds {form : LineForm} {cs : List Char} (htyped : form.WellTyped)
    (hfinite : ∀ f, (m.value f).IsFinite) (hfeed : '\n' ∉ cs) (h : form.Holds m cs) :
    form.parse? (String.ofList cs) = some (form.fields.map fun f => (f, m.value f)) := by
  cases form with
  | avgCount a n =>
    obtain ⟨p, q, hp, hq, rfl⟩ := h
    obtain ⟨x, hx⟩ := m.value_of_measure htyped.1
    obtain ⟨k, hk⟩ := m.value_of_count htyped.2
    have hbar : Text.isBlank '|' = false := by decide
    have hsplit : (p ++ '|' :: q).splitOn '|' = [p, q] := by
      rw [List.splitOn_append_cons_self_of_not_mem (hp.notMem hbar (bar_notMem_text _)),
        List.splitOn_eq_singleton (hq.notMem hbar (bar_notMem_text _))]
    have hfin := hfinite a
    rw [hx] at hp hfin
    rw [hk] at hq
    simp [parse?, fields, hsplit, readMeasure?_padded hfin hp, readCount?_padded hq, hx, hk]
  | time f =>
    obtain ⟨p, hp, rfl⟩ := h
    obtain ⟨x, hx⟩ := m.value_of_measure htyped
    have hnotMem : '\n' ∉ p := fun hmem => hfeed (by simp [hmem])
    have hfin := hfinite f
    rw [hx] at hp hfin
    rw [parse?, String.toList_ofList, timeText?_append hnotMem]
    simp [fields, readMeasure?_padded hfin hp, hx]
  | count f =>
    obtain ⟨k, hk⟩ := m.value_of_count htyped
    rw [Holds, hk] at h
    simp [parse?, fields, readCount?_padded h, hk]

section Parse

variable {line : String} {vs : List (Field × Value)} {a n f : Field}

/-- A line of averages has a number in front of its first bar and a count behind it. -/
theorem parse?_avgCount_eq_some_iff :
    (avgCount a n).parse? line = some vs ↔
      ∃ p q rest x k, line.toList.splitOn '|' = p :: q :: rest ∧
        Binary64.read? (Text.trim p) = some x ∧ Text.readInt64? (Text.trim q) = some k ∧
        vs = [(a, .measure x), (n, .count k)] := by
  simp only [parse?]
  split
  · next p q rest hsplit =>
    simp [hsplit, readMeasure?, readCount?, Option.bind_eq_some_iff, @eq_comm _ vs]
  · next hshort =>
    refine iff_of_false (by simp) ?_
    rintro ⟨p, q, rest, -, -, hsplit, -⟩
    exact hshort p q rest hsplit

/-- A line of a time has a number between its two words. -/
theorem parse?_time_eq_some_iff :
    (time f).parse? line = some vs ↔
      ∃ text x, timeText? line.toList = some text ∧ Binary64.read? (Text.trim text) = some x ∧
        vs = [(f, .measure x)] := by
  simp [parse?, readMeasure?, Option.bind_eq_some_iff, @eq_comm _ vs]

theorem parse?_count_eq_some_iff :
    (count f).parse? line = some vs ↔
      ∃ k, Text.readInt64? (Text.trim line.toList) = some k ∧ vs = [(f, .count k)] := by
  simp [parse?, readCount?, Option.bind_eq_some_iff, @eq_comm _ vs]

theorem fields_of_parse? {form : LineForm} (h : form.parse? line = some vs) :
    vs.map Prod.fst = form.fields := by
  cases form with
  | avgCount a n =>
    obtain ⟨_, _, _, _, _, -, -, -, rfl⟩ := parse?_avgCount_eq_some_iff.mp h
    rfl
  | time f =>
    obtain ⟨_, _, -, -, rfl⟩ := parse?_time_eq_some_iff.mp h
    rfl
  | count f =>
    obtain ⟨_, -, rfl⟩ := parse?_count_eq_some_iff.mp h
    rfl

end Parse

end LineForm

end TrialSummary
