import TrialSummary.Proofs.Decimal.NotFinite
import TrialSummary.Proofs.Extraction.LineForm
import TrialSummary.Proofs.Extraction.Outcome
import TrialSummary.Proofs.Extraction.Truncation

/-!
# Measures that are not finite

Messages say that a line of averages has a float and that a line of a time has a number. What is
taken for one is any text of the grammar, and this has words for NaN and the infinities and decimals
of any size. Such a text is never the reason for a failure: the line is refused only if its count
cannot be read. The measure is stored as it is, and it is the only way in which an extraction can
leave a measure that is not finite, because counts that are stored as measures are finite.
-/

namespace TrialSummary

namespace LineForm

variable {form : LineForm} {line : String} {f : Field}

/-- The text of the measure on a line, and the field that it is for. -/
def measureText? (form : LineForm) (line : String) : Option (Field × List Char) :=
  match form with
  | .avgCount a _ =>
    match line.toList.splitOn '|' with
    | p :: _ :: _ => some (a, Text.trim p)
    | _ => none
  | .time f => (timeText? line.toList).map fun cs => (f, Text.trim cs)
  | .count _ => none

/-- A line of averages with a text behind its bar that is no count. -/
def LacksCount (form : LineForm) (line : String) : Prop :=
  ∃ a n p q rest, form = .avgCount a n ∧ line.toList.splitOn '|' = p :: q :: rest ∧
    readCount? q = none

/-- A line with a measure is refused if the text is none of the grammar, or for its count. -/
theorem parse?_eq_none_iff {cs : List Char} (htext : form.measureText? line = some (f, cs)) :
    form.parse? line = none ↔ Binary64.read? cs = none ∨ form.LacksCount line := by
  cases form with
  | avgCount a n =>
    rw [measureText?] at htext
    split at htext
    · next p q rest hsplit =>
      cases htext
      have hlacks : (avgCount f n).LacksCount line ↔ readCount? q = none := by
        constructor
        · rintro ⟨a', n', p', q', rest', -, hsplit', hnone⟩
          rw [hsplit] at hsplit'
          cases hsplit'
          exact hnone
        · exact fun hnone => ⟨f, n, p, q, rest, rfl, hsplit, hnone⟩
      rw [hlacks, parse?, hsplit]
      cases hread : Binary64.read? (Text.trim p) <;> cases hcount : readCount? q <;>
        simp [readMeasure?, hread, hcount]
    · cases htext
  | time g =>
    obtain ⟨text, htime, heq⟩ := Option.map_eq_some_iff.mp htext
    cases heq
    have hlacks : ¬(time f).LacksCount line := by
      rintro ⟨a, n, p, q, rest, hform, -⟩
      cases hform
    rw [parse?, htime]
    cases hread : Binary64.read? (Text.trim text) <;> simp [readMeasure?, hread, hlacks]
  | count g => cases htext

theorem measure_mem_of_parse? {cs : List Char} {x : Binary64} {vs : List (Field × Value)}
    (htext : form.measureText? line = some (f, cs)) (hread : Binary64.read? cs = some x)
    (h : form.parse? line = some vs) : (f, .measure x) ∈ vs := by
  cases form with
  | avgCount a n =>
    obtain ⟨p, q, rest, y, k, hsplit, hy, -, rfl⟩ := parse?_avgCount_eq_some_iff.mp h
    simp only [measureText?, hsplit] at htext
    cases htext
    cases hy.symm.trans hread
    exact List.mem_cons_self
  | time g =>
    obtain ⟨text, y, htime, hy, rfl⟩ := parse?_time_eq_some_iff.mp h
    simp only [measureText?, htime] at htext
    cases htext
    cases hy.symm.trans hread
    exact List.mem_cons_self
  | count g => cases htext

theorem mem_parse? {vs : List (Field × Value)} {v : Value} (h : form.parse? line = some vs)
    (hv : (f, v) ∈ vs) :
    (∃ n, v = .count n) ∨ ∃ cs x, form.measureText? line = some (f, cs) ∧
      Binary64.read? cs = some x ∧ v = .measure x := by
  cases form with
  | avgCount a n =>
    obtain ⟨p, q, rest, x, k, hsplit, hx, -, rfl⟩ := parse?_avgCount_eq_some_iff.mp h
    rcases List.mem_cons.mp hv with heq | hv
    · cases heq
      exact .inr ⟨_, x, by simp only [measureText?, hsplit], hx, rfl⟩
    · cases List.mem_singleton.mp hv
      exact .inl ⟨k, rfl⟩
  | time g =>
    obtain ⟨text, x, htime, hx, rfl⟩ := parse?_time_eq_some_iff.mp h
    cases List.mem_singleton.mp hv
    exact .inr ⟨_, x, by simp only [measureText?, htime, Option.map_some], hx, rfl⟩
  | count g =>
    obtain ⟨k, -, rfl⟩ := parse?_count_eq_some_iff.mp h
    cases List.mem_singleton.mp hv
    exact .inl ⟨k, rfl⟩

end LineForm

namespace Placement

variable {p : Placement} {file : TextFile} {required : List Field} {f : Field} {x : Binary64}

/-- The line is there, and the text of its measure stands for `x`, which is not finite. -/
def HasNotFinite (p : Placement) (file : TextFile) (f : Field) (x : Binary64) : Prop :=
  ∃ line cs, file.lines[p.offset]? = some line ∧ p.form.measureText? line = some (f, cs) ∧
    Binary64.NotFiniteText cs x

/-- Whether the measure is finite does not decide whether its line is faulty. -/
theorem faulty_rule_iff {line : String} {cs : List Char} (hline : file.lines[p.offset]? = some line)
    (htext : p.form.measureText? line = some (f, cs)) (required : List Field) :
    p.rule.Faulty file required ↔ Binary64.read? cs = none ∨ p.form.LacksCount line := by
  rw [← LineForm.parse?_eq_none_iff htext]
  constructor
  · rintro (⟨line', hline', hnone⟩ | ⟨hend, -⟩)
    · obtain rfl : line = line' := Option.some.inj (hline.symm.trans hline')
      exact hnone
    · exact absurd (List.getElem?_eq_some_iff.mp hline).1 (Nat.not_lt.mpr hend)
  · exact fun hnone => .inl ⟨line, hline, hnone⟩

/-- A line that is not faulty gives its measure, finite or not. -/
theorem mem_values_of_hasNotFinite (h : p.HasNotFinite file f x)
    (hsound : ¬p.rule.Faulty file required) : (f, .measure x) ∈ p.rule.values file := by
  obtain ⟨line, cs, hline, htext, hnot⟩ := h
  cases hparse : p.form.parse? line with
  | none => exact absurd (.inl ⟨line, hline, hparse⟩) hsound
  | some vs =>
    rw [LineRule.values_eq_of_parse hline hparse]
    exact LineForm.measure_mem_of_parse? htext (Binary64.notFiniteText_iff.mp hnot).1 hparse

/-- A value of a line is a count, or a finite measure, or the one that stands there. -/
theorem mem_values {v : Value} (h : (f, v) ∈ p.rule.values file) :
    (∃ n, v = .count n) ∨
      ∃ x, v = .measure x ∧ (x.isFinite = true ∨ p.HasNotFinite file f x) := by
  obtain ⟨line, vs, hline, hvs, hmem⟩ := LineRule.exists_parse_of_mem_values h
  obtain hcount | ⟨cs, x, htext, hread, rfl⟩ := LineForm.mem_parse? hvs hmem
  · exact .inl hcount
  · refine .inr ⟨x, rfl, ?_⟩
    cases hfinite : x.isFinite with
    | true => exact .inl rfl
    | false =>
      exact .inr ⟨line, cs, hline, htext, Binary64.notFiniteText_iff.mpr ⟨hread, hfinite⟩⟩

end Placement

namespace Schema

variable {s : Schema} {file : TextFile} {required : List Field} {trial : TrialId} {f : Field}
variable {x : Binary64}

/-- A measure of an extraction is finite, or it stands on one of the lines. -/
theorem isFinite_or_hasNotFinite_of_get
    (h : (s.extract file required (Record.empty trial)).record.get f = some (.measure x)) :
    x.isFinite = true ∨ ∃ p ∈ s.placements, p.HasNotFinite file f x := by
  obtain ⟨ps, hps, hrecord⟩ := Extraction.exists_record_fill_rules Placement.rule s.placements file
    required (Record.empty trial)
  rw [← extract_eq_fill_rules] at hrecord
  rw [hrecord] at h
  obtain ⟨v, hv, hstored⟩ := Record.exists_of_get_setAll_empty h
  obtain ⟨p, hp, hvalue⟩ := List.mem_flatMap.mp hv
  cases hquantity : f.quantity with
  | count =>
    rw [hquantity] at hstored
    cases hstored
  | measure =>
    rw [hquantity] at hstored
    obtain rfl : x = v.convert .measure := Value.measure.inj hstored
    obtain ⟨n, rfl⟩ | ⟨y, rfl, hy⟩ := Placement.mem_values hvalue
    · exact .inl (Binary64.isFinite_ofInt64 n)
    · exact hy.imp_right fun hnot => ⟨p, hps hp, hnot⟩

theorem sound_of_error?_eq_none {r : Record}
    (hsuccess : (s.extract file required r).error? = none) :
    (∀ p ∈ s.placements, ¬p.rule.Faulty file required) ∧
      (s.extract file required r).record =
        r.setAll (s.placements.flatMap fun p => p.rule.values file) := by
  have hfill : s.extract file required r = ⟨(s.extract file required r).record, none⟩ := by
    rw [← hsuccess]
  exact Extraction.fill_rules_eq_none_iff.mp
    ((extract_eq_fill_rules s file required r).symm.trans hfill)

/-- After a success a record has the values of all lines, if each field has one place. -/
theorem get_extract_of_mem_values {r : Record}
    (hsuccess : (s.extract file required r).error? = none)
    (hdistinct : (s.placements.flatMap fun p => p.form.fields).Nodup) {p : Placement}
    (hp : p ∈ s.placements) {v : Value} (hv : (f, v) ∈ p.rule.values file) :
    (s.extract file required r).record.get f =
      some (Value.ofCarrier f.quantity (v.convert f.quantity)) := by
  obtain ⟨hsound, hrecord⟩ := sound_of_error?_eq_none hsuccess
  have hreadings : s.placements.map (Placement.reading file required) =
      (s.placements.map fun p => p.rule.values file).map .ok := by
    rw [List.map_map]
    exact List.map_congr_left fun p hp => LineRule.reading_eq_ok_iff.mpr ⟨hsound p hp, rfl⟩
  have hkeys := Extraction.keys_sublist_of_readings
    (fun p _ _ hp => Placement.keys_sublist_of_reading hp) hreadings
  rw [← List.flatMap_def] at hkeys
  rw [hrecord]
  exact Record.get_setAll_of_mem r (hkeys.nodup hdistinct) (List.mem_flatMap.mpr ⟨p, hp, hv⟩)

theorem get_extract_of_hasNotFinite {r : Record}
    (hsuccess : (s.extract file required r).error? = none)
    (hdistinct : (s.placements.flatMap fun p => p.form.fields).Nodup)
    (hquantity : f.quantity = .measure) {p : Placement} (hp : p ∈ s.placements)
    (h : p.HasNotFinite file f x) :
    (s.extract file required r).record.get f = some (.measure x) := by
  have hsound := (sound_of_error?_eq_none hsuccess).1 p hp
  have hmem := Placement.mem_values_of_hasNotFinite h hsound
  rw [get_extract_of_mem_values hsuccess hdistinct hp hmem, hquantity]
  rfl

/-- A measure that an extraction gives to a new record is finite, unless the text of a measure on
one of the lines stands for it: a word for NaN or infinity, or a decimal that overflows. These texts
are read like all others, and a line with a measure is faulty exactly if its text cannot be read or,
on a line of averages, its count cannot. So if nothing fails and each field has one place, then
exactly the fields with such a text have a measure that is not finite. -/
theorem extract_takes_notFinite (s : Schema) (file : TextFile) (required : List Field)
    (trial : TrialId) :
    let extraction := s.extract file required (Record.empty trial)
    (∀ f x, extraction.record.get f = some (.measure x) →
      x.isFinite = true ∨ ∃ p ∈ s.placements, p.HasNotFinite file f x) ∧
    (∀ p : Placement, ∀ line f cs, file.lines[p.offset]? = some line →
      p.form.measureText? line = some (f, cs) →
        (p.rule.Faulty file required ↔ Binary64.read? cs = none ∨ p.form.LacksCount line) ∧
        ∀ x, Binary64.NotFiniteText cs x → Binary64.read? cs = some x) ∧
    (extraction.error? = none → (s.placements.flatMap fun p => p.form.fields).Nodup →
      ∀ f x, f.quantity = .measure →
        (extraction.record.get f = some (.measure x) ∧ x.isFinite = false ↔
          ∃ p ∈ s.placements, p.HasNotFinite file f x)) := by
  intro extraction
  refine ⟨fun f x h => isFinite_or_hasNotFinite_of_get h, fun p line f cs hline htext => ?_,
    fun hsuccess hdistinct f x hquantity => ⟨fun ⟨hget, hnot⟩ => ?_, fun ⟨p, hp, h⟩ => ?_⟩⟩
  · exact ⟨Placement.faulty_rule_iff hline htext required,
      fun x hnot => (Binary64.notFiniteText_iff.mp hnot).1⟩
  · refine (isFinite_or_hasNotFinite_of_get hget).resolve_left ?_
    rw [hnot]
    exact Bool.false_ne_true
  · refine ⟨get_extract_of_hasNotFinite hsuccess hdistinct hquantity hp h, ?_⟩
    obtain ⟨line, cs, hline, htext, hnot⟩ := h
    exact (Binary64.notFiniteText_iff.mp hnot).2

/-- An average that overflows and an infinite time are stored. A NaN is no fault of its line either,
but the line has no count. -/
theorem extract_takes_infinities :
    let row : Placement := ⟨0, .avgCount .avg1 .count1⟩
    let time : Placement := ⟨1, .time .time1⟩
    let bare : Placement := ⟨2, .avgCount .avg2 .count2⟩
    let s : Schema := ⟨[row, time], by decide⟩
    let file : TextFile := ⟨"results/t-50-0", ["1e309|37", "Time: -Infinity ms", "nan|"]⟩
    let r := (s.extract file [.time1] (Record.empty ⟨⟨.threshold, 50⟩, 0⟩)).record
    row.HasNotFinite file .avg1 (.infinity false) ∧ time.HasNotFinite file .time1 (.infinity true) ∧
      ¬time.rule.Faulty file [.time1] ∧ bare.form.LacksCount "nan|" ∧
      bare.rule.Faulty file [.time1] ∧ r.get .avg1 = some (.measure (.infinity false)) ∧
      r.get .time1 = some (.measure (.infinity true)) := by
  intro row time bare s file r
  have hrow : row.HasNotFinite file .avg1 (.infinity false) :=
    ⟨_, _, rfl, rfl, Binary64.notFiniteText_iff.mpr ⟨by decide +kernel, rfl⟩⟩
  have hinfinite : Binary64.NotFiniteText "-Infinity".toList (.infinity true) :=
    Binary64.notFiniteText_iff.mpr ⟨by decide +kernel, rfl⟩
  have htime : time.HasNotFinite file .time1 (.infinity true) :=
    ⟨"Time: -Infinity ms", _, rfl, rfl, hinfinite⟩
  have hlacks : bare.form.LacksCount "nan|" := ⟨_, _, _, _, _, rfl, rfl, by decide⟩
  obtain ⟨-, hlines, hall⟩ := extract_takes_notFinite s file [.time1] ⟨⟨.threshold, 50⟩, 0⟩
  have hexact := hall (by decide +kernel) (by decide)
  obtain ⟨hfaulty, hread⟩ := hlines time "Time: -Infinity ms" .time1 _ rfl rfl
  obtain ⟨hbare, -⟩ := hlines bare "nan|" .avg2 _ rfl rfl
  refine ⟨hrow, htime, ?_, hlacks, hbare.mpr (.inr hlacks), ?_, ?_⟩
  · rw [hfaulty, hread _ hinfinite]
    rintro (hnone | ⟨a, n, p, q, rest, hform, -⟩)
    · cases hnone
    · cases hform
  · exact ((hexact .avg1 _ rfl).mpr ⟨row, by simp [s], hrow⟩).1
  · exact ((hexact .time1 _ rfl).mpr ⟨time, by simp [s], htime⟩).1

/-- A time that is not a number is stored, although the line should have a number. -/
theorem extract_takes_nan :
    let s := ofPlacements [⟨0, .time .time1⟩]
    let file : TextFile := ⟨"results/t-50-0", ["Time: NaN ms"]⟩
    let extraction := s.extract file [.time1] (Record.empty ⟨⟨.threshold, 50⟩, 0⟩)
    extraction.error? = none ∧ extraction.record.get .time1 = some (.measure (.nan false)) ∧
      (Binary64.nan false).isFinite = false := by
  decide +kernel

end Schema

end TrialSummary
