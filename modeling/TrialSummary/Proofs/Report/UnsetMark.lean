import TrialSummary.Proofs.Extraction.LoggedNumbers
import TrialSummary.Proofs.Text.Numeral
import TrialSummary.Report.Draft

/-!
# The mark of a field without a value

A count that a log filled in is what the log says, or one less, so it is never below `-1`. It is `-1`
only where the adjustment meets a logged zero. Nothing keeps it from being stored then, and as `-1`
is also what a report prints for a field without a value, the two can no longer be told apart. All
other counts are natural numbers, and their cells show that there is a value.
-/

namespace TrialSummary

namespace PageCounter

variable {file : TextFile} {f : Field} {m : Nat}

/-- An adjusted count is at least `-1`, and this only if a logged zero is lowered. -/
theorem adjusted_neg_iff (l : LogSettings) (kind : TrialKind) (f : Field) {count : Int64}
    (hsum : count.toInt = m + ((l.pageCounter kind).adjustment f).toInt) :
    -1 ≤ count.toInt ∧
      (count.toInt < 0 ↔ m = 0 ∧ (l.pageCounter kind).adjustment f = -1) := by
  obtain hadjustment | hadjustment := adjustment_pageCounter l kind f
  · have hne : (0 : Int64) ≠ -1 := by decide
    have hcount : count.toInt = m := by
      rw [hsum, hadjustment]
      exact Int.add_zero m
    rw [hadjustment]
    exact ⟨by omega, iff_of_false (by omega) fun h => hne h.2⟩
  · have hcount : count.toInt = m - 1 := by
      rw [hsum, hadjustment]
      rfl
    rw [hadjustment]
    exact ⟨by omega, fun h => ⟨by omega, rfl⟩, fun h => by omega⟩

/-- A value that a log gave to a new record is the adjusted number on the line of its field. -/
theorem logs_of_get_extract {l : LogSettings} {trial : TrialId} {required : List Field} {v : Value}
    (h : (l.extract file required (Record.empty trial)).record.get f = some v) :
    ∃ m count, v = .count count ∧ (l.pageCounter trial.config.kind).Logs file f m ∧
      count.toInt = m + ((l.pageCounter trial.config.kind).adjustment f).toInt := by
  obtain ⟨gs, hgs, hrecord⟩ := Extraction.exists_record_fill_rules
    (l.pageCounter trial.config.kind).rule fields file required (Record.empty trial)
  have hfill : (l.extract file required (Record.empty trial)).record =
      (Record.empty trial).setAll
        (gs.flatMap fun g => ((l.pageCounter trial.config.kind).rule g).values file) := hrecord
  rw [hfill] at h
  obtain ⟨w, hw, rfl⟩ := Record.exists_of_get_setAll_empty h
  obtain ⟨g, hg, hvalue⟩ := List.mem_flatMap.mp hw
  obtain ⟨rfl, m, count, rfl, hlogs, hsum⟩ := mem_values_rule (hgs hg) hvalue
  refine ⟨m, count, ?_, hlogs, hsum⟩
  rw [quantity_of_mem_fields (hgs hg)]
  rfl

theorem isSome_get_extract_of_logs {l : LogSettings} {trial : TrialId} {required : List Field}
    (hsuccess : (l.extract file required (Record.empty trial)).error? = none)
    (hlogs : (l.pageCounter trial.config.kind).Logs file f m) :
    ((l.extract file required (Record.empty trial)).record.get f).isSome := by
  have hfill : Extraction.fill (Record.empty trial)
      (fields.map fun g => ((l.pageCounter trial.config.kind).rule g).reading file required) =
        ⟨(l.extract file required (Record.empty trial)).record, none⟩ := by
    rw [← hsuccess]
    rfl
  obtain ⟨-, hrecord⟩ := Extraction.fill_rules_eq_none_iff.mp hfill
  have hmem : f ∈ (((l.pageCounter trial.config.kind).rule f).values file).map Prod.fst := by
    rw [values_rule_of_logs hlogs]
    exact List.mem_singleton_self f
  rw [hrecord, Record.isSome_get_setAll, List.map_flatMap, List.mem_flatMap]
  exact .inl ⟨f, hlogs.mem_fields, hmem⟩

end PageCounter

/-- Only one count is printed like a missing value. -/
theorem Value.text_count_eq_unsetText_iff {count : Int64} :
    (Value.count count).text = unsetText ↔ count.toInt = -1 := by
  have hmark : unsetText = String.ofList (Text.writeInt (-1)) := by decide
  rw [Value.text, hmark, String.ofList_inj]
  constructor
  · intro h
    have hread := congrArg Text.readInt? h
    rw [Text.readInt?_writeInt, Text.readInt?_writeInt] at hread
    exact Option.some.inj hread
  · intro h
    rw [h]

namespace LogSettings

/-- A field of a new record that is filled from a log has no value or the adjusted number on its
line, whatever becomes of the other lines, and if nothing fails then each number is stored. The value
is not negative, except that it is `-1` where a count that is lowered was logged as zero. Exactly then
the cell of a field that has a value is printed like that of a field without one. -/
theorem unset_mark_iff (l : LogSettings) (file : TextFile) (required : List Field) (trial : TrialId)
    (f : Field) :
    let c := l.pageCounter trial.config.kind
    let x := l.extract file required (Record.empty trial)
    (∀ v, x.record.get f = some v → ∃ m count, v = .count count ∧ c.Logs file f m ∧
        count.toInt = m + (c.adjustment f).toInt ∧ -1 ≤ count.toInt ∧
        (count.toInt < 0 ↔ m = 0 ∧ c.adjustment f = -1)) ∧
      (x.error? = none → ∀ m, c.Logs file f m → (x.record.get f).isSome) ∧
      (x.record.cellText f = unsetText ↔
        x.record.get f = none ∨ c.Logs file f 0 ∧ c.adjustment f = -1) := by
  intro c x
  refine ⟨fun v hv => ?_, fun h m hlogs => PageCounter.isSome_get_extract_of_logs h hlogs, ?_⟩
  · obtain ⟨m, count, rfl, hlogs, hsum⟩ := PageCounter.logs_of_get_extract hv
    exact ⟨m, count, rfl, hlogs, hsum, PageCounter.adjusted_neg_iff l _ f hsum⟩
  · cases hget : x.record.get f with
    | none =>
      have htext : x.record.cellText f = unsetText := by
        rw [Record.cellText, hget, Option.map_none, Option.getD_none]
      exact iff_of_true htext (.inl rfl)
    | some v =>
      obtain ⟨m, count, rfl, hlogs, hsum⟩ := PageCounter.logs_of_get_extract hget
      obtain ⟨hlower, hnegative⟩ := PageCounter.adjusted_neg_iff l _ f hsum
      rw [Record.cellText, hget, Option.map_some, Option.getD_some,
        Value.text_count_eq_unsetText_iff]
      constructor
      · intro hmark
        obtain ⟨rfl, hadjustment⟩ := hnegative.mp (by omega)
        exact .inr ⟨hlogs, hadjustment⟩
      · rintro (hnone | ⟨hzero, hadjustment⟩)
        · cases hnone
        · have := hnegative.mpr ⟨hlogs.unique hzero, hadjustment⟩
          omega

/-- A probabilistic trial whose log says 81 for the first scan and ends before the other two. -/
theorem unset_mark_of_one_line :
    let l : LogSettings := {}
    let file : TextFile := ⟨"log", ["", "used = 81"]⟩
    let r := (l.extract file [] (Record.empty ⟨⟨.probabilistic, 50⟩, 0⟩)).record
    r.get .pgreq1 = some (.count 80) ∧ (l.pageCounter .probabilistic).Logs file .pgreq1 81 ∧
      r.cellText .pgreq1 ≠ unsetText ∧ r.cellText .pgreqR3 = unsetText := by
  intro l file r
  have hget : r.get .pgreq1 = some (.count 80) := by decide +kernel
  have hunset : r.get .pgreqR3 = none := by decide +kernel
  obtain ⟨hvalue, hstored, hmark⟩ := unset_mark_iff l file [] ⟨⟨.probabilistic, 50⟩, 0⟩ .pgreq1
  obtain ⟨-, -, hmark'⟩ := unset_mark_iff l file [] ⟨⟨.probabilistic, 50⟩, 0⟩ .pgreqR3
  obtain ⟨m, count, hcount, hlogs, hsum, -, -⟩ := hvalue _ hget
  cases hcount
  have hm : (80 : Int) = m - 1 := hsum
  obtain rfl : m = 81 := by omega
  have hsome := hstored (by decide +kernel) 81 hlogs
  refine ⟨hget, hlogs, fun htext => ?_, hmark'.mpr (.inl hunset)⟩
  obtain hnone | ⟨hzero, -⟩ := hmark.mp htext
  · rw [hnone] at hsome
    cases hsome
  · cases hlogs.unique hzero

/-- A probabilistic trial whose log says 0 for the first scan has a count below zero, and its cell
is that of a field without a value. -/
theorem unset_mark_of_logged_zero :
    let l : LogSettings := {}
    let file : TextFile := ⟨"log", ["", "used = 0"]⟩
    let r := (l.extract file [] (Record.empty ⟨⟨.probabilistic, 50⟩, 0⟩)).record
    r.get .pgreq1 = some (.count (-1)) ∧ ¬0 ≤ (-1 : Int64).toInt ∧
      r.cellText .pgreq1 = unsetText := by
  decide +kernel

end LogSettings

end TrialSummary
