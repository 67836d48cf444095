import TrialSummary.Proofs.Extraction.LoggedNumbers
import TrialSummary.Proofs.Extraction.Required

/-!
# What the adjustment changes

Two counters with the same name and the same lines find the same numbers in a log and fail alike.
They differ in what they add. If a log is read with both of them into two new records of a trial,
side by side, then after each field the records have values in the same fields, and these values are
the numbers of the log with the adjustment of the one counter and of the other.

The setting that adjusts the counts of the last phase gives two such counters for probabilistic
trials, and one and the same for threshold trials. No other setting of one kind of trial concerns
the other kind.
-/

namespace TrialSummary

/-- Two readings that fail alike, or whose values keep records related. -/
inductive Reading.Related (R : Record → Record → Prop) : Reading → Reading → Prop where
  | error (e : FormatError) : Related R (.error e) (.error e)
  | ok {vs ws : List (Field × Value)} (hkeep : ∀ r s, R r s → R (r.setAll vs) (s.setAll ws)) :
      Related R (.ok vs) (.ok ws)

/-- Fillings with related readings fail alike and keep records related. -/
theorem Extraction.fill_related {α : Type} {R : Record → Record → Prop} {places : List α}
    {reading reading' : α → Reading} {r s : Record}
    (h : ∀ p ∈ places, Reading.Related R (reading p) (reading' p)) (hrs : R r s) :
    (fill r (places.map reading)).error? = (fill s (places.map reading')).error? ∧
      R (fill r (places.map reading)).record (fill s (places.map reading')).record := by
  induction places generalizing r s with
  | nil => exact ⟨rfl, hrs⟩
  | cons p places ih =>
    have hrest : ∀ q ∈ places, Reading.Related R (reading q) (reading' q) :=
      fun q hq => h q (List.mem_cons_of_mem _ hq)
    have hfirst := h p List.mem_cons_self
    rw [List.map_cons, List.map_cons]
    generalize reading p = x, reading' p = y at hfirst ⊢
    cases hfirst with
    | error e => exact ⟨rfl, hrs⟩
    | ok hkeep => exact ih hrest (hkeep r s hrs)

namespace PageCounter

variable {c c' : PageCounter} {file : TextFile} {required : List Field} {r s : Record} {f : Field}
variable {m : Nat}

/-- Counters that differ in their adjustments only. -/
structure FindsLike (c c' : PageCounter) : Prop where
  name_eq : c.name = c'.name
  offsets_eq : c.offsets = c'.offsets

/-- Records of one trial that have values in the same fields, each the number of the log with the
adjustment of the record's own counter. -/
structure Beside (c c' : PageCounter) (file : TextFile) (r s : Record) : Prop where
  trial_eq : r.trial = s.trial
  get : ∀ f, r.get f = none ∧ s.get f = none ∨
    ∃ m, c.Logs file f m ∧ r.get f = some (.count (Int64.ofInt m + c.adjustment f)) ∧
      s.get f = some (.count (Int64.ofInt m + c'.adjustment f))

theorem beside_empty (c c' : PageCounter) (file : TextFile) (trial : TrialId) :
    Beside c c' file (.empty trial) (.empty trial) :=
  ⟨rfl, fun f => .inl ⟨Record.get_empty trial f, Record.get_empty trial f⟩⟩

theorem Beside.set (h : Beside c c' file r s) (hlogs : c.Logs file f m) :
    Beside c c' file (r.set f (.count (Int64.ofInt m + c.adjustment f)))
      (s.set f (.count (Int64.ofInt m + c'.adjustment f))) := by
  refine ⟨?_, fun g => ?_⟩
  · rw [Record.trial_set, Record.trial_set, h.trial_eq]
  by_cases hg : g = f
  · subst hg
    refine .inr ⟨m, hlogs, ?_, ?_⟩
    · rw [Record.get_set_self, quantity_of_mem_fields hlogs.mem_fields]
      rfl
    · rw [Record.get_set_self, quantity_of_mem_fields hlogs.mem_fields]
      rfl
  · rw [Record.get_set_of_ne r hg, Record.get_set_of_ne s hg]
    exact h.get g

theorem Beside.get_eq (h : Beside c c' file r s) (hsame : c'.adjustment f = c.adjustment f) :
    s.get f = r.get f := by
  obtain ⟨hr, hs⟩ | ⟨m, -, hr, hs⟩ := h.get f
  · exact hs.trans hr.symm
  · rw [hs, hr, hsame]

theorem FindsLike.logged?_eq (h : c.FindsLike c') (line : String) :
    c.logged? line = c'.logged? line := by
  rw [logged?, logged?, label, label, h.name_eq]

theorem FindsLike.expected_eq (h : c.FindsLike c') : c.expected = c'.expected := by
  rw [expected, expected, pattern, pattern, h.name_eq]

theorem FindsLike.related_reading (h : c.FindsLike c') (file : TextFile) (required : List Field)
    (hf : f ∈ fields) :
    Reading.Related (Beside c c' file) (c.reading file required f)
      (c'.reading file required f) := by
  obtain ⟨offset, hoffset⟩ := c.exists_offset hf
  have hoffset' : c'.offsets.offset? f = some offset := h.offsets_eq ▸ hoffset
  cases hline : file.lines[offset]? with
  | none =>
    have hsame : c.reading file required f = c'.reading file required f := by
      simp only [reading, hoffset, hoffset', TextFile.reading, hline]
    have hmissing : Reading.OfMissing required (c'.reading file required f) := by
      simp only [reading, hoffset']
      exact TextFile.ofMissing_reading (List.getElem?_eq_none_iff.mp hline) required
    rw [hsame]
    obtain hnone | ⟨e, he, -⟩ := hmissing
    · rw [hnone]
      exact .ok fun r s hrs => hrs
    · rw [he]
      exact .error e
  | some line =>
    have hlogged := h.logged?_eq line
    cases hn : c.logged? line with
    | none =>
      have hcount : c.count? f line = none := by rw [count?, hn, Option.map_none]
      have hcount' : c'.count? f line = none := by rw [count?, ← hlogged, hn, Option.map_none]
      rw [reading_of_count?_eq_none hoffset hline hcount,
        reading_of_count?_eq_none hoffset' hline hcount', h.expected_eq]
      exact .error _
    | some n =>
      obtain ⟨m, hnumber, rfl⟩ := logged?_eq_some_iff.mp hn
      have hcount : c.count? f line = some (Int64.ofInt m + c.adjustment f) := by
        rw [count?, hn, Option.map_some]
      have hcount' : c'.count? f line = some (Int64.ofInt m + c'.adjustment f) := by
        rw [count?, ← hlogged, hn, Option.map_some]
      rw [reading_of_count? hoffset hline hcount, reading_of_count? hoffset' hline hcount']
      exact .ok fun r s hrs => hrs.set ⟨offset, line, hoffset, hline, hnumber⟩

/-- A log read with both counters into new records. -/
theorem FindsLike.extract_beside (h : c.FindsLike c') (file : TextFile) (required : List Field)
    (trial : TrialId) :
    (c.extract file required (.empty trial)).error? =
        (c'.extract file required (.empty trial)).error? ∧
      Beside c c' file (c.extract file required (.empty trial)).record
        (c'.extract file required (.empty trial)).record :=
  Extraction.fill_related (fun _ hf => h.related_reading file required hf)
    (beside_empty c c' file trial)

end PageCounter

namespace LogSettings

open PageCounter

variable {l l' : LogSettings} {file : TextFile} {required : List Field} {r : Record}

/-- Settings that agree on the counter of the trial's own kind. -/
theorem extract_of_pageCounter_eq
    (h : l'.pageCounter r.trial.config.kind = l.pageCounter r.trial.config.kind) :
    l'.extract file required r = l.extract file required r := by
  rw [extract, extract, h]

/-- The probabilistic counter without and with the adjustment of the last phase, on one log. -/
theorem extract_beside_of_probabilistic (l : LogSettings) (file : TextFile) (required : List Field)
    {trial : TrialId} (hkind : trial.config.kind = .probabilistic) :
    let raw := { l with adjustProbabilisticRS := false }
    let lowered := { l with adjustProbabilisticRS := true }
    (raw.extract file required (.empty trial)).error? =
        (lowered.extract file required (.empty trial)).error? ∧
      Beside (raw.pageCounter .probabilistic) (lowered.pageCounter .probabilistic) file
        (raw.extract file required (.empty trial)).record
        (lowered.extract file required (.empty trial)).record := by
  intro raw lowered
  have hfinds : FindsLike (raw.pageCounter .probabilistic) (lowered.pageCounter .probabilistic) :=
    ⟨rfl, rfl⟩
  have hown (l' : LogSettings) : l'.extract file required (.empty trial) =
      (l'.pageCounter .probabilistic).extract file required (.empty trial) := by
    rw [extract, ← hkind]
    rfl
  rw [hown raw, hown lowered]
  exact hfinds.extract_beside file required trial

/-- With the adjustment of the last phase and without it, a log of a threshold trial gives the same.
For a probabilistic trial both fail alike or not at all, and the records differ in the last two
fields only: each of them has a value in both or in neither, and the value is one less with the
adjustment. The first count is one less than its number with either setting. Settings for one kind
of trial have no effect on the other kind. -/
theorem extract_adjusted (l : LogSettings) (file : TextFile) (required : List Field) :
    (∀ trial : TrialId,
      let c := l.pageCounter trial.config.kind
      let raw := { l with adjustProbabilisticRS := false }.extract file required (.empty trial)
      let lowered := { l with adjustProbabilisticRS := true }.extract file required (.empty trial)
      (trial.config.kind = .threshold → lowered = raw) ∧
      (trial.config.kind = .probabilistic →
        lowered.error? = raw.error? ∧ lowered.record.trial = raw.record.trial ∧
        (∀ f, f ≠ .pgreqR3 → f ≠ .pgreqS3 → lowered.record.get f = raw.record.get f) ∧
        (∀ v, raw.record.get .pgreq1 = some v →
          ∃ (m : Nat) (n : Int64), c.Logs file .pgreq1 m ∧ v = .count n ∧ n.toInt = m - 1) ∧
        ∀ f, f = .pgreqR3 ∨ f = .pgreqS3 →
          raw.record.get f = none ∧ lowered.record.get f = none ∨
          ∃ (m : Nat) (n n' : Int64), c.Logs file f m ∧
            raw.record.get f = some (.count n) ∧ n.toInt = m ∧
            lowered.record.get f = some (.count n') ∧ n'.toInt = m - 1)) ∧
    ∀ (l' : LogSettings) (r : Record),
      (r.trial.config.kind = .threshold → l'.thresholdCounter = l.thresholdCounter →
        l'.threshold = l.threshold → l'.extract file required r = l.extract file required r) ∧
      (r.trial.config.kind = .probabilistic → l'.probabilisticCounter = l.probabilisticCounter →
        l'.probabilistic = l.probabilistic →
        l'.adjustProbabilisticRS = l.adjustProbabilisticRS →
        l'.extract file required r = l.extract file required r) := by
  refine ⟨fun trial => ⟨fun hkind => ?_, fun hkind => ?_⟩, fun l' r => ⟨?_, ?_⟩⟩
  · have hsame : pageCounter { l with adjustProbabilisticRS := true } trial.config.kind =
        pageCounter { l with adjustProbabilisticRS := false } trial.config.kind := by
      rw [hkind]
      rfl
    exact extract_of_pageCounter_eq hsame
  · obtain ⟨herror, hbeside⟩ := extract_beside_of_probabilistic l file required hkind
    set raw : LogSettings := { l with adjustProbabilisticRS := false }
    set lowered : LogSettings := { l with adjustProbabilisticRS := true }
    -- what a log says is a matter of names and lines, which the settings have in common
    have hown {f : Field} {m : Nat} (hlogs : (raw.pageCounter .probabilistic).Logs file f m) :
        (l.pageCounter trial.config.kind).Logs file f m := by
      rw [hkind]
      exact hlogs
    refine ⟨herror.symm, hbeside.trial_eq.symm, fun f hR hS => ?_, fun v hv => ?_, fun f hf => ?_⟩
    · apply hbeside.get_eq
      cases f <;> first | rfl | contradiction
    · obtain ⟨hnone, -⟩ | ⟨m, hlogs, hraw, -⟩ := hbeside.get .pgreq1
      · cases hnone.symm.trans hv
      · refine ⟨m, _, hown hlogs, Option.some.inj (hv.symm.trans hraw), ?_⟩
        exact toInt_add_adjustment raw .probabilistic .pgreq1 hlogs.le_maxValue
    · obtain hnone | ⟨m, hlogs, hraw, hlowered⟩ := hbeside.get f
      · exact .inl hnone
      · refine .inr ⟨m, _, _, hown hlogs, hraw, ?_, hlowered, ?_⟩
        · have hzero : (raw.pageCounter .probabilistic).adjustment f = 0 := by
            obtain rfl | rfl := hf <;> rfl
          rw [toInt_add_adjustment raw .probabilistic f hlogs.le_maxValue, hzero]
          exact Int.add_zero _
        · have hone : (lowered.pageCounter .probabilistic).adjustment f = -1 := by
            obtain rfl | rfl := hf <;> rfl
          rw [toInt_add_adjustment lowered .probabilistic f hlogs.le_maxValue, hone]
          rfl
  · intro hkind hname hlines
    apply extract_of_pageCounter_eq
    rw [hkind, pageCounter, pageCounter, hname, hlines]
  · intro hkind hname hlines hadjust
    apply extract_of_pageCounter_eq
    rw [hkind, pageCounter, pageCounter, hname, hlines, hadjust]

/-- A count of zero becomes negative, and the count without a line stays away. The first count is
lowered with both settings. For a threshold trial the second line is malformed, also if both kinds
of trials use one counter name; and no settings for threshold trials make it malformed for a
probabilistic one. -/
theorem extract_adjusted_of_short_log :
    let l : LogSettings := { threshold := ⟨0, 1, 2⟩, probabilistic := ⟨0, 1, 2⟩ }
    let file : TextFile := ⟨"log", ["used = 81, rs_nblocks = 4", "used = 0"]⟩
    let read (l' : LogSettings) (kind : TrialKind) := l'.extract file [] (.empty ⟨⟨kind, 50⟩, 0⟩)
    let lowered : LogSettings := { l with adjustProbabilisticRS := true }
    (read l .probabilistic).record.get .pgreqR3 = some (.count 0) ∧
      (read lowered .probabilistic).record.get .pgreqR3 = some (.count (-1)) ∧
      (read l .probabilistic).record.get .pgreqS3 = none ∧
      (read lowered .probabilistic).record.get .pgreqS3 = none ∧
      (read l .probabilistic).record.get .pgreq1 = some (.count 80) ∧
      (read lowered .probabilistic).record.get .pgreq1 = some (.count 80) ∧
      (l.pageCounter .probabilistic).Logs file .pgreq1 81 ∧
      (read lowered .probabilistic).error? = none ∧
      read lowered .threshold = read l .threshold ∧
      (read l .threshold).error? =
        some (.malformed "log" 1 (l.pageCounter .threshold).expected "used = 0") ∧
      read { l with probabilisticCounter := "rs_nblocks", probabilistic := ⟨1, 1, 1⟩ } .threshold =
        read l .threshold ∧
      read { l with thresholdCounter := "used", threshold := ⟨3, 2, 0⟩ } .probabilistic =
        read l .probabilistic := by
  intro l file read lowered
  have hsuccess : (read l .probabilistic).error? = none := by decide +kernel
  have hfirst : (read l .probabilistic).record.get .pgreq1 = some (.count 80) := by decide +kernel
  have hzero : (read l .probabilistic).record.get .pgreqR3 = some (.count 0) := by decide +kernel
  have hnone : (read l .probabilistic).record.get .pgreqS3 = none := by decide +kernel
  have hmalformed : (read l .threshold).error? =
      some (.malformed "log" 1 (l.pageCounter .threshold).expected "used = 0") := by decide +kernel
  obtain ⟨hadjust, hother⟩ := extract_adjusted l file []
  obtain ⟨herror, -, hsame, hone, hlast⟩ := (hadjust ⟨⟨.probabilistic, 50⟩, 0⟩).2 rfl
  have hthreshold := (hadjust ⟨⟨.threshold, 50⟩, 0⟩).1 rfl
  refine ⟨hzero, ?_, hnone, ?_, hfirst, ?_, ?_, herror.trans hsuccess, hthreshold, hmalformed,
    ?_, ?_⟩
  · obtain ⟨habsent, -⟩ | ⟨m, n, n', -, hn, hm, hn', hm'⟩ := hlast .pgreqR3 (.inl rfl)
    · cases habsent.symm.trans hzero
    · cases hn.symm.trans hzero
      have hminus : n'.toInt = (-1 : Int64).toInt := by
        rw [hm', ← hm]
        decide
      rw [← Int64.toInt_inj.mp hminus]
      exact hn'
  · obtain ⟨-, habsent⟩ | ⟨m, n, n', -, hn, -⟩ := hlast .pgreqS3 (.inr rfl)
    · exact habsent
    · cases hn.symm.trans hnone
  · exact (hsame .pgreq1 (by decide) (by decide)).trans hfirst
  · obtain ⟨m, n, hlogs, hn, hm⟩ := hone _ hfirst
    cases hn
    have hnumber : (80 : Int) = m - 1 := hm
    obtain rfl : m = 81 := by omega
    exact hlogs
  · exact (hother _ (.empty ⟨⟨.threshold, 50⟩, 0⟩)).1 rfl rfl rfl
  · exact (hother _ (.empty ⟨⟨.probabilistic, 50⟩, 0⟩)).2 rfl rfl rfl rfl

end LogSettings

end TrialSummary
