import TrialSummary.Proofs.Extraction.PageRequests
import TrialSummary.Proofs.Extraction.Results
import TrialSummary.Proofs.Text.Lines
import TrialSummary.Proofs.Traversal
import TrialSummary.Run.Reports

/-!
# Loading a trial

A trial is loaded in two steps, and each comes down to a filling from the readings of one file. What
a record has after both is therefore known from the readings alone: its trial never changes, every
required field has a value, and if the files hold measurements, the record is exactly those.
-/

namespace TrialSummary

namespace Files

theorem readLines_of_read {files : Files} {path s : String} (h : files.read path = .ok s.toUTF8) :
    files.readLines path = .ok ⟨path, (Text.lines s.toList).map String.ofList⟩ := by
  have hdecode : String.fromUTF8? s.toUTF8 = some s := dif_pos s.isValidUTF8
  simp only [readLines, readText, h, hdecode, Except.map]

/-- A text file is read as the lines that were written. -/
theorem readLines_eq {files : Files} {path : String} {t : Text.WrittenText}
    (h : files.read path = .ok t.bytes) :
    files.readLines path = .ok ⟨path, t.lines.map String.ofList⟩ := by
  rw [readLines_of_read h, String.toList_ofList, t.lines_chars]

end Files

namespace Loader

theorem checked_eq_ok_iff {x : Extraction} {r : Record} :
    checked x = .ok r ↔ x.toExcept = .ok r := by
  rw [checked]
  cases x.toExcept <;> simp

theorem checked_eq_error_iff {x : Extraction} {e : RunError} :
    checked x = .error e ↔ ∃ fault, x.toExcept = .error fault ∧ .format fault = e := by
  rw [checked]
  cases x.toExcept <;> simp

theorem readLines_eq_ok_iff {files : Files} {path : String} {file : TextFile} :
    readLines files path = .ok file ↔ files.readLines path = .ok file := by
  rw [readLines]
  cases files.readLines path <;> simp

theorem readLines_eq_error_iff {files : Files} {path : String} {e : RunError} :
    readLines files path = .error e ↔
      ∃ fault, files.readLines path = .error fault ∧ .unreadable path fault = e := by
  rw [readLines]
  cases files.readLines path <;> simp

/-- Settings whose lines increase need no sorting. -/
theorem ofSettings_of_pairwise {s : Settings}
    (h : (Schema.placementsOf s.primary).Pairwise fun a b => a.atOrBefore b = true) :
    ofSettings s = ⟨TrialFiles.ofSettings s.input, ⟨Schema.placementsOf s.primary, h⟩, s.log⟩ := by
  rw [ofSettings, Schema.ofPhaseLines_of_pairwise h]

variable {l : Loader} {files : Files} {q : Query} {trial : TrialId} {r : Record}

theorem trial_of_loadPrimary (h : l.loadPrimary files q trial = .ok r) : r.trial = trial := by
  obtain ⟨results, -, hchecked⟩ := bind_eq_ok_iff.mp h
  exact Extraction.trial_of_toExcept_fill (checked_eq_ok_iff.mp hchecked)

/-- A trial is loaded exactly if both files are read and both fillings succeed. -/
theorem load_eq_ok_iff :
    l.load files q trial = .ok r ↔
      ∃ results filled log, files.readLines (l.dir.resultsFile trial) = .ok results ∧
        (l.schema.extract results q.required (.empty trial)).toExcept = .ok filled ∧
        files.readLines (l.dir.logFile trial) = .ok log ∧
        (l.log.extract log q.required filled).toExcept = .ok r := by
  simp only [load, loadPrimary, loadLog, bind_eq_ok_iff, checked_eq_ok_iff, readLines_eq_ok_iff]
  constructor
  · rintro ⟨filled, ⟨results, hresults, hfilled⟩, log, hlog, hr⟩
    have htrial : filled.trial = trial := Extraction.trial_of_toExcept_fill hfilled
    rw [htrial] at hlog
    exact ⟨results, filled, log, hresults, hfilled, hlog, hr⟩
  · rintro ⟨results, filled, log, hresults, hfilled, hlog, hr⟩
    have htrial : filled.trial = trial := Extraction.trial_of_toExcept_fill hfilled
    rw [← htrial] at hlog
    exact ⟨filled, ⟨results, hresults, hfilled⟩, log, hlog, hr⟩

/-- What can go wrong when a trial is loaded, in the order in which it is looked at. -/
theorem load_eq_error_iff {e : RunError} :
    l.load files q trial = .error e ↔
      (∃ fault, files.readLines (l.dir.resultsFile trial) = .error fault ∧
        e = .unreadable (l.dir.resultsFile trial) fault) ∨
      ∃ results, files.readLines (l.dir.resultsFile trial) = .ok results ∧
        ((∃ fault, (l.schema.extract results q.required (.empty trial)).toExcept = .error fault ∧
          e = .format fault) ∨
        ∃ filled, (l.schema.extract results q.required (.empty trial)).toExcept = .ok filled ∧
          ((∃ fault, files.readLines (l.dir.logFile trial) = .error fault ∧
            e = .unreadable (l.dir.logFile trial) fault) ∨
          ∃ log fault, files.readLines (l.dir.logFile trial) = .ok log ∧
            (l.log.extract log q.required filled).toExcept = .error fault ∧
            e = .format fault)) := by
  simp only [load, loadPrimary, loadLog, bind_eq_error_iff, bind_eq_ok_iff, checked_eq_error_iff,
    checked_eq_ok_iff, readLines_eq_error_iff, readLines_eq_ok_iff]
  constructor
  · rintro ((⟨fault, hfault, rfl⟩ | ⟨results, hresults, fault, hfault, rfl⟩) |
      ⟨filled, ⟨results, hresults, hfilled⟩, hlog⟩)
    · exact .inl ⟨fault, hfault, rfl⟩
    · exact .inr ⟨results, hresults, .inl ⟨fault, hfault, rfl⟩⟩
    · have htrial : filled.trial = trial := Extraction.trial_of_toExcept_fill hfilled
      rw [htrial] at hlog
      refine .inr ⟨results, hresults, .inr ⟨filled, hfilled, ?_⟩⟩
      obtain ⟨fault, hfault, rfl⟩ | ⟨log, hread, fault, hfault, rfl⟩ := hlog
      · exact .inl ⟨fault, hfault, rfl⟩
      · exact .inr ⟨log, fault, hread, hfault, rfl⟩
  · rintro (⟨fault, hfault, rfl⟩ | ⟨results, hresults, ⟨fault, hfault, rfl⟩ |
      ⟨filled, hfilled, hlog⟩⟩)
    · exact .inl (.inl ⟨fault, hfault, rfl⟩)
    · exact .inl (.inr ⟨results, hresults, fault, hfault, rfl⟩)
    · have htrial : filled.trial = trial := Extraction.trial_of_toExcept_fill hfilled
      refine .inr ⟨filled, ⟨results, hresults, hfilled⟩, ?_⟩
      rw [htrial]
      obtain ⟨fault, hfault, rfl⟩ | ⟨log, fault, hread, hfault, rfl⟩ := hlog
      · exact .inl ⟨fault, hfault, rfl⟩
      · exact .inr ⟨log, hread, fault, hfault, rfl⟩

theorem error_of_load {e : RunError} (h : l.load files q trial = .error e) :
    (∃ path fault, e = .unreadable path fault) ∨ ∃ fault, e = .format fault := by
  obtain ⟨fault, -, rfl⟩ | ⟨_, -, ⟨fault, -, rfl⟩ | ⟨_, -, ⟨fault, -, rfl⟩ |
    ⟨_, fault, -, -, rfl⟩⟩⟩ := load_eq_error_iff.mp h
  · exact .inl ⟨_, fault, rfl⟩
  · exact .inr ⟨fault, rfl⟩
  · exact .inl ⟨_, fault, rfl⟩
  · exact .inr ⟨fault, rfl⟩

theorem trial_of_load (h : l.load files q trial = .ok r) : r.trial = trial := by
  obtain ⟨results, filled, log, -, hfilled, -, hr⟩ := load_eq_ok_iff.mp h
  have hfirst : filled.trial = trial := Extraction.trial_of_toExcept_fill hfilled
  exact (Extraction.trial_of_toExcept_fill hr).trans hfirst

theorem isSome_get_of_load {s : Settings} (h : (ofSettings s).load files q trial = .ok r)
    {f : Field} (hf : f ∈ q.required) : (r.get f).isSome := by
  obtain ⟨results, filled, log, -, hfilled, -, hr⟩ := load_eq_ok_iff.mp h
  refine Extraction.isSome_get_of_toExcept_fill hr ?_
  rcases Schema.exists_placement_or_mem_fields s.primary f with ⟨p, hp, hfield⟩ | hfield
  · refine .inr (Extraction.isSome_get_of_toExcept_fill hfilled (.inl ?_))
    refine ⟨p.reading results q.required, ?_, ?_⟩
    · exact List.mem_map_of_mem (Schema.mem_placements_ofPhaseLines.mpr hp)
    · exact fun values hvalues => Placement.mem_values_of_reading hvalues hfield hf
  · refine .inl ⟨_, List.mem_map_of_mem hfield, ?_⟩
    exact fun values hvalues => PageCounter.mem_values_of_reading hfield hf hvalues

section Holds

variable {m : Measurements} {t : Text.WrittenText}

theorem extract_of_holds {path : String} {required : List Field} {lines : PhaseLines}
    (hfinite : ∀ f, (m.value f).IsFinite)
    (hplaced : ∀ p ∈ Schema.placementsOf lines,
      ∃ cs, t.lines[p.offset]? = some cs ∧ p.form.Holds m cs) (r : Record) :
    ((Schema.ofPhaseLines lines).extract ⟨path, t.lines.map String.ofList⟩ required r).toExcept =
      .ok (r.setAll (((Schema.ofPhaseLines lines).placements.flatMap fun p => p.form.fields).map
        fun f => (f, m.value f))) := by
  refine Extraction.toExcept_fill_values r m _ _ _ fun p hp => ?_
  have hmem := Schema.mem_placements_ofPhaseLines.mp hp
  obtain ⟨cs, hcs, hholds⟩ := hplaced p hmem
  refine Placement.reading_of_holds (Schema.wellTyped_of_mem hmem) hfinite ?_
    (t.feed_notMem_of_mem_lines (List.mem_of_getElem? hcs)) hholds
  simp only [List.getElem?_map, hcs, Option.map_some]

/-- A log that holds measurements fills the three counted fields with them. -/
theorem log_extract_of_holds {path : String} {required : List Field} {log : LogSettings}
    {r : Record} (htrial : r.trial = trial)
    (hcounted : ∀ f ∈ PageCounter.fields, ∃ offset cs,
      (log.pageCounter trial.config.kind).offsets.offset? f = some offset ∧
        t.lines[offset]? = some cs ∧ (log.pageCounter trial.config.kind).Holds m cs f) :
    (log.extract ⟨path, t.lines.map String.ofList⟩ required r).toExcept =
      .ok (r.setAll ((PageCounter.fields.flatMap fun f => [f]).map fun f => (f, m.value f))) := by
  rw [LogSettings.extract, htrial]
  refine Extraction.toExcept_fill_values r m _ _ (fun f => [f]) fun f hf => ?_
  obtain ⟨offset, cs, hoffset, hcs, hholds⟩ := hcounted f hf
  refine PageCounter.reading_of_holds hoffset ?_ hholds
  simp only [List.getElem?_map, hcs, Option.map_some]

/-- Writing measurements to the two files of a trial and loading the trial gives exactly these
measurements, for either query. The files may use both kinds of line ends, any blanks around the
numbers and any text on the other lines. Lines that several fields share and a log that is the same
file as the results need no condition of their own: they only leave less that can be written. -/
theorem load_of_holds (s : Settings) (files : Files) (q : Query) (trial : TrialId)
    (m : Measurements) (results log : Text.WrittenText)
    (hfinite : ∀ f, (m.value f).IsFinite)
    (hresults : files.read ((TrialFiles.ofSettings s.input).resultsFile trial) = .ok results.bytes)
    (hlog : files.read ((TrialFiles.ofSettings s.input).logFile trial) = .ok log.bytes)
    (hplaced : ∀ p ∈ Schema.placementsOf s.primary,
      ∃ cs, results.lines[p.offset]? = some cs ∧ p.form.Holds m cs)
    (hcounted : ∀ f ∈ PageCounter.fields, ∃ offset cs,
      (s.log.pageCounter trial.config.kind).offsets.offset? f = some offset ∧
        log.lines[offset]? = some cs ∧ (s.log.pageCounter trial.config.kind).Holds m cs f) :
    (ofSettings s).load files q trial = .ok (m.record trial) := by
  refine load_eq_ok_iff.mpr ⟨_, _, _, Files.readLines_eq hresults,
    extract_of_holds hfinite hplaced _, Files.readLines_eq hlog, ?_⟩
  refine (log_extract_of_holds (Record.trial_setAll _ _) hcounted).trans (congrArg Except.ok ?_)
  rw [← Record.setAll_append, ← List.map_append]
  refine Record.setAll_values_eq_record m trial fun f => List.mem_append.mpr ?_
  refine (Schema.exists_placement_or_mem_fields s.primary f).imp ?_ ?_
  · rintro ⟨p, hp, hf⟩
    exact List.mem_flatMap.mpr ⟨p, Schema.mem_placements_ofPhaseLines.mpr hp, hf⟩
  · exact fun hf => List.mem_flatMap.mpr ⟨f, hf, List.mem_singleton_self f⟩

end Holds

end Loader

namespace Sample

/-- Settings with the lines of the phases close together and out of order. -/
def settings : Settings where
  primary := ⟨1, 0, 2, 3, 5, 4⟩
  log := { probabilistic := ⟨2, 0, 1⟩ }

def trial : TrialId := ⟨⟨.probabilistic, 50⟩, 3⟩

/-- 1.5, 0.25, a negative zero, a number that is written with an exponent, and 3. -/
def measurements : Measurements
  | .avg1 => Binary64.finite false ⟨0x3ff8000000000000, by decide⟩
  | .time1 => Binary64.finite false ⟨0x3fd0000000000000, by decide⟩
  | .avg2 => Binary64.zero true
  | .time2 => Binary64.finite false ⟨0x4341c37937e08000, by decide⟩
  | .time3 => Binary64.finite false ⟨0x4008000000000000, by decide⟩
  | .count1 => (37 : Int64)
  | .count2 => (-5 : Int64)
  | .count3 => (1200 : Int64)
  | .pgreq1 => (8 : Int64)
  | .pgreqR3 => (16 : Int64)
  | .pgreqS3 => (0 : Int64)

/-- A line with either line end behind it. -/
def line (s : String) (ending : Text.LineEnd) (hfeed : '\n' ∉ s.toList := by decide)
    (hreturn : s.toList.getLast? ≠ some '\r' := by decide) : Text.WrittenLine :=
  ⟨s.toList, ending, hfeed, fun _ => hreturn⟩

/-- A results file with both line ends and no line end at all behind the last line. -/
def results : Text.WrittenText where
  ended :=
    [line "Time: 0.25 ms" .feed, line " 1.5 |    37" .returnFeed, line "-0.0|-5" .feed,
      line "Time: \t1e16  ms" .feed, line "Time: 3.0 ms" .returnFeed]
  rest := "     1200 ".toList
  feed_notMem := by decide

/-- A log in which the counter name occurs without a number before it counts pages. -/
def log : Text.WrittenText where
  ended :=
    [line "R used = 16, used = 7" .feed, line "S used = 0" .feed,
      line "used = ? used = 009 seen = 14" .feed]
  rest := []
  feed_notMem := List.not_mem_nil

def files : Files := .ofRead fun path =>
  if path = (TrialFiles.ofSettings settings.input).resultsFile trial then .ok results.bytes
  else .ok log.bytes

/-- The sample gives back what was written to its files, for both queries. -/
theorem load_eq :
    (Loader.ofSettings settings).load files .one trial = .ok (measurements.record trial) ∧
      (Loader.ofSettings settings).load files .three trial = .ok (measurements.record trial) := by
  have hfinite : ∀ f, (measurements.value f).IsFinite := by
    intro f
    cases f <;> first | exact rfl | exact trivial
  have hresults : files.read ((TrialFiles.ofSettings settings.input).resultsFile trial) =
      .ok results.bytes := by
    simp only [files, Files.ofRead, if_true]
  have hlog : files.read ((TrialFiles.ofSettings settings.input).logFile trial) =
      .ok log.bytes := by
    have hne : (TrialFiles.ofSettings settings.input).logFile trial ≠
        (TrialFiles.ofSettings settings.input).resultsFile trial := by decide
    simp only [files, Files.ofRead, if_neg hne]
  have hplaced : ∀ p ∈ Schema.placementsOf settings.primary, ∃ cs,
      results.lines[p.offset]? = some cs ∧ p.form.Holds measurements cs := by
    simp only [Schema.placementsOf, List.forall_mem_cons]
    refine ⟨⟨_, rfl, " 1.5 ".toList, "    37".toList, ?_, ?_, rfl⟩,
      ⟨_, rfl, "0.25".toList, ?_, rfl⟩, ⟨_, rfl, "-0.0".toList, "-5".toList, ?_, ?_, rfl⟩,
      ⟨_, rfl, "\t1e16 ".toList, ?_, rfl⟩, ⟨_, rfl, ?_⟩, ⟨_, rfl, "3.0".toList, ?_, rfl⟩, by simp⟩
    all_goals exact LineForm.padded_value_iff.mpr (by decide +kernel)
  have hcounted : ∀ f ∈ PageCounter.fields, ∃ offset cs,
      (settings.log.pageCounter trial.config.kind).offsets.offset? f = some offset ∧
        log.lines[offset]? = some cs ∧
        (settings.log.pageCounter trial.config.kind).Holds measurements cs f := by
    simp only [PageCounter.fields, List.forall_mem_cons]
    refine ⟨⟨2, _, rfl, rfl, PageCounter.holds_of_firstDigitsBehind? "009".toList ?_ ?_ rfl ?_⟩,
      ⟨0, _, rfl, rfl, PageCounter.holds_of_firstDigitsBehind? "16".toList ?_ ?_ rfl ?_⟩,
      ⟨1, _, rfl, rfl, PageCounter.holds_of_firstDigitsBehind? "0".toList ?_ ?_ rfl ?_⟩, by simp⟩
    all_goals decide
  exact ⟨Loader.load_of_holds settings files .one trial measurements results log hfinite hresults
      hlog hplaced hcounted,
    Loader.load_of_holds settings files .three trial measurements results log hfinite hresults
      hlog hplaced hcounted⟩

end Sample

end TrialSummary
