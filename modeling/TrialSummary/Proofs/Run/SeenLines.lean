import TrialSummary.Proofs.Run.SummaryReport

/-!
# The lines that a run looks at

Of the files of a trial a run sees how many lines they have, and of these lines the six of the
phases in the results file and, in the log, the three of the trial's own kind. Two views of the
files that agree on this for each trial of a walk cannot be told apart by a report over it: the same
rows are written and the same failure ends it, with the same text in its message. All other lines,
and all files that do not belong to the walk, may differ.
-/

namespace TrialSummary

def PhaseLines.offsets (l : PhaseLines) : List Nat :=
  [l.row1, l.time1, l.row2, l.time2, l.count3, l.time3]

def ScanLines.offsets (o : ScanLines) : List Nat := [o.pgreq1, o.pgreqR3, o.pgreqS3]

/-- The lines of a log that are meant for a kind of trial. -/
def LogSettings.scanLines (l : LogSettings) : TrialKind → ScanLines
  | .threshold => l.threshold
  | .probabilistic => l.probabilistic

/-- Two versions of a file that have as many lines and at each of the offsets the same line, if they
have one there. -/
structure TextFile.AgreeAt (offsets : List Nat) (file file' : TextFile) : Prop where
  path_eq : file.path = file'.path
  length_eq : file.lines.length = file'.lines.length
  line_eq : ∀ offset ∈ offsets, file.lines[offset]? = file'.lines[offset]?

/-- Both views can read the file at a path, and what they read agrees. -/
def Files.AgreeAt (offsets : List Nat) (files files' : Files) (path : String) : Prop :=
  ∃ file file', files.readLines path = .ok file ∧ files'.readLines path = .ok file' ∧
    file.AgreeAt offsets file'

/-- Two views that agree on all that is looked at in the files of a trial. -/
def Files.AgreeOn (s : Settings) (files files' : Files) (trial : TrialId) : Prop :=
  files.AgreeAt s.primary.offsets files' ((TrialFiles.ofSettings s.input).resultsFile trial) ∧
    files.AgreeAt (s.log.scanLines trial.config.kind).offsets files'
      ((TrialFiles.ofSettings s.input).logFile trial)

section Extraction

variable {file file' : TextFile} {offsets : List Nat} {offset : Nat}

/-- The reading of such a line is the same in both versions, and so is its failure. -/
theorem TextFile.AgreeAt.reading_eq (h : file.AgreeAt offsets file') (hoffset : offset ∈ offsets)
    (required fields : List Field) (parse : String → Option (List (Field × Value)))
    (expected : String) :
    file.reading required fields offset parse expected =
      file'.reading required fields offset parse expected := by
  simp only [reading, h.line_eq offset hoffset, h.path_eq, h.length_eq]

theorem PhaseLines.offset_mem {l : PhaseLines} {p : Placement} (h : p ∈ Schema.placementsOf l) :
    p.offset ∈ l.offsets := by
  have hmap : (Schema.placementsOf l).map Placement.offset = l.offsets := rfl
  rw [← hmap]
  exact List.mem_map_of_mem h

theorem ScanLines.offset_mem {o : ScanLines} {f : Field} (h : o.offset? f = some offset) :
    offset ∈ o.offsets := by
  unfold offset? at h
  split at h <;> simp_all [offsets]

theorem Schema.extract_congr {l : PhaseLines} (h : file.AgreeAt l.offsets file')
    (required : List Field) (r : Record) :
    (Schema.ofPhaseLines l).extract file required r =
      (Schema.ofPhaseLines l).extract file' required r := by
  rw [extract, extract]
  congr 1
  apply List.map_congr_left
  intro p hp
  exact h.reading_eq (PhaseLines.offset_mem (mem_placements_ofPhaseLines.mp hp)) _ _ _ _

theorem LogSettings.offsets_pageCounter (l : LogSettings) (kind : TrialKind) :
    (l.pageCounter kind).offsets = l.scanLines kind := by
  cases kind <;> rfl

/-- Only the lines of the trial's own kind matter. -/
theorem LogSettings.extract_congr {l : LogSettings} {r : Record}
    (h : file.AgreeAt (l.scanLines r.trial.config.kind).offsets file') (required : List Field) :
    l.extract file required r = l.extract file' required r := by
  rw [extract, extract, PageCounter.extract, PageCounter.extract]
  congr 1
  apply List.map_congr_left
  intro f _
  rw [PageCounter.reading, PageCounter.reading, offsets_pageCounter]
  cases hoffset : (l.scanLines r.trial.config.kind).offset? f with
  | none => rfl
  | some offset => exact h.reading_eq (ScanLines.offset_mem hoffset) _ _ _ _

end Extraction

namespace Loader

variable {s : Settings} {files files' : Files} {q : Query} {trial : TrialId} {sweep : Sweep}

theorem loadPrimary_congr
    (h : files.AgreeAt s.primary.offsets files'
      ((TrialFiles.ofSettings s.input).resultsFile trial)) :
    (ofSettings s).loadPrimary files q trial = (ofSettings s).loadPrimary files' q trial := by
  obtain ⟨file, file', hfile, hfile', hagree⟩ := h
  have hread := readLines_eq_ok_iff.mpr hfile
  have hread' := readLines_eq_ok_iff.mpr hfile'
  have hextract := Schema.extract_congr hagree q.required (.empty trial)
  simp only [loadPrimary, ofSettings, hread, hread', bind, Except.bind, hextract]

theorem loadLog_congr {r : Record}
    (h : files.AgreeAt (s.log.scanLines r.trial.config.kind).offsets files'
      ((TrialFiles.ofSettings s.input).logFile r.trial)) :
    (ofSettings s).loadLog files q r = (ofSettings s).loadLog files' q r := by
  obtain ⟨file, file', hfile, hfile', hagree⟩ := h
  have hread := readLines_eq_ok_iff.mpr hfile
  have hread' := readLines_eq_ok_iff.mpr hfile'
  have hextract := LogSettings.extract_congr hagree q.required
  simp only [loadLog, ofSettings, hread, hread', bind, Except.bind, hextract]

theorem load_congr (h : files.AgreeOn s files' trial) :
    (ofSettings s).load files q trial = (ofSettings s).load files' q trial := by
  obtain ⟨hresults, hlog⟩ := h
  rw [load, load, ← loadPrimary_congr hresults]
  cases hfilled : (ofSettings s).loadPrimary files q trial with
  | error e => rfl
  | ok filled =>
    rw [← trial_of_loadPrimary hfilled] at hlog
    exact loadLog_congr hlog

theorem writeTrials_congr {l : Loader} {trials : List TrialId}
    (h : ∀ trial ∈ trials, l.load files q trial = l.load files' q trial) (draft : ReportDraft) :
    l.writeTrials files q trials draft = l.writeTrials files' q trials draft := by
  induction trials generalizing draft with
  | nil => rfl
  | cons trial trials ih =>
    have hrest : ∀ trial ∈ trials, l.load files q trial = l.load files' q trial :=
      fun t ht => h t (List.mem_cons_of_mem _ ht)
    rw [writeTrials, writeTrials, h trial List.mem_cons_self]
    simp only [ih hrest]

theorem summaryReport_congr {l : Loader}
    (h : ∀ trial ∈ sweep.walk, l.load files q trial = l.load files' q trial) :
    l.summaryReport files q sweep = l.summaryReport files' q sweep := by
  rw [summaryReport, summaryReport, summaryRows, summaryRows, loadAll_eq, loadAll_eq, mapM_congr h]

/-- Views that agree on what a run looks at give the same reports, text and rows and failure. -/
theorem reports_eq_of_agreeOn (s : Settings) (files files' : Files) (q : Query) (sweep : Sweep)
    (h : ∀ trial ∈ sweep.walk, files.AgreeOn s files' trial) :
    (ofSettings s).trialReport files q sweep = (ofSettings s).trialReport files' q sweep ∧
      (ofSettings s).summaryReport files q sweep =
        (ofSettings s).summaryReport files' q sweep := by
  have hload : ∀ trial ∈ sweep.walk,
      (ofSettings s).load files q trial = (ofSettings s).load files' q trial := by
    intro trial htrial
    exact load_congr (h trial htrial)
  exact ⟨writeTrials_congr hload _, summaryReport_congr hload⟩

/-- A line behind the measurements and the log line of the other kind of trial may differ. -/
theorem reports_eq_of_other_kind :
    let s : Settings :=
      { primary := ⟨0, 1, 2, 3, 4, 5⟩
        log := { threshold := ⟨0, 2, 3⟩, probabilistic := ⟨1, 1, 1⟩ } }
    let view (noise : String) : Files := .ofRead fun path => .ok (String.toUTF8
      (if path = "results/t-5-0" then
        "1.5|37\nTime: 0.25 ms\n2.0|1\nTime: 1.0 ms\n12\nTime: 3.0 ms\n" ++ noise
      else "rs_nblocks = 9\n" ++ noise ++ "\nrs_nblocks = 8\nrs_nblocks = 7\n"))
    let sweep : Sweep := ⟨[.threshold], [5], [0]⟩
    (∀ trial ∈ sweep.walk, (view "used = 81").AgreeOn s (view "rs_nblocks = ?") trial) ∧
      (ofSettings s).trialReport (view "used = 81") .one sweep =
        (ofSettings s).trialReport (view "rs_nblocks = ?") .one sweep ∧
      (ofSettings s).summaryReport (view "used = 81") .one sweep =
        (ofSettings s).summaryReport (view "rs_nblocks = ?") .one sweep := by
  intro s view sweep
  have hresults (noise : String) (h : noise = "used = 81" ∨ noise = "rs_nblocks = ?") :
      (view noise).readLines "results/t-5-0" = .ok ⟨"results/t-5-0",
        ["1.5|37", "Time: 0.25 ms", "2.0|1", "Time: 1.0 ms", "12", "Time: 3.0 ms", noise]⟩ := by
    rcases h with rfl | rfl <;> decide +kernel
  have hlog (noise : String) (h : noise = "used = 81" ∨ noise = "rs_nblocks = ?") :
      (view noise).readLines "results/t-5-0-log" = .ok ⟨"results/t-5-0-log",
        ["rs_nblocks = 9", noise, "rs_nblocks = 8", "rs_nblocks = 7"]⟩ := by
    rcases h with rfl | rfl <;> decide +kernel
  have hagree : ∀ trial ∈ sweep.walk,
      (view "used = 81").AgreeOn s (view "rs_nblocks = ?") trial := by
    intro trial htrial
    obtain rfl : trial = ⟨⟨.threshold, 5⟩, 0⟩ := List.mem_singleton.mp htrial
    have hresultsFile : (TrialFiles.ofSettings s.input).resultsFile ⟨⟨.threshold, 5⟩, 0⟩ =
        "results/t-5-0" := by decide
    have hlogFile : (TrialFiles.ofSettings s.input).logFile ⟨⟨.threshold, 5⟩, 0⟩ =
        "results/t-5-0-log" := by decide
    rw [Files.AgreeOn, hresultsFile, hlogFile]
    exact ⟨⟨_, _, hresults _ (.inl rfl), hresults _ (.inr rfl), rfl, rfl, by decide⟩,
      ⟨_, _, hlog _ (.inl rfl), hlog _ (.inr rfl), rfl, rfl, by decide⟩⟩
  exact ⟨hagree, reports_eq_of_agreeOn s _ _ .one sweep hagree⟩

end Loader

end TrialSummary
