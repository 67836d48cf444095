import TrialSummary.Proofs.Extraction.Outcome
import TrialSummary.Proofs.Run.Loading

/-!
# What a failure tells

The failure to load a trial names one of the two files of the trial, and what it says about this
file is so: the file cannot be read; or a line of it that is there, and that the settings give a
form, does not have this form; or it ends in front of the line of a field that the query requires.

The results file comes first. What is read from it, and whether it fails, is the same in every view
that has this file, so a log can only fail behind results that are fine, and behind results that are
not it does not matter what the log holds or whether there is one.
-/

namespace TrialSummary

def PhaseLines.rules (l : PhaseLines) : List LineRule := (Schema.placementsOf l).map Placement.rule

/-- The rules of the lines on which a counter logs. -/
def PageCounter.rules (c : PageCounter) : List LineRule := fields.map c.rule

/-- What a failure says about the file at a path is true: the file of a view, read by the rules of
certain lines of which some fields are required. -/
inductive RunError.TrueOf (files : Files) (path : String) (rules : List LineRule)
    (required : List Field) : RunError → Prop where
  /-- The file cannot be read. -/
  | unreadable {fault : ReadFault} (hread : files.readLines path = .error fault) :
      TrueOf files path rules required (.unreadable path fault)
  /-- A line of the file does not have the form that a rule gives it. -/
  | malformed {file : TextFile} {rule : LineRule} (hread : files.readLines path = .ok file)
      (hrule : rule ∈ rules) (hline : rule.offset < file.lines.length)
      (hparse : rule.parse file.lines[rule.offset] = none) :
      TrueOf files path rules required
        (.format (.malformed path rule.offset rule.expected file.lines[rule.offset]))
  /-- The file ends in front of the line of a required field. -/
  | missingLine {file : TextFile} {rule : LineRule} {f : Field}
      (hread : files.readLines path = .ok file) (hrule : rule ∈ rules) (hfield : f ∈ rule.fields)
      (hrequired : f ∈ required) (hend : file.lines.length ≤ rule.offset) :
      TrueOf files path rules required
        (.format (.missingLine path rule.offset f file.lines.length))

namespace Files

variable {files files' : Files} {path : String}

theorem path_of_readLines {file : TextFile} (h : files.readLines path = .ok file) :
    file.path = path := by
  obtain ⟨_, -, rfl⟩ := map_eq_ok_iff.mp h
  rfl

theorem readLines_eq_of_read (h : files'.read path = files.read path) :
    files'.readLines path = files.readLines path := by
  simp only [readLines, readText, h]

end Files

/-- A faulty rule is reported with what the file has on its line. -/
theorem RunError.trueOf_of_reports {files : Files} {path : String} {rules : List LineRule}
    {required : List Field} {file : TextFile} {rule : LineRule} {fault : FormatError}
    (hread : files.readLines path = .ok file) (hrule : rule ∈ rules)
    (h : rule.Reports file required fault) :
    (RunError.format fault).TrueOf files path rules required := by
  obtain rfl := Files.path_of_readLines hread
  cases h with
  | malformed hline hparse =>
    obtain ⟨hlt, rfl⟩ := List.getElem?_eq_some_iff.mp hline
    exact .malformed hread hrule hlt hparse
  | missing hend hfirst =>
    have hrequired := List.contains_iff_mem.mp (List.find?_some hfirst)
    exact .missingLine hread hrule (List.mem_of_find?_eq_some hfirst) hrequired hend

namespace Loader

variable {l : Loader} {s : Settings} {files files' : Files} {q : Query} {trial : TrialId}
variable {filled : Record} {e : RunError}

theorem trueOf_of_loadPrimary (h : (ofSettings s).loadPrimary files q trial = .error e) :
    e.TrueOf files ((TrialFiles.ofSettings s.input).resultsFile trial) s.primary.rules
      q.required := by
  obtain hread | ⟨file, hfile, hchecked⟩ := bind_eq_error_iff.mp h
  · obtain ⟨fault, hfault, rfl⟩ := readLines_eq_error_iff.mp hread
    exact .unreadable hfault
  · obtain ⟨fault, hfault, rfl⟩ := checked_eq_error_iff.mp hchecked
    rw [Schema.extract_eq_fill_rules] at hfault
    obtain ⟨p, hp, hreports⟩ := Extraction.exists_reports_of_toExcept_fill hfault
    have hrule : p.rule ∈ s.primary.rules :=
      List.mem_map_of_mem (Schema.mem_placements_ofPhaseLines.mp hp)
    exact RunError.trueOf_of_reports (readLines_eq_ok_iff.mp hfile) hrule hreports

theorem trueOf_of_loadLog (h : (ofSettings s).loadLog files q filled = .error e) :
    e.TrueOf files ((TrialFiles.ofSettings s.input).logFile filled.trial)
      (s.log.pageCounter filled.trial.config.kind).rules q.required := by
  obtain hread | ⟨file, hfile, hchecked⟩ := bind_eq_error_iff.mp h
  · obtain ⟨fault, hfault, rfl⟩ := readLines_eq_error_iff.mp hread
    exact .unreadable hfault
  · obtain ⟨fault, hfault, rfl⟩ := checked_eq_error_iff.mp hchecked
    rw [LogSettings.extract, PageCounter.extract_eq_fill_rules] at hfault
    obtain ⟨f, hf, hreports⟩ := Extraction.exists_reports_of_toExcept_fill hfault
    exact RunError.trueOf_of_reports (readLines_eq_ok_iff.mp hfile) (List.mem_map_of_mem hf)
      hreports

/-- What the results file gives does not depend on any other file. -/
theorem loadPrimary_eq_of_read
    (h : files'.read (l.dir.resultsFile trial) = files.read (l.dir.resultsFile trial)) :
    l.loadPrimary files' q trial = l.loadPrimary files q trial := by
  rw [loadPrimary, loadPrimary, readLines, readLines, Files.readLines_eq_of_read h]

/-- A trial that cannot be loaded fails at its results file or at its log. What the failure says
about that file is true. If it is the results file, loading fails in the same way in every view that
has this file, whatever it has for a log. If it is the log, the results file is fine, and every view
that has it gives the same values for it. -/
theorem load_error_trueOf (s : Settings) (files : Files) (q : Query) (trial : TrialId)
    (e : RunError) (h : (ofSettings s).load files q trial = .error e) :
    let results := (TrialFiles.ofSettings s.input).resultsFile trial
    let log := (TrialFiles.ofSettings s.input).logFile trial
    ((ofSettings s).loadPrimary files q trial = .error e ∧
      e.TrueOf files results s.primary.rules q.required ∧
      ∀ files', files'.read results = files.read results →
        (ofSettings s).load files' q trial = .error e) ∨
    ∃ filled, (ofSettings s).loadPrimary files q trial = .ok filled ∧
      (ofSettings s).loadLog files q filled = .error e ∧
      e.TrueOf files log (s.log.pageCounter trial.config.kind).rules q.required ∧
      ∀ files', files'.read results = files.read results →
        (ofSettings s).loadPrimary files' q trial = .ok filled := by
  intro results log
  obtain hprimary | ⟨filled, hfilled, hlog⟩ := bind_eq_error_iff.mp h
  · refine .inl ⟨hprimary, trueOf_of_loadPrimary hprimary, ?_⟩
    intro files' hread
    have hsame : (ofSettings s).loadPrimary files' q trial = .error e :=
      (loadPrimary_eq_of_read hread).trans hprimary
    exact bind_eq_error_iff.mpr (.inl hsame)
  · have htrue := trueOf_of_loadLog hlog
    rw [trial_of_loadPrimary hfilled] at htrue
    refine .inr ⟨filled, hfilled, hlog, htrue, ?_⟩
    intro files' hread
    exact (loadPrimary_eq_of_read hread).trans hfilled

/-- A results file that ends behind its first phase fails the third query, with any log and with
none. A log without a count fails behind a results file that is fine. -/
theorem load_error_of_short_results_or_wrong_log :
    let s : Settings := { primary := ⟨0, 1, 2, 3, 4, 5⟩, log := { threshold := ⟨0, 1, 2⟩ } }
    let trial : TrialId := ⟨⟨.threshold, 5⟩, 0⟩
    let view (results log : String) : Files :=
      .ofRead fun path => .ok (if path = "results/t-5-0" then results else log).toUTF8
    let short := view "1.5|37\nTime: 0.25 ms\n" "rs_nblocks = 9\n"
    let wrong := view "1.5|37\nTime: 0.25 ms\n" "rs_nblocks = none\n"
    (∃ e, (ofSettings s).load short .three trial = .error e ∧
      e.TrueOf short "results/t-5-0" s.primary.rules Query.three.required ∧
      ∀ files', files'.read "results/t-5-0" = short.read "results/t-5-0" →
        (ofSettings s).load files' .three trial = .error e) ∧
    ∃ e filled, (ofSettings s).load wrong .one trial = .error e ∧
      e.TrueOf wrong "results/t-5-0-log" (s.log.pageCounter .threshold).rules Query.one.required ∧
      ∀ files', files'.read "results/t-5-0" = wrong.read "results/t-5-0" →
        (ofSettings s).loadPrimary files' .one trial = .ok filled := by
  intro s trial view short wrong
  have hresultsFile : (TrialFiles.ofSettings s.input).resultsFile trial = "results/t-5-0" := by
    decide
  have hlogFile : (TrialFiles.ofSettings s.input).logFile trial = "results/t-5-0-log" := by decide
  have hloader := ofSettings_of_pairwise (s := s) (by decide)
  have hshort : ((ofSettings s).loadPrimary short .three trial).map (fun _ => ()) =
      .error (.format (.missingLine "results/t-5-0" 4 .count3 2)) := by
    rw [hloader]
    decide +kernel
  have hfine : ((ofSettings s).loadPrimary wrong .one trial).map (fun _ => ()) = .ok () := by
    rw [hloader]
    decide +kernel
  have hwrong : ((ofSettings s).load wrong .one trial).map (fun _ => ()) =
      .error (.format (.malformed "results/t-5-0-log" 0 "'rs_nblocks = <int>'"
        "rs_nblocks = none")) := by
    rw [hloader]
    decide +kernel
  refine ⟨?_, ?_⟩
  · have he : (ofSettings s).load short .three trial = .error _ :=
      bind_eq_error_iff.mpr (.inl (map_eq_error_iff.mp hshort))
    obtain ⟨-, htrue, hsame⟩ | ⟨filled, hfilled, -⟩ :=
      load_error_trueOf s short .three trial _ he
    · rw [hresultsFile] at htrue hsame
      exact ⟨_, he, htrue, hsame⟩
    · rw [map_eq_error_iff.mp hshort] at hfilled
      cases hfilled
  · have he := map_eq_error_iff.mp hwrong
    obtain ⟨hprimary, -⟩ | ⟨filled, -, -, htrue, hsame⟩ :=
      load_error_trueOf s wrong .one trial _ he
    · obtain ⟨r, hr, -⟩ := map_eq_ok_iff.mp hfine
      rw [hr] at hprimary
      cases hprimary
    · rw [hlogFile] at htrue
      rw [hresultsFile] at hsame
      exact ⟨_, filled, he, htrue, hsame⟩

end Loader

end TrialSummary
