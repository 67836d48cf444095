import TrialSummary.Proofs.Report.Table
import TrialSummary.Proofs.Run.WalkOrder
import TrialSummary.Proofs.Traversal
import TrialSummary.Run.Reports

/-!
# The report of trials

The report follows the walk. Behind the rows of some trials it goes on with the row of the next one,
until a trial cannot be loaded or the walk ends. What was written stays, so a failure leaves the
header and the complete rows in front of it; only a failure of the first trial leaves nothing,
because nothing is written before there is a row.
-/

namespace TrialSummary.Loader

variable {l : Loader} {files : Files} {q : Query} {sweep : Sweep}

/-- The text of the rows of records, with the header in front. -/
def trialTable (q : Query) (rs : List Record) : String :=
  tableText ',' (ReportKind.trial.header q :: rs.map fun r => r.row q)

theorem writeTrials_cons_of_ok {trial : TrialId} {trials : List TrialId} {r : Record}
    (h : l.load files q trial = .ok r) (rows : List (List String)) :
    l.writeTrials files q (trial :: trials) (.after .trial q rows) =
      l.writeTrials files q trials (.after .trial q (rows ++ [r.row q])) := by
  rw [writeTrials, h]
  simp only [ReportDraft.write_after rows (r.reportRow q)]

theorem writeTrials_cons_of_error {trial : TrialId} {trials : List TrialId} {e : RunError}
    (h : l.load files q trial = .error e) (draft : ReportDraft) :
    l.writeTrials files q (trial :: trials) draft = ⟨draft.text, .error e⟩ := by
  rw [writeTrials, h]

theorem writeTrials_append {before : List TrialId} {rs : List Record}
    (h : Results (l.load files q) before rs) (trials : List TrialId) (rows : List (List String)) :
    l.writeTrials files q (before ++ trials) (.after .trial q rows) =
      l.writeTrials files q trials (.after .trial q (rows ++ rs.map fun r => r.row q)) := by
  induction h generalizing rows with
  | nil => simp
  | cons hr _ ih =>
    rw [List.cons_append, writeTrials_cons_of_ok hr, ih]
    simp

/-- Unless it fails at once, the report may as well be started before its first row. -/
theorem writeTrials_new {before : List TrialId} {rs : List Record}
    (h : Results (l.load files q) before rs) {trials : List TrialId}
    (hstart : before ≠ [] ∨ trials = []) :
    l.writeTrials files q (before ++ trials) (.new .trial q) =
      l.writeTrials files q (before ++ trials) (.after .trial q []) := by
  cases h with
  | nil =>
    obtain rfl : trials = [] := hstart.resolve_left (by simp)
    simp only [List.nil_append, writeTrials, ReportDraft.finish_new, ReportDraft.finish_after]
  | cons hr _ =>
    rw [List.cons_append, writeTrials, writeTrials, hr]
    simp only [ReportDraft.write_new]

/-- The whole walk is loaded: the header and a row for each trial. -/
theorem trialReport_of_results {rs : List Record} (h : Results (l.load files q) sweep.walk rs) :
    l.trialReport files q sweep = ⟨trialTable q rs, .ok sweep.walk.length⟩ := by
  have hnew := writeTrials_new h (.inr rfl)
  have hrows := writeTrials_append h [] []
  rw [List.append_nil] at hnew hrows
  rw [trialReport, hnew, hrows, writeTrials, h.length_eq]
  simp [trialTable, ReportKind.delimiter]

/-- A trial cannot be loaded: the header and the rows of the trials in front of it, if there are
any. -/
theorem trialReport_of_error {before after : List TrialId} {trial : TrialId} {rs : List Record}
    {e : RunError} (hwalk : sweep.walk = before ++ trial :: after)
    (h : Results (l.load files q) before rs) (he : l.load files q trial = .error e) :
    l.trialReport files q sweep =
      ⟨if before = [] then "" else trialTable q rs, .error e⟩ := by
  rw [trialReport, hwalk]
  by_cases hbefore : before = []
  · subst hbefore
    rw [List.nil_append, writeTrials_cons_of_error he, if_pos rfl]
    rfl
  · rw [writeTrials_new h (.inl hbefore), writeTrials_append h, writeTrials_cons_of_error he,
      if_neg hbefore]
    rfl

/-- The report of trials fails exactly with the failure of the first trial of the walk that cannot
be loaded. -/
theorem rows_trialReport_eq_error_iff {e : RunError} :
    (l.trialReport files q sweep).rows = .error e ↔ FirstFailure (l.load files q) sweep.walk e := by
  obtain ⟨rs, hrs⟩ | ⟨e', hfirst⟩ := results_or_firstFailure (l.load files q) sweep.walk
  · rw [trialReport_of_results hrs]
    simp [hrs.not_firstFailure]
  · have ⟨_, _, _, hwalk, ⟨_, hrs⟩, he⟩ := hfirst
    rw [trialReport_of_error hwalk hrs he, hfirst.iff_eq, Except.error.injEq]

theorem rows_trialReport (l : Loader) (files : Files) (q : Query) (sweep : Sweep) :
    (l.trialReport files q sweep).rows = (sweep.walk.mapM (l.load files q)).map List.length := by
  cases h : sweep.walk.mapM (l.load files q) with
  | error e => exact rows_trialReport_eq_error_iff.mpr (mapM_eq_error_iff.mp h)
  | ok rs =>
    have hrs := mapM_eq_ok_iff.mp h
    rw [trialReport_of_results hrs, hrs.length_eq]
    rfl

theorem exists_rows_trialReport_iff :
    (∃ n, (l.trialReport files q sweep).rows = .ok n) ↔
      ∀ trial ∈ sweep.walk, ∃ r, l.load files q trial = .ok r :=
  exists_ok_iff_of_firstFailure fun _ => rows_trialReport_eq_error_iff

/-- The trials of a report are walked in the order of the sweep, with the numbers of trials changing
fastest and the kinds last. The report is one of two: either the whole walk is loaded, and the
report is the header with a row for each trial, or there is a first trial that cannot be loaded, and
the report is that failure behind the header and the complete rows of the trials before, or behind
nothing if there are none. -/
theorem trialReport_eq (l : Loader) (files : Files) (q : Query) (sweep : Sweep) :
    (∀ trials, sweep.InOrder trials ↔ trials = sweep.walk) ∧
    ((∃ rs, Results (l.load files q) sweep.walk rs ∧
      l.trialReport files q sweep = ⟨trialTable q rs, .ok sweep.walk.length⟩) ∨
    (∃ before trial after e rs, sweep.walk = before ++ trial :: after ∧
      Results (l.load files q) before rs ∧ l.load files q trial = .error e ∧
      l.trialReport files q sweep =
        ⟨if before = [] then "" else trialTable q rs, .error e⟩)) := by
  refine ⟨fun trials => Sweep.inOrder_iff, ?_⟩
  obtain ⟨rs, hrs⟩ | ⟨e, hfirst⟩ := results_or_firstFailure (l.load files q) sweep.walk
  · exact .inl ⟨rs, hrs, trialReport_of_results hrs⟩
  · obtain ⟨before, trial, after, hwalk, ⟨rs, hrs⟩, he⟩ := hfirst
    exact .inr ⟨before, trial, after, e, rs, hwalk, hrs, he, trialReport_of_error hwalk hrs he⟩

/-- Two kinds at two rates with two trials each. With all files there every trial has its row, and
with the results file of the sixth trial missing the rows of five trials are left. -/
theorem trialReport_of_two_kinds :
    let l : Loader :=
      { dir := ⟨"results", "-log"⟩
        schema := ⟨Schema.placementsOf ⟨0, 1, 2, 3, 4, 5⟩, by decide⟩
        log := { threshold := ⟨6, 6, 6⟩, probabilistic := ⟨7, 7, 7⟩ } }
    let content := "1.5|37\nTime: 0.25 ms\n2.0|1\nTime: 1.0 ms\n12\nTime: 3.0 ms\n" ++
      "rs_nblocks = 9\nused = 8\n"
    let files : Files := .ofRead fun _ => .ok content.toUTF8
    let fewer : Files := .ofRead fun path =>
      if path = "results/p-5-1" then .error .notFound else .ok content.toUTF8
    let sweep : Sweep := ⟨[.threshold, .probabilistic], [5, 6], [0, 1]⟩
    let trials : List TrialId :=
      [⟨⟨.threshold, 5⟩, 0⟩, ⟨⟨.threshold, 5⟩, 1⟩, ⟨⟨.threshold, 6⟩, 0⟩, ⟨⟨.threshold, 6⟩, 1⟩,
        ⟨⟨.probabilistic, 5⟩, 0⟩, ⟨⟨.probabilistic, 5⟩, 1⟩, ⟨⟨.probabilistic, 6⟩, 0⟩,
        ⟨⟨.probabilistic, 6⟩, 1⟩]
    sweep.InOrder trials ∧
      (∃ rs, Results (l.load files .one) trials rs ∧
        l.trialReport files .one sweep = ⟨trialTable .one rs, .ok 8⟩) ∧
      (l.trialReport fewer .one sweep).rows = .error (.unreadable "results/p-5-1" .notFound) ∧
      (l.trialReport fewer .one sweep).text =
        "type,rate,db#,time,#page requests,tuple count,avg\n" ++
          "0,5,0,0.25,9,37,1.5\n0,5,1,0.25,9,37,1.5\n0,6,0,0.25,9,37,1.5\n" ++
          "0,6,1,0.25,9,37,1.5\n1,5,0,0.25,7,37,1.5\n" := by
  intro l content files fewer sweep trials
  obtain ⟨horder, hreport⟩ := trialReport_eq l files .one sweep
  have hwalk : trials = sweep.walk := by decide
  have hrows : (l.trialReport files .one sweep).rows = .ok 8 := by decide +kernel
  refine ⟨(horder trials).mpr hwalk, ?_, by decide +kernel, by decide +kernel⟩
  rw [hwalk]
  obtain hloaded | ⟨_, _, _, e, _, _, _, _, hfailed⟩ := hreport
  · exact hloaded
  · rw [hfailed] at hrows
    cases hrows

end TrialSummary.Loader
