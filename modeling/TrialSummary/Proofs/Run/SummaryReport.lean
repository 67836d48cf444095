import TrialSummary.Proofs.Report.Batches
import TrialSummary.Proofs.Run.Loading
import TrialSummary.Proofs.Run.TrialReport

/-!
# The report of summaries

All records of the walk are loaded first, and they fail to load with the failure that ends the
report of trials. Behind that nothing can fail: each record has a value for every column, no batch
is empty and each summary has the width of the header. So the report is either that failure behind
no text at all or the whole table, with one row for each configuration that the walk visits.
-/

namespace TrialSummary

namespace Sweep

variable (sweep : Sweep)

end Sweep

namespace Loader

variable {l : Loader} {s : Settings} {files : Files} {q : Query} {sweep : Sweep}
variable {rs : List Record} {rows : List Summary} {e : RunError}

/-- Loading configuration by configuration is loading along the walk. -/
theorem loadAll_eq (l : Loader) (files : Files) (q : Query) (sweep : Sweep) :
    l.loadAll files q sweep = sweep.walk.mapM (l.load files q) := by
  rw [loadAll, Sweep.walk]
  induction sweep.configurations with
  | nil => rfl
  | cons config configs ih =>
    rw [List.mapM_cons, List.flatMap_cons, List.mapM_append, ← ih, loadBatch]
    cases (sweep.trialsOf config).mapM (l.load files q) with
    | error e => rfl
    | ok rs => cases configs.mapM (l.loadBatch files q sweep) <;> rfl

theorem exists_summaries (h : Results ((ofSettings s).load files q) sweep.walk rs) :
    ∃ rows, Results (Batch.summarize q) (Batch.ofRecords rs) rows := by
  refine exists_forall₂_iff.mpr fun b hb => ?_
  refine Batch.exists_summarize (Batch.records_ne_nil_of_mem_ofRecords hb) fun c hc r hr => ?_
  obtain ⟨trial, -, hload⟩ := h.exists_of_mem (Batch.mem_of_mem_ofRecords hb hr)
  exact isSome_get_of_load hload (Query.field_mem_required hc)

theorem summaryRows_of_results (h : Results (l.load files q) sweep.walk rs)
    (hrows : Results (Batch.summarize q) (Batch.ofRecords rs) rows) :
    l.summaryRows files q sweep = .ok rows := by
  have hall : Batch.summarizeAll q (Batch.ofRecords rs) = .ok rows := mapM_eq_ok_iff.mpr hrows
  rw [summaryRows, loadAll_eq, mapM_eq_ok_iff.mpr h]
  simp only [bind, Except.bind, hall]

theorem summaryRows_of_firstFailure (h : FirstFailure (l.load files q) sweep.walk e) :
    l.summaryRows files q sweep = .error e := by
  rw [summaryRows, loadAll_eq, mapM_eq_error_iff.mpr h]
  rfl

theorem writeSummaries_after (hrows : ∀ row ∈ rows, row.values.length = q.columns.length)
    (written : List (List String)) :
    writeSummaries rows (.after .summary q written) =
      ⟨tableText '\t' (ReportKind.summary.header q :: (written ++ rows.map Summary.row)),
        .ok (written.length + rows.length)⟩ := by
  induction rows generalizing written with
  | nil => simp [writeSummaries, ReportKind.delimiter]
  | cons row rows ih =>
    have hrow := row.reportRow (hrows row List.mem_cons_self)
    have hrest := ih (fun r hr => hrows r (List.mem_cons_of_mem _ hr)) (written ++ [row.row])
    rw [writeSummaries, ReportDraft.write_after written hrow]
    simp only [hrest, List.append_assoc, List.singleton_append, List.map_cons, List.length_append,
      List.length_cons, List.length_nil, Nat.zero_add, Nat.add_assoc, Nat.add_comm 1]

/-- The header is there even if there are no summaries, so it may as well be written first. -/
theorem writeSummaries_new (rows : List Summary) (q : Query) :
    writeSummaries rows (.new .summary q) = writeSummaries rows (.after .summary q []) := by
  cases rows with
  | nil => simp only [writeSummaries, ReportDraft.finish_new, ReportDraft.finish_after]
  | cons row rows => simp only [writeSummaries, ReportDraft.write_new]

/-- All trials are loaded: a table of the summaries of all batches. -/
theorem summaryReport_of_results (h : Results (l.load files q) sweep.walk rs)
    (hrows : Results (Batch.summarize q) (Batch.ofRecords rs) rows) :
    l.summaryReport files q sweep =
      ⟨tableText '\t' (ReportKind.summary.header q :: rows.map Summary.row), .ok rows.length⟩ := by
  have hlength : ∀ row ∈ rows, row.values.length = q.columns.length := by
    intro row hrow
    obtain ⟨b, -, hb⟩ := hrows.exists_of_mem hrow
    exact (Batch.summarize_eq_ok_iff.mp hb).2.2.length_eq.symm
  rw [summaryReport, summaryRows_of_results h hrows]
  simp only [writeSummaries_new, writeSummaries_after hlength, List.nil_append, List.length_nil,
    Nat.zero_add]

theorem summaryReport_of_firstFailure (h : FirstFailure (l.load files q) sweep.walk e) :
    l.summaryReport files q sweep = ⟨"", .error e⟩ := by
  rw [summaryReport, summaryRows_of_firstFailure h]

/-- The report of summaries fails exactly with the failure of the first trial of the walk that
cannot be loaded. -/
theorem rows_summaryReport_eq_error_iff :
    ((ofSettings s).summaryReport files q sweep).rows = .error e ↔
      FirstFailure ((ofSettings s).load files q) sweep.walk e := by
  obtain ⟨rs, hrs⟩ | ⟨e', hfirst⟩ :=
    results_or_firstFailure ((ofSettings s).load files q) sweep.walk
  · obtain ⟨rows, hrows⟩ := exists_summaries hrs
    rw [summaryReport_of_results hrs hrows]
    simp [hrs.not_firstFailure]
  · rw [summaryReport_of_firstFailure hfirst, hfirst.iff_eq, Except.error.injEq]

theorem exists_rows_summaryReport_iff :
    (∃ n, ((ofSettings s).summaryReport files q sweep).rows = .ok n) ↔
      ∀ trial ∈ sweep.walk, ∃ r, (ofSettings s).load files q trial = .ok r :=
  exists_ok_iff_of_firstFailure fun _ => rows_summaryReport_eq_error_iff

/-- The two reports over a sweep fail together and with the same failure, which is that of the first
trial of the walk that cannot be loaded. It is about a file that cannot be read or has not the right
form, never about writing or summarizing, and the report of summaries has written nothing then. -/
theorem reports_fail_alike (s : Settings) (files : Files) (q : Query) (sweep : Sweep) :
    (∀ e, ((ofSettings s).summaryReport files q sweep).rows = .error e ↔
      ((ofSettings s).trialReport files q sweep).rows = .error e) ∧
    (∀ e, ((ofSettings s).trialReport files q sweep).rows = .error e ↔
      FirstFailure ((ofSettings s).load files q) sweep.walk e) ∧
    (∀ e, ((ofSettings s).summaryReport files q sweep).rows = .error e →
      ((∃ path fault, e = .unreadable path fault) ∨ ∃ fault, e = .format fault) ∧
        ((ofSettings s).summaryReport files q sweep).text = "") := by
  refine ⟨fun e => ?_, fun e => rows_trialReport_eq_error_iff, fun e h => ?_⟩
  · exact rows_summaryReport_eq_error_iff.trans rows_trialReport_eq_error_iff.symm
  · have hfirst := rows_summaryReport_eq_error_iff.mp h
    have ⟨_, _, _, _, _, hload⟩ := hfirst
    refine ⟨error_of_load hload, ?_⟩
    rw [summaryReport_of_firstFailure hfirst]

/-- Without any files both reports fail for the first trial. -/
theorem reports_fail_without_files :
    let files : Files := .ofRead fun _ => .error .notFound
    let summaries := (ofSettings {}).summaryReport files .one (.ofSettings {})
    let trials := (ofSettings {}).trialReport files .one (.ofSettings {})
    summaries.rows = .error (.unreadable "results/t-10-0" .notFound) ∧
      trials.rows = .error (.unreadable "results/t-10-0" .notFound) ∧ summaries.text = "" := by
  intro files summaries trials
  obtain ⟨hsame, hfirst, hnothing⟩ := reports_fail_alike {} files .one (.ofSettings {})
  have htrial := (hfirst (.unreadable "results/t-10-0" .notFound)).mpr
    ⟨[], ⟨⟨.threshold, 10⟩, 0⟩, _, rfl, ⟨[], .nil⟩, rfl⟩
  have hsummary := (hsame _).mpr htrial
  exact ⟨hsummary, htrial, (hnothing _ hsummary).2⟩

/-- The records of a configuration are those of its visits. -/
theorem results_filter (h : Results (l.load files q) sweep.walk rs) (config : Configuration) :
    Results (l.load files q) (sweep.walk.filter fun trial => trial.config = config)
      (rs.filter fun r => Batch.key r = config) := by
  refine List.rel_filter ?_ h
  intro trial r hr
  simp [Batch.key, trial_of_load hr]

end Loader

end TrialSummary
