import TrialSummary.Proofs.Report.ReadBack
import TrialSummary.Proofs.Run.SummaryReport
import TrialSummary.Proofs.Settings.Rates
import TrialSummary.Proofs.Trial.Identity

/-!
# The configurations of a sweep one by one

The trials of one configuration can be reported on their own. Doing this for every configuration of
a sweep gives the report of the sweep in parts: the walk of the sweep is made of these walks, so the
rows of the parts follow one another, and the sweep fails where the first of its parts does. If no
kind is named twice, a row also shows by its first two cells to which part it belongs, because the
rates of a grid never repeat.
-/

namespace TrialSummary

namespace Sweep

theorem nodup_configurations {sweep : Sweep} (hkinds : sweep.kinds.Nodup)
    (hrates : sweep.rates.Nodup) : sweep.configurations.Nodup := by
  rw [configurations, List.nodup_flatMap]
  refine ⟨?_, ?_⟩
  · intro kind _
    apply hrates.map
    intro rate rate' h
    exact (Configuration.mk.inj h).2
  · apply hkinds.imp
    intro kind kind' hne config hconfig hconfig'
    obtain ⟨rate, -, rfl⟩ := List.mem_map.mp hconfig
    obtain ⟨rate', -, h⟩ := List.mem_map.mp hconfig'
    exact hne (Configuration.mk.inj h).1.symm

theorem nodup_configurations_ofSettings {s : SweepSettings} (hkinds : s.kinds.Nodup) :
    (ofSettings s).configurations.Nodup :=
  nodup_configurations hkinds s.rates.nodup_rates

/-- The walk of a configuration on its own is its part of the walk of the sweep. -/
theorem walk_single (s : SweepSettings) (config : Configuration) :
    (single config s.trials).walk = (ofSettings s).trialsOf config := by
  rw [walk, configurations_single, List.flatMap_singleton]
  rfl

/-- The trials of a configuration in a walk that comes to it only once. -/
theorem filter_walk {sweep : Sweep} (hnodup : sweep.configurations.Nodup) {config : Configuration}
    (hconfig : config ∈ sweep.configurations) :
    (sweep.walk.filter fun trial => trial.config = config) = sweep.trialsOf config := by
  have howner : ∀ c ∈ sweep.configurations, ∀ trial ∈ sweep.trialsOf c, trial.config = id c := by
    intro c _ trial htrial
    obtain ⟨db, -, rfl⟩ := List.mem_map.mp htrial
    rfl
  have hdistinct : (sweep.configurations.map id).Nodup := by rwa [List.map_id]
  exact filter_flatMap_part hdistinct howner hconfig

end Sweep

/-- The first two cells of a row of a trial name its configuration. -/
theorem Record.take_row_eq_iff {r : Record} {q : Query} {config : Configuration} :
    (r.row q).take 2 = [config.kind.code.repr, numberText config.rate] ↔
      r.trial.config = config := by
  obtain ⟨⟨⟨kind, rate⟩, db⟩, cell⟩ := r
  obtain ⟨kind', rate'⟩ := config
  have hkind : kind.code.repr = kind'.code.repr ↔ kind = kind' := by
    cases kind <;> cases kind' <;> decide
  show [kind.code.repr, numberText rate] = [kind'.code.repr, numberText rate'] ↔ _
  simp only [List.cons.injEq, hkind, numberText_injective.eq_iff, and_true,
    Configuration.mk.injEq]

/-- The rows below the header, read back from the text of a report of trials. -/
def Report.tableRows (r : Report) : List (List String) :=
  (readTable ReportKind.trial.delimiter r.text).tail

namespace Loader

variable {l : Loader} {files : Files} {q : Query} {sweep : Sweep} {rs : List Record}
variable {e : RunError}

theorem tableRows_trialReport (h : Results (l.load files q) sweep.walk rs) :
    (l.trialReport files q sweep).tableRows = rs.map fun r => r.row q := by
  have hplain : ∀ row ∈ ReportKind.trial.header q :: rs.map fun r => r.row q,
      PlainRow ReportKind.trial.delimiter row := by
    rw [List.forall_mem_cons, List.forall_mem_map]
    refine ⟨(ReportKind.trial.reportRow_header q).plainRow, ?_⟩
    intro r _
    exact (r.reportRow q).plainRow
  have hread := readTable_tableText (by decide) hplain
  rw [trialReport_of_results h, Report.tableRows, trialTable]
  exact congrArg List.tail hread

section Single

variable {s : Settings} {config : Configuration}

theorem exists_rows_iff_single :
    (∃ n, (l.trialReport files q (.ofSettings s.sweep)).rows = .ok n) ↔
      ∀ config ∈ (Sweep.ofSettings s.sweep).configurations,
        ∃ n, (l.trialReport files q (.single config s.sweep.trials)).rows = .ok n := by
  simp only [exists_rows_trialReport_iff, Sweep.walk_single]
  rw [Sweep.walk, List.forall_mem_flatMap]

theorem rows_eq_error_iff_single :
    (l.trialReport files q (.ofSettings s.sweep)).rows = .error e ↔
      FirstFailure
        (fun config => (l.trialReport files q (.single config s.sweep.trials)).rows)
        (Sweep.ofSettings s.sweep).configurations e := by
  simp only [rows_trialReport, Sweep.walk_single, firstFailure_map_iff]
  rw [map_eq_error_iff, mapM_eq_error_iff, Sweep.walk, firstFailure_flatMap_iff]

theorem flatMap_tableRows_single
    (h : Results (l.load files q) (Sweep.ofSettings s.sweep).walk rs) :
    ((Sweep.ofSettings s.sweep).configurations.flatMap fun config =>
      (l.trialReport files q (.single config s.sweep.trials)).tableRows) =
        rs.map fun r => r.row q := by
  have hparts := mapM_eq_ok_iff.mpr h
  rw [Sweep.walk, mapM_flatMap] at hparts
  obtain ⟨rss, hrss, rfl⟩ := map_eq_ok_iff.mp hparts
  have hrows : rss.map (List.map fun r => r.row q) =
      (Sweep.ofSettings s.sweep).configurations.map fun config =>
        (l.trialReport files q (.single config s.sweep.trials)).tableRows := by
    apply (mapM_eq_ok_iff.mp hrss).map_eq
    intro config rs hrs
    rw [← Sweep.walk_single] at hrs
    exact (tableRows_trialReport (mapM_eq_ok_iff.mp hrs)).symm
  rw [List.flatMap_def, ← hrows, List.map_flatten]

/-- The rows of a configuration are those that begin with its two cells. -/
theorem tableRows_single (hkinds : s.sweep.kinds.Nodup)
    (hconfig : config ∈ (Sweep.ofSettings s.sweep).configurations)
    (h : Results (l.load files q) (Sweep.ofSettings s.sweep).walk rs) :
    (l.trialReport files q (.single config s.sweep.trials)).tableRows =
      (rs.map fun r => r.row q).filter fun cells =>
        cells.take 2 = [config.kind.code.repr, numberText config.rate] := by
  have hnodup := Sweep.nodup_configurations_ofSettings hkinds
  have hpart := results_filter h config
  rw [Sweep.filter_walk hnodup hconfig, ← Sweep.walk_single] at hpart
  rw [tableRows_trialReport hpart, List.filter_map]
  simp only [Function.comp_def, Record.take_row_eq_iff]

end Single

/-- The report of a sweep that names no kind twice, and the reports of its configurations. The sweep
succeeds exactly if all of these do. Then the rows of a configuration are the rows of the sweep that
begin with its code and its rate, and the rows of all configurations in order are those of the
sweep. Otherwise the sweep fails like the first configuration that fails. -/
theorem trialReport_eq_singles (s : Settings) (files : Files) (q : Query)
    (hkinds : s.sweep.kinds.Nodup) :
    let configs := (Sweep.ofSettings s.sweep).configurations
    let whole := (ofSettings s).trialReport files q (.ofSettings s.sweep)
    let single (config : Configuration) :=
      (ofSettings s).trialReport files q (.single config s.sweep.trials)
    ((∃ n, whole.rows = .ok n) ↔ ∀ config ∈ configs, ∃ n, (single config).rows = .ok n) ∧
    (∀ n, whole.rows = .ok n →
      (∀ config ∈ configs, (single config).tableRows = whole.tableRows.filter fun cells =>
        cells.take 2 = [config.kind.code.repr, numberText config.rate]) ∧
      (configs.flatMap fun config => (single config).tableRows) = whole.tableRows) ∧
    ∀ e, whole.rows = .error e ↔ FirstFailure (fun config => (single config).rows) configs e := by
  intro configs whole single
  refine ⟨exists_rows_iff_single, ?_, fun e => rows_eq_error_iff_single⟩
  intro n hn
  obtain ⟨rs, hrs⟩ := exists_forall₂_iff.mpr (exists_rows_trialReport_iff.mp ⟨n, hn⟩)
  have hrows : whole.tableRows = rs.map fun r => r.row q := tableRows_trialReport hrs
  rw [hrows]
  refine ⟨?_, flatMap_tableRows_single hrs⟩
  intro config hconfig
  exact tableRows_single hkinds hconfig hrs

/-- Two kinds at two rates: with all files there, the rows of the last configuration are found in
the report of the sweep, and with its results file missing, the sweep fails like that
configuration. -/
theorem trialReport_eq_singles_of_two_kinds :
    let s : Settings :=
      { sweep := { rates := ⟨5, 6, 1⟩, trials := 1 }
        primary := ⟨0, 1, 2, 3, 4, 5⟩
        log := { threshold := ⟨6, 6, 6⟩, probabilistic := ⟨7, 7, 7⟩ } }
    let content := "1.5|37\nTime: 0.25 ms\n2.0|1\nTime: 1.0 ms\n12\nTime: 3.0 ms\n" ++
      "rs_nblocks = 9\nused = 9\n"
    let files : Files := .ofRead fun _ => .ok content.toUTF8
    let fewer : Files := .ofRead fun path =>
      if path = "results/p-6-0" then .error .notFound else .ok content.toUTF8
    let whole (files : Files) := (ofSettings s).trialReport files .one (.ofSettings s.sweep)
    let single (files : Files) (config : Configuration) :=
      (ofSettings s).trialReport files .one (.single config s.sweep.trials)
    s.sweep.kinds.Nodup ∧ (whole files).rows = .ok 4 ∧
      (single files ⟨.probabilistic, 6⟩).tableRows =
        (whole files).tableRows.filter (fun cells => cells.take 2 = ["1", "6"]) ∧
      FirstFailure (fun config => (single fewer config).rows)
        [⟨.threshold, 5⟩, ⟨.threshold, 6⟩, ⟨.probabilistic, 5⟩, ⟨.probabilistic, 6⟩]
        (.unreadable "results/p-6-0" .notFound) := by
  intro s content files fewer whole single
  have hkinds : s.sweep.kinds.Nodup := by decide
  have hloader := ofSettings_of_pairwise (s := s) (by decide)
  have hrows : (whole files).rows = .ok 4 := by
    simp only [whole, hloader]
    decide +kernel
  have herror : (whole fewer).rows = .error (.unreadable "results/p-6-0" .notFound) := by
    simp only [whole, hloader]
    decide +kernel
  obtain ⟨-, hparts, -⟩ := trialReport_eq_singles s files .one hkinds
  obtain ⟨-, -, hfirst⟩ := trialReport_eq_singles s fewer .one hkinds
  refine ⟨hkinds, hrows, ?_, ?_⟩
  · exact (hparts 4 hrows).1 ⟨.probabilistic, 6⟩ (by decide)
  · have hconfigs : (Sweep.ofSettings s.sweep).configurations =
        [⟨.threshold, 5⟩, ⟨.threshold, 6⟩, ⟨.probabilistic, 5⟩, ⟨.probabilistic, 6⟩] := by decide
    rw [← hconfigs]
    exact (hfirst _).mp herror

end Loader

end TrialSummary
