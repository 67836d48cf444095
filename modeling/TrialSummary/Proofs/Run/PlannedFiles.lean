import TrialSummary.CommandLine.Invocation
import TrialSummary.Files.Tree
import TrialSummary.Proofs.Run.SummaryReport
import TrialSummary.Proofs.Text.Search

/-!
# What a plan says about a run

A plan marks the files of the walk that are missing and counts them. A trial that can be loaded has
both of its files, so a run over the same walk can only succeed if the plan counts none. Other than
that a plan promises nothing: what is there may still be a directory, or not be readable, or have
the wrong form.

The marks and the paths are taken from the printed lines, as a reader of the plan would take them.
-/

namespace TrialSummary

namespace Files

variable {files : Files} {path : String}

theorem pathExists_of_readLines {file : TextFile} (h : files.readLines path = .ok file) :
    files.pathExists path = true := by
  rw [readLines, map_eq_ok_iff] at h
  obtain ⟨s, hs, -⟩ := h
  rw [readText] at hs
  cases hread : files.read path with
  | ok bytes => exact files.pathExists_of_read hread
  | error fault =>
    rw [hread] at hs
    cases hs

end Files

/-- A trial that can be loaded has both of its files. -/
theorem Loader.pathExists_of_load {l : Loader} {files : Files} {q : Query} {trial : TrialId}
    {r : Record} (h : l.load files q trial = .ok r) :
    ∀ path ∈ l.dir.both trial, files.pathExists path = true := by
  obtain ⟨results, filled, log, hresults, -, hlog, -⟩ := load_eq_ok_iff.mp h
  rw [TrialFiles.both, List.forall_mem_cons, List.forall_mem_singleton]
  exact ⟨Files.pathExists_of_readLines hresults, Files.pathExists_of_readLines hlog⟩

namespace PlannedFile

/-- The file of a printed line, if it is one that shows a file. -/
def ofLine? (line : String) : Option PlannedFile :=
  match Text.after? "  ok      ".toList line.toList with
  | some path => some ⟨String.ofList path, true⟩
  | none =>
    (Text.after? "  missing ".toList line.toList).map fun path => ⟨String.ofList path, false⟩

theorem ofLine?_ok (path : String) : ofLine? ("  ok      " ++ path) = some ⟨path, true⟩ := by
  rw [ofLine?, String.toList_append, Text.after?_append]
  simp only [String.ofList_toList]

theorem ofLine?_missing (path : String) : ofLine? ("  missing " ++ path) = some ⟨path, false⟩ := by
  have hok : Text.after? "  ok      ".toList ("  missing " ++ path).toList = none := by
    rw [String.toList_append]
    exact Text.after?_append_eq_none _ (by decide)
  rw [ofLine?, hok, String.toList_append, Text.after?_append]
  simp only [Option.map_some, String.ofList_toList]

/-- A line that begins in another way shows no file. -/
theorem ofLine?_append_eq_none {start : String} (rest : String)
    (h : ∀ mark ∈ ["  ok      ", "  missing "],
      ¬mark.toList <+: start.toList ∧ ¬start.toList <+: mark.toList) :
    ofLine? (start ++ rest) = none := by
  obtain ⟨hok, hmissing⟩ := List.forall_mem_cons.mp h
  have hmissing := List.forall_mem_singleton.mp hmissing
  rw [ofLine?, String.toList_append, Text.after?_append_eq_none _ hok,
    Text.after?_append_eq_none _ hmissing]
  rfl

theorem ofLine?_fileLine (f : PlannedFile) : ofLine? (Plan.fileLine f) = some f := by
  obtain ⟨path, present⟩ := f
  cases present with
  | false => exact ofLine?_missing path
  | true => exact ofLine?_ok path

theorem ofLine?_placementLine (p : Placement) : ofLine? (Plan.placementLine p) = none := by
  rw [Plan.placementLine, String.append_assoc, String.append_assoc]
  exact ofLine?_append_eq_none _ (by decide)

end PlannedFile

namespace Plan

theorem filterMap_lines (p : Plan) : p.lines.filterMap PlannedFile.ofLine? = p.files := by
  have hplacements :
      (p.schema.placements.map placementLine).filterMap PlannedFile.ofLine? = [] := by
    rw [List.filterMap_map, List.filterMap_eq_nil_iff]
    intro placement _
    rw [Function.comp_apply, PlannedFile.ofLine?_placementLine]
  have hfiles : (p.files.map fileLine).filterMap PlannedFile.ofLine? = p.files := by
    have hcomp : PlannedFile.ofLine? ∘ fileLine = some := funext PlannedFile.ofLine?_fileLine
    rw [List.filterMap_map, hcomp, List.filterMap_some]
  have htitle : PlannedFile.ofLine? ("Primary layout:" ++ "") = none :=
    PlannedFile.ofLine?_append_eq_none "" (by decide)
  rw [String.append_empty] at htitle
  -- what is left are the settings and the last line, and none of them begins with a mark
  simp (disch := decide) only [lines, String.append_assoc, List.filterMap_append, hplacements,
    hfiles, List.filterMap_cons, List.filterMap_nil, htitle, PlannedFile.ofLine?_append_eq_none,
    List.nil_append, List.append_nil]

theorem map_path_files (files : Files) (s : Settings) :
    (make files s).files.map PlannedFile.path =
      (Sweep.ofSettings s.sweep).walk.flatMap (TrialFiles.ofSettings s.input).both := by
  rw [make, List.map_map]
  exact List.map_id' _

theorem present_of_mem_files {files : Files} {s : Settings} {f : PlannedFile}
    (h : f ∈ (make files s).files) : f.present = files.pathExists f.path := by
  obtain ⟨path, -, rfl⟩ := List.mem_map.mp h
  rfl

/-- In a tree of files the missing ones are those that no path leads to. -/
theorem present_eq_false_iff_of_tree {t : FileTree} {s : Settings} {f : PlannedFile}
    (h : f ∈ (make t.files s).files) :
    f.present = false ↔
      t.read f.path = .error .notFound ∨ t.read f.path = .error .notDirectory := by
  rw [present_of_mem_files h]
  exact FileTree.pathExists_files_eq_false_iff

theorem missing_eq_zero {files : Files} {s : Settings} {q : Query}
    (h : ∀ trial ∈ (Sweep.ofSettings s.sweep).walk,
      ∃ r, (Loader.ofSettings s).load files q trial = .ok r) : (make files s).missing = 0 := by
  rw [missing, List.countP_eq_zero]
  intro f hf
  have hpath := List.mem_map_of_mem (f := PlannedFile.path) hf
  rw [map_path_files] at hpath
  obtain ⟨trial, htrial, hboth⟩ := List.mem_flatMap.mp hpath
  obtain ⟨r, hr⟩ := h trial htrial
  have hpresent : files.pathExists f.path = true := Loader.pathExists_of_load hr f.path hboth
  rw [present_of_mem_files hf, hpresent]
  decide

end Plan

namespace CommandLine

theorem Outcome.error?_ofReport_eq_none_iff {r : Report} :
    (Outcome.ofReport r).error? = none ↔ ∃ n, r.rows = .ok n := by
  rw [ofReport]
  cases r.rows <;> simp

namespace Invocation

/-- The trials of the sweep are printed without a failure exactly if each of them can be loaded. -/
theorem error?_sweep_eq_none_iff {i : Invocation} {files : Files} {s : Settings} {q : Query} :
    (({ i with command := .sweep q } : Invocation).runWith files s).error? = none ↔
      ∀ trial ∈ (Sweep.ofSettings s.sweep).walk,
        ∃ r, (Loader.ofSettings s).load files q trial = .ok r :=
  Outcome.error?_ofReport_eq_none_iff.trans Loader.exists_rows_trialReport_iff

theorem error?_summary_eq_none_iff {i : Invocation} {files : Files} {s : Settings} {q : Query} :
    (({ i with command := .summary q } : Invocation).runWith files s).error? = none ↔
      ∀ trial ∈ (Sweep.ofSettings s.sweep).walk,
        ∃ r, (Loader.ofSettings s).load files q trial = .ok r :=
  Outcome.error?_ofReport_eq_none_iff.trans Loader.exists_rows_summaryReport_iff

/-- A plan lists the results file and the log of each trial in the order of the walk, which is the
order of the sweep. It marks a file as missing exactly if there is nothing behind its path, and the
number in its last line is that of these marks. If there are any, neither the trials of the sweep
nor its summaries can be had, for any query; so where one of them can, the plan has nothing
missing. -/
theorem plan_lists_walk (i : Invocation) (files : Files) (s : Settings) :
    let dir := TrialFiles.ofSettings s.input
    let sweep := Sweep.ofSettings s.sweep
    let lines := (Plan.make files s).lines
    let listed := lines.filterMap PlannedFile.ofLine?
    let missing := listed.countP fun f => !f.present
    let run := fun command => ({ i with command := command } : Invocation).runWith files s
    (run .plan).text = String.join (lines.map fun line => line ++ "\n") ∧
    (∀ trials, sweep.InOrder trials ↔ trials = sweep.walk) ∧
    listed.map PlannedFile.path =
      sweep.walk.flatMap (fun trial => [dir.resultsFile trial, dir.logFile trial]) ∧
    (∀ f ∈ listed, f.present = false ↔ files.pathExists f.path = false) ∧
    lines.getLast? =
      some ("Dry run: " ++ missing.repr ++ " missing file(s), nothing parsed.") ∧
    (0 < missing → ∀ q, (∃ e, (run (.sweep q)).error? = some e) ∧
      ∃ e, (run (.summary q)).error? = some e) ∧
    ∀ q, (run (.sweep q)).error? = none ∨ (run (.summary q)).error? = none → missing = 0 := by
  intro dir sweep lines listed missing run
  have hlisted : listed = (Plan.make files s).files := Plan.filterMap_lines _
  have hmissing : missing = (Plan.make files s).missing := congrArg (List.countP _) hlisted
  have hsuccess : ∀ q, (run (.sweep q)).error? = none ∨ (run (.summary q)).error? = none →
      missing = 0 := by
    intro q h
    rw [hmissing]
    apply Plan.missing_eq_zero (q := q)
    exact h.elim error?_sweep_eq_none_iff.mp error?_summary_eq_none_iff.mp
  refine ⟨rfl, fun trials => Sweep.inOrder_iff, ?_, ?_, ?_, ?_, hsuccess⟩
  · rw [hlisted]
    exact Plan.map_path_files files s
  · intro f hf
    rw [hlisted] at hf
    rw [Plan.present_of_mem_files hf]
  · rw [hmissing]
    exact List.getLast?_concat
  · intro hpos q
    have hne : missing ≠ 0 := Nat.pos_iff_ne_zero.mp hpos
    constructor
    · exact Option.ne_none_iff_exists'.mp fun h => hne (hsuccess q (.inl h))
    · exact Option.ne_none_iff_exists'.mp fun h => hne (hsuccess q (.inr h))

/-- In the place of the results file of the only trial is a directory, and the path of its log is a
loop of links: the one is there, the other is not, and neither can be read. -/
theorem plan_of_directory_and_loop :
    let s : Settings := { sweep := { kinds := [.threshold], rates := ⟨10, 10, 10⟩, trials := 1 } }
    let files : Files :=
      { read := fun path => .error <| if path = "results/t-10-0" then .isDirectory
          else .other "Too many levels of symbolic links (os error 40)"
        pathExists := fun path => path == "results/t-10-0"
        pathExists_of_read := nofun }
    (Plan.make files s).lines.filterMap PlannedFile.ofLine? =
        [⟨"results/t-10-0", true⟩, ⟨"results/t-10-0-log", false⟩] ∧
      (Plan.make files s).lines.getLast? =
        some "Dry run: 1 missing file(s), nothing parsed." ∧
      ∃ e, (({ command := .sweep .one } : Invocation).runWith files s).error? = some e := by
  intro s files
  obtain ⟨-, -, -, -, hlast, hfail, -⟩ := plan_lists_walk { command := .plan } files s
  have hlisted : (Plan.make files s).lines.filterMap PlannedFile.ofLine? =
      [⟨"results/t-10-0", true⟩, ⟨"results/t-10-0-log", false⟩] := by
    rw [Plan.filterMap_lines]
    decide
  rw [hlisted] at hlast hfail
  exact ⟨hlisted, hlast, (hfail (by decide) .one).1⟩

end Invocation

end CommandLine

end TrialSummary
