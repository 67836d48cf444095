import TrialSummary.Proofs.Extraction.Truncation
import TrialSummary.Proofs.Run.QueryChoice

/-!
# Trials whose files end early

A run that was stopped leaves files that end behind some line. Such files never show a number that
the complete files do not show. Loading the trial gives a record in which fields are missing but
none has another value, and in which the fields that the query requires are all there; or it fails,
and then with the line of one of these fields missing. The two files may be cut at different lines,
and the lines of the settings may be in any order and fall together.
-/

namespace TrialSummary

namespace Files

/-- Both views can read the file at a path, and in the first of them it has been cut behind one of
its lines, or not at all. -/
def CutOf (short files : Files) (path : String) : Prop :=
  ∃ file n, files.readLines path = .ok file ∧ short.readLines path = .ok (file.take n)

/-- A text that is cut behind a line feed is cut behind a line. -/
theorem cutOf_of_read {short files : Files} {path : String} (front back : String)
    (h : files.read path = .ok (front ++ "\n" ++ back).toUTF8)
    (hshort : short.read path = .ok (front ++ "\n").toUTF8) : short.CutOf files path := by
  refine ⟨_, (Text.lines (front ++ "\n").toList).length, readLines_of_read h, ?_⟩
  have hlines : Text.lines (front ++ "\n" ++ back).toList =
      Text.lines (front ++ "\n").toList ++ Text.lines back.toList := by
    have hcut := Text.lines_append_feed_append front.toList back.toList
    simpa using hcut
  rw [readLines_of_read hshort, TextFile.take, hlines, ← List.map_take, List.take_left]

end Files

namespace Loader

variable {l : Loader} {s : Settings} {files short : Files} {q : Query} {trial : TrialId}
variable {r : Record}

/-- A trial is loaded exactly if both files are read and every reading succeeds. Its record is made
of the values of the results file and, behind them, those of the log. -/
theorem load_eq_ok_iff_values :
    l.load files q trial = .ok r ↔
      ∃ results log, ∃ vss wss : List (List (Field × Value)),
        files.readLines (l.dir.resultsFile trial) = .ok results ∧
        files.readLines (l.dir.logFile trial) = .ok log ∧
        l.schema.placements.map (Placement.reading results q.required) = vss.map .ok ∧
        PageCounter.fields.map
          ((l.log.pageCounter trial.config.kind).reading log q.required) = wss.map .ok ∧
        r = (Record.empty trial).setAll (vss.flatten ++ wss.flatten) := by
  rw [load_eq_ok_iff]
  simp only [Schema.extract, LogSettings.extract, PageCounter.extract,
    Extraction.toExcept_fill_eq_ok_iff]
  constructor
  · rintro ⟨results, _, log, hresults, ⟨vss, hvss, rfl⟩, hlog, wss, hwss, rfl⟩
    rw [Record.trial_setAll] at hwss
    exact ⟨results, log, vss, wss, hresults, hlog, hvss, hwss, (Record.setAll_append _ _ _).symm⟩
  · rintro ⟨results, log, vss, wss, hresults, hlog, hvss, hwss, rfl⟩
    refine ⟨results, _, log, hresults, ⟨vss, hvss, rfl⟩, hlog, wss, ?_, Record.setAll_append _ _ _⟩
    rw [Record.trial_setAll]
    exact hwss

theorem nodup_keys_of_readings {results log : TextFile} {required : List Field}
    {c : PageCounter} {vss wss : List (List (Field × Value))}
    (hvss : (ofSettings s).schema.placements.map (Placement.reading results required) =
      vss.map .ok)
    (hwss : PageCounter.fields.map (c.reading log required) = wss.map .ok) :
    ((vss.flatten ++ wss.flatten).map Prod.fst).Nodup := by
  have hresults := Extraction.keys_sublist_of_readings
    (fun _ _ _ h => Placement.keys_sublist_of_reading h) hvss
  have hlog := Extraction.keys_sublist_of_readings
    (fun _ _ _ h => PageCounter.keys_sublist_of_reading h) hwss
  rw [List.flatMap_singleton'] at hlog
  rw [List.map_append]
  exact (hresults.append hlog).nodup (Schema.nodup_fields s.primary)

/-- What is loaded from cut files is made of a part of the values that the whole files have. -/
theorem load_values_of_cut {results log : TextFile} {vss wss : List (List (Field × Value))}
    {n m : Nat} (hresults : short.readLines (l.dir.resultsFile trial) = .ok (results.take n))
    (hlog : short.readLines (l.dir.logFile trial) = .ok (log.take m))
    (hvss : l.schema.placements.map (Placement.reading results q.required) = vss.map .ok)
    (hwss : PageCounter.fields.map
      ((l.log.pageCounter trial.config.kind).reading log q.required) = wss.map .ok) :
    (∃ values, l.load short q trial = .ok ((Record.empty trial).setAll values) ∧
      values.Sublist (vss.flatten ++ wss.flatten)) ∨
    ∃ e, l.load short q trial = .error (.format e) ∧ e.IsMissing q.required := by
  obtain ⟨vss', hvss', hsub⟩ | ⟨e, he, hmissing⟩ := Extraction.fill_of_shortened
    (fun p _ => p.shortened_reading results n q.required) hvss
  · obtain ⟨wss', hwss', hsubLog⟩ | ⟨e, he, hmissing⟩ := Extraction.fill_of_shortened
      (fun f _ => (l.log.pageCounter trial.config.kind).shortened_reading log m q.required f) hwss
    · refine .inl ⟨vss'.flatten ++ wss'.flatten, ?_, hsub.append hsubLog⟩
      exact load_eq_ok_iff_values.mpr ⟨_, _, vss', wss', hresults, hlog, hvss', hwss', rfl⟩
    · have hfilled : (l.schema.extract (results.take n) q.required (.empty trial)).toExcept =
          .ok ((Record.empty trial).setAll vss'.flatten) :=
        Extraction.toExcept_fill_eq_ok_iff.mpr ⟨vss', hvss', rfl⟩
      have hfails : (l.log.extract (log.take m) q.required
          ((Record.empty trial).setAll vss'.flatten)).toExcept = .error e := by
        rw [LogSettings.extract, Record.trial_setAll]
        exact he _
      refine .inr ⟨e, load_eq_error_iff.mpr (.inr ⟨_, hresults, .inr ⟨_, hfilled, ?_⟩⟩), hmissing⟩
      exact .inr ⟨_, e, hlog, hfails, rfl⟩
  · exact .inr ⟨e, load_eq_error_iff.mpr (.inr ⟨_, hresults, .inl ⟨e, he _, rfl⟩⟩), hmissing⟩

/-- Cutting the files of a trial that can be loaded, both, one or none of them: a record in which
every field has its value or none, and every required field has it; or the failure that the line of
a required field is missing. -/
theorem load_of_cut (s : Settings) (files short : Files) (q : Query) (trial : TrialId) (r : Record)
    (h : (ofSettings s).load files q trial = .ok r)
    (hresults : short.CutOf files ((TrialFiles.ofSettings s.input).resultsFile trial))
    (hlog : short.CutOf files ((TrialFiles.ofSettings s.input).logFile trial)) :
    (∃ r', (ofSettings s).load short q trial = .ok r' ∧ r'.trial = r.trial ∧
      (∀ f, r'.get f = none ∨ r'.get f = r.get f) ∧ ∀ f ∈ q.required, (r'.get f).isSome) ∨
    ∃ path line f length, (ofSettings s).load short q trial =
      .error (.format (.missingLine path line f length)) ∧ f ∈ q.required := by
  obtain ⟨results, log, vss, wss, hread, hreadLog, hvss, hwss, rfl⟩ := load_eq_ok_iff_values.mp h
  obtain ⟨_, n, hfile, hshort⟩ := hresults
  obtain ⟨_, m, hfileLog, hshortLog⟩ := hlog
  obtain rfl := Except.ok.inj (hread.symm.trans hfile)
  obtain rfl := Except.ok.inj (hreadLog.symm.trans hfileLog)
  obtain ⟨values, hload, hpart⟩ | ⟨e, hload, path, line, f, length, rfl, hf⟩ :=
    load_values_of_cut (l := ofSettings s) hshort hshortLog hvss hwss
  · refine .inl ⟨_, hload, ?_, ?_, fun f hf => isSome_get_of_load hload hf⟩
    · rw [Record.trial_setAll, Record.trial_setAll]
    · intro f
      have hdistinct := nodup_keys_of_readings hvss hwss
      have hkept := Record.get_setAll_of_sublist (.empty trial) hpart hdistinct f
      rwa [Record.get_empty] at hkept
  · exact .inr ⟨path, line, f, length, hload, hf⟩

/-- Files that are cut behind their first phase still have the record of that phase for the first
query, without the fields of the others. For the third query they fail. -/
theorem load_of_cut_behind_first_phase :
    let s : Settings := { primary := ⟨0, 1, 2, 3, 4, 5⟩, log := { threshold := ⟨0, 1, 2⟩ } }
    let trial : TrialId := ⟨⟨.threshold, 5⟩, 0⟩
    let view (results log : String) : Files :=
      .ofRead fun path => .ok (if path = "results/t-5-0" then results else log).toUTF8
    let files := view "1.5|37\nTime: 0.25 ms\n2.0|1\nTime: 1.0 ms\n12\nTime: 3.0 ms\n"
      "rs_nblocks = 9\nrs_nblocks = 8\nrs_nblocks = 7\n"
    let short := view "1.5|37\nTime: 0.25 ms\n" "rs_nblocks = 9\n"
    (∃ r r', (ofSettings s).load files .one trial = .ok r ∧
      (ofSettings s).load short .one trial = .ok r' ∧
      (∀ f, r'.get f = none ∨ r'.get f = r.get f) ∧
      (∀ f ∈ Query.one.required, (r'.get f).isSome)) ∧
    ∃ r path line f length, (ofSettings s).load files .three trial = .ok r ∧
      (ofSettings s).load short .three trial =
        .error (.format (.missingLine path line f length)) ∧ f ∈ Query.three.required := by
  intro s trial view files short
  have hresultsFile : (TrialFiles.ofSettings s.input).resultsFile trial = "results/t-5-0" := by
    decide
  have hlogFile : (TrialFiles.ofSettings s.input).logFile trial = "results/t-5-0-log" := by decide
  have hresults : short.CutOf files "results/t-5-0" :=
    Files.cutOf_of_read "1.5|37\nTime: 0.25 ms" "2.0|1\nTime: 1.0 ms\n12\nTime: 3.0 ms\n" rfl rfl
  have hlog : short.CutOf files "results/t-5-0-log" :=
    Files.cutOf_of_read "rs_nblocks = 9" "rs_nblocks = 8\nrs_nblocks = 7\n" rfl rfl
  rw [← hresultsFile] at hresults
  rw [← hlogFile] at hlog
  have hloader := ofSettings_of_pairwise (s := s) (by decide)
  have hwhole (q : Query) : ((ofSettings s).load files q trial).map (fun _ => ()) = .ok () := by
    rw [hloader]
    cases q <;> decide +kernel
  have hone : ((ofSettings s).load short .one trial).map (fun _ => ()) = .ok () := by
    rw [hloader]
    decide +kernel
  have hthree : ((ofSettings s).load short .three trial).map (fun _ => ()) =
      .error (.format (.missingLine "results/t-5-0" 4 .count3 2)) := by
    rw [hloader]
    decide +kernel
  refine ⟨?_, ?_⟩
  · obtain ⟨r, hr, -⟩ := map_eq_ok_iff.mp (hwhole .one)
    obtain ⟨r', hr', -⟩ := map_eq_ok_iff.mp hone
    obtain ⟨r'', hr'', -, hfields, hrequired⟩ | ⟨_, _, _, _, herror, -⟩ :=
      load_of_cut s files short .one trial r hr hresults hlog
    · exact ⟨r, r'', hr, hr'', hfields, hrequired⟩
    · rw [hr'] at herror
      cases herror
  · obtain ⟨r, hr, -⟩ := map_eq_ok_iff.mp (hwhole .three)
    obtain ⟨r', hr', -⟩ | ⟨path, line, f, length, herror, hf⟩ :=
      load_of_cut s files short .three trial r hr hresults hlog
    · rw [map_eq_error_iff.mp hthree] at hr'
      cases hr'
    · exact ⟨r, path, line, f, length, hr, herror, hf⟩

end Loader

end TrialSummary
