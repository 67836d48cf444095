import TrialSummary.Proofs.Extraction.Required
import TrialSummary.Proofs.Run.Loading

/-!
# The choice of a query

A query says which fields every trial has to provide. Loading a trial uses this only to decide
whether a file that ends early can still be used. Which values a record gets, whether a file can be
read, and whether a line of the results file holds what it should are the same for both queries.
-/

namespace TrialSummary.Loader

variable {l : Loader} {files : Files} {q : Query} {trial : TrialId} {r : Record} {e : RunError}

theorem loadPrimary_of_ok (h : l.loadPrimary files q trial = .ok r) (q' : Query) :
    l.loadPrimary files q' trial = .ok r ∨
      ∃ fault, l.loadPrimary files q' trial = .error (.format fault) ∧
        fault.IsMissing q'.required := by
  obtain ⟨file, hfile, hchecked⟩ := bind_eq_ok_iff.mp h
  have hother : l.loadPrimary files q' trial =
      checked (l.schema.extract file q'.required (.empty trial)) := by
    rw [loadPrimary, hfile]
    rfl
  rcases Schema.extract_of_ok (checked_eq_ok_iff.mp hchecked) q'.required with
    hok | ⟨fault, herror, hfault⟩
  · exact .inl (hother.trans (checked_eq_ok_iff.mpr hok))
  · exact .inr ⟨fault, hother.trans (checked_eq_error_iff.mpr ⟨fault, herror, rfl⟩), hfault⟩

theorem loadLog_of_ok {filled : Record} (h : l.loadLog files q filled = .ok r) (q' : Query) :
    l.loadLog files q' filled = .ok r ∨
      ∃ fault, l.loadLog files q' filled = .error (.format fault) ∧
        fault.IsMissing q'.required := by
  obtain ⟨file, hfile, hchecked⟩ := bind_eq_ok_iff.mp h
  have hother : l.loadLog files q' filled = checked (l.log.extract file q'.required filled) := by
    rw [loadLog, hfile]
    rfl
  rcases LogSettings.extract_of_ok (checked_eq_ok_iff.mp hchecked) q'.required with
    hok | ⟨fault, herror, hfault⟩
  · exact .inl (hother.trans (checked_eq_ok_iff.mpr hok))
  · exact .inr ⟨fault, hother.trans (checked_eq_error_iff.mpr ⟨fault, herror, rfl⟩), hfault⟩

theorem load_of_loadPrimary_error (h : l.loadPrimary files q trial = .error e) :
    l.load files q trial = .error e := by
  rw [load, h]
  rfl

/-- A trial that is loaded for one query has the same record for every query, or the line of a field
that this query requires is missing. -/
theorem load_of_ok (h : l.load files q trial = .ok r) (q' : Query) :
    l.load files q' trial = .ok r ∨
      ∃ fault, l.load files q' trial = .error (.format fault) ∧ fault.IsMissing q'.required := by
  obtain ⟨filled, hprimary, hlog⟩ := bind_eq_ok_iff.mp h
  rcases loadPrimary_of_ok hprimary q' with hprimary' | ⟨fault, herror, hfault⟩
  · have hload : l.load files q' trial = l.loadLog files q' filled := by
      rw [load, hprimary']
      rfl
    rw [hload]
    exact loadLog_of_ok hlog q'
  · exact .inr ⟨fault, load_of_loadPrimary_error herror, hfault⟩

/-- A results file that cannot be read, or in which a line does not hold what it should, fails alike
for every query. -/
theorem loadPrimary_of_error (h : l.loadPrimary files q trial = .error e)
    (he : ¬∃ fault, e = .format fault ∧ fault.IsMissing q.required) (q' : Query) :
    l.loadPrimary files q' trial = .error e := by
  rcases bind_eq_error_iff.mp h with hread | ⟨file, hfile, hchecked⟩
  · rw [loadPrimary, hread]
    rfl
  · obtain ⟨fault, hfault, rfl⟩ := checked_eq_error_iff.mp hchecked
    have hmissing : ¬fault.IsMissing q.required := fun hm => he ⟨fault, rfl, hm⟩
    rw [loadPrimary, hfile]
    exact checked_eq_error_iff.mpr
      ⟨fault, Schema.extract_of_malformed hfault hmissing q'.required, rfl⟩

/-- The query decides which files are too short and nothing else. A loaded record has every field
that its query requires. Records loaded for both queries are equal. If a trial is loaded for one
query but not for another one, the line of a field required there is missing. And unless that is
what is wrong with it, a results file fails in the same way for every query. -/
theorem load_eq_or_missing (s : Settings) (files : Files) (trial : TrialId) :
    (∀ q r, (ofSettings s).load files q trial = .ok r → ∀ f ∈ q.required, (r.get f).isSome) ∧
    (∀ q q' r r', (ofSettings s).load files q trial = .ok r →
      (ofSettings s).load files q' trial = .ok r' → r = r') ∧
    (∀ q q' r e, (ofSettings s).load files q trial = .ok r →
      (ofSettings s).load files q' trial = .error e →
      ∃ path line f length, e = .format (.missingLine path line f length) ∧ f ∈ q'.required) ∧
    (∀ q q' e, (ofSettings s).loadPrimary files q trial = .error e →
      (∃ path fault, e = .unreadable path fault) ∨
        (∃ path line expected found, e = .format (.malformed path line expected found)) →
      (ofSettings s).loadPrimary files q' trial = .error e ∧
        (ofSettings s).load files q' trial = .error e) := by
  refine ⟨fun q r h f hf => isSome_get_of_load h hf, fun q q' r r' h h' => ?_,
    fun q q' r e h h' => ?_, fun q q' e h he => ?_⟩
  · rcases load_of_ok h q' with hsame | ⟨fault, herror, -⟩
    · rw [hsame] at h'
      exact Except.ok.inj h'
    · rw [herror] at h'
      cases h'
  · rcases load_of_ok h q' with hsame | ⟨fault, herror, path, line, f, length, rfl, hf⟩
    · rw [hsame] at h'
      cases h'
    · rw [herror] at h'
      exact ⟨path, line, f, length, (Except.error.inj h').symm, hf⟩
  · have hother : (ofSettings s).loadPrimary files q' trial = .error e := by
      refine loadPrimary_of_error h ?_ q'
      rintro ⟨_, rfl, _, _, _, _, rfl, -⟩
      simp at he
    exact ⟨hother, load_of_loadPrimary_error hother⟩

/-- A results file that ends behind its first phase is enough for the first query only. A line that
does not hold what it should fails for both queries, also in a file that is too short for one. -/
theorem load_of_short_results :
    let s : Settings := { primary := ⟨0, 1, 2, 3, 4, 5⟩, log := { threshold := ⟨0, 1, 2⟩ } }
    let trial : TrialId := ⟨⟨.threshold, 5⟩, 0⟩
    let view (results : String) : Files := .ofRead fun path => .ok (String.toUTF8
      (if path = "results/t-5-0" then results
        else "rs_nblocks = 9\nrs_nblocks = 8\nrs_nblocks = 7\n"))
    let whole := view "1.5|37\nTime: 0.25 ms\n2.0|1\nTime: 1.0 ms\n12\nTime: 3.0 ms\n"
    let short := view "1.5|37\nTime: 0.25 ms\n"
    let wrong := view "1.5|37\nElapsed: 0.25 ms\n"
    (∃ r r', (ofSettings s).load whole .one trial = .ok r ∧
      (ofSettings s).load whole .three trial = .ok r' ∧ r = r' ∧
      ∀ f ∈ Query.one.required, (r.get f).isSome) ∧
    (∃ r e, (ofSettings s).load short .one trial = .ok r ∧
      (ofSettings s).load short .three trial = .error e ∧
      ∃ path line f length, e = .format (.missingLine path line f length) ∧
        f ∈ Query.three.required) ∧
    ∃ e, (ofSettings s).loadPrimary wrong .one trial = .error e ∧
      (ofSettings s).loadPrimary wrong .three trial = .error e ∧
      (ofSettings s).load wrong .three trial = .error e := by
  intro s trial view whole short wrong
  have hloader := ofSettings_of_pairwise (s := s) (by decide)
  have hwhole (q : Query) : ((ofSettings s).load whole q trial).map (fun _ => ()) = .ok () := by
    rw [hloader]
    cases q <;> decide +kernel
  have hone : ((ofSettings s).load short .one trial).map (fun _ => ()) = .ok () := by
    rw [hloader]
    decide +kernel
  have hthree : ((ofSettings s).load short .three trial).map (fun _ => ()) =
      .error (.format (.missingLine "results/t-5-0" 4 .count3 2)) := by
    rw [hloader]
    decide +kernel
  have hwrong : ((ofSettings s).loadPrimary wrong .one trial).map (fun _ => ()) =
      .error (.format (.malformed "results/t-5-0" 1 "'Time: <number> ms'" "Elapsed: 0.25 ms")) := by
    rw [hloader]
    decide +kernel
  refine ⟨?_, ?_, ?_⟩
  · obtain ⟨hrequired, hequal, -, -⟩ := load_eq_or_missing s whole trial
    obtain ⟨r, hr, -⟩ := map_eq_ok_iff.mp (hwhole .one)
    obtain ⟨r', hr', -⟩ := map_eq_ok_iff.mp (hwhole .three)
    exact ⟨r, r', hr, hr', hequal .one .three r r' hr hr', hrequired .one r hr⟩
  · obtain ⟨-, -, hmissing, -⟩ := load_eq_or_missing s short trial
    obtain ⟨r, hr, -⟩ := map_eq_ok_iff.mp hone
    have he := map_eq_error_iff.mp hthree
    exact ⟨r, _, hr, he, hmissing .one .three r _ hr he⟩
  · obtain ⟨-, -, -, hsame⟩ := load_eq_or_missing s wrong trial
    have he := map_eq_error_iff.mp hwrong
    exact ⟨_, he, hsame .one .three _ he (.inr ⟨_, _, _, _, rfl⟩)⟩

end TrialSummary.Loader
