import Mathlib.Data.List.Nodup
import TrialSummary.Proofs.Trial.Identity
import TrialSummary.Run.Reports

/-!
# The names of the files of trials

No two trials have the same results file, and no two have the same log. A log has the name of a
results file exactly if what is written behind the trial in its name goes on with the trial number:
that takes a suffix of digits, and of not more digits than a number of the range has room for behind
its first one. The suffix of a log is not checked when settings are read, so both can happen.
-/

namespace TrialSummary

theorem joinPath_injective (dir : String) : Function.Injective (joinPath dir) := by
  intro a b h
  unfold joinPath at h
  split at h
  · exact (String.append_right_inj dir).mp h
  · exact (String.append_right_inj _).mp h

namespace TrialFiles

variable {d : TrialFiles} {t u : TrialId}

theorem resultsFile_injective (d : TrialFiles) : Function.Injective d.resultsFile := by
  intro t u h
  exact TrialId.text_injective (joinPath_injective d.root h)

theorem logFile_injective (d : TrialFiles) : Function.Injective d.logFile := by
  intro t u h
  have htext := joinPath_injective d.root h
  exact TrialId.text_injective ((String.append_left_inj d.logSuffix).mp htext)

/-- A results file has the name of a log if it is of the same configuration and its number is that
of the log with the suffix behind it. -/
theorem resultsFile_eq_logFile_iff :
    d.resultsFile t = d.logFile u ↔
      t.config = u.config ∧
        (numberText t.db).toList = (numberText u.db).toList ++ d.logSuffix.toList := by
  have htext : d.resultsFile t = d.logFile u ↔
      t.text.toList ++ [] = u.text.toList ++ d.logSuffix.toList := by
    rw [resultsFile, logFile, (joinPath_injective d.root).eq_iff, ← String.toList_inj,
      String.toList_append, List.append_nil]
  rw [htext, TrialId.toList_text_append_eq_iff, List.append_nil]

/-- Only a short suffix of digits lets a log have the name of a results file. -/
theorem exists_resultsFile_eq_logFile_iff :
    (∃ t u, d.resultsFile t = d.logFile u) ↔
      (∀ c ∈ d.logSuffix.toList, c.isDigit = true) ∧ d.logSuffix.length ≤ 9 := by
  rw [← String.length_toList]
  constructor
  · rintro ⟨t, u, h⟩
    obtain ⟨-, hnumber⟩ := resultsFile_eq_logFile_iff.mp h
    refine ⟨?_, ?_⟩
    · intro c hc
      apply isDigit_numberText t.db
      rw [hnumber]
      exact List.mem_append_right _ hc
    · -- the number of the log takes at least one of the ten digits
      have hlength := congrArg List.length hnumber
      rw [List.length_append] at hlength
      have hle := length_numberText_le t.db
      have hpos := length_numberText_pos u.db
      omega
  · rintro ⟨hdigits, hlength⟩
    obtain ⟨n, hn⟩ := exists_numberText_append hdigits hlength
    exact ⟨⟨⟨.threshold, 0⟩, n⟩, ⟨⟨.threshold, 0⟩, 1⟩, resultsFile_eq_logFile_iff.mpr ⟨rfl, hn⟩⟩

/-- The files of different trials are different files if no log has the name of a results file. -/
theorem nodup_both (h : ¬∃ t u, d.resultsFile t = d.logFile u) {trials : List TrialId}
    (htrials : trials.Nodup) : (trials.flatMap d.both).Nodup := by
  have hne : ∀ t u, d.resultsFile t ≠ d.logFile u := fun t u heq => h ⟨t, u, heq⟩
  rw [List.nodup_flatMap]
  refine ⟨?_, ?_⟩
  · intro t _
    simp [both, hne]
  · apply htrials.imp
    intro t u htu
    have hresults : d.resultsFile u ≠ d.resultsFile t := d.resultsFile_injective.ne htu.symm
    have hlog : d.logFile u ≠ d.logFile t := d.logFile_injective.ne htu.symm
    simp [Function.onFun, both, hresults, hlog, hne, (hne t u).symm]

/-- Among results files and among logs, each trial has a name of its own. A log has the name of a
results file for some trials exactly if its suffix consists of at most nine digits, as the empty one
does. With anything else than digits in the suffix, the files of any trials are all different. -/
theorem paths_collide_iff (d : TrialFiles) :
    Function.Injective d.resultsFile ∧ Function.Injective d.logFile ∧
    ((∃ t u, d.resultsFile t = d.logFile u) ↔
      (∀ c ∈ d.logSuffix.toList, c.isDigit = true) ∧ d.logSuffix.length ≤ 9) ∧
    ((∃ c ∈ d.logSuffix.toList, c.isDigit = false) →
      ∀ trials : List TrialId, trials.Nodup → (trials.flatMap d.both).Nodup) := by
  refine ⟨d.resultsFile_injective, d.logFile_injective, exists_resultsFile_eq_logFile_iff, ?_⟩
  rintro ⟨c, hc, hdigit⟩ trials htrials
  apply nodup_both _ htrials
  rw [exists_resultsFile_eq_logFile_iff]
  rintro ⟨hdigits, -⟩
  rw [hdigits c hc] at hdigit
  cases hdigit

/-- With the suffix `7` the log of trial 3 is the results file of trial 37, and with ten digits no
log is a results file. With the suffix `-log` the files of these two trials are four. -/
theorem paths_collide_of_digit_suffix :
    let t : TrialId := ⟨⟨.threshold, 50⟩, 37⟩
    let u : TrialId := ⟨⟨.threshold, 50⟩, 3⟩
    (TrialFiles.mk "results" "7").resultsFile t = (TrialFiles.mk "results" "7").logFile u ∧
      (¬∃ t u, (TrialFiles.mk "results" "0123456789").resultsFile t =
        (TrialFiles.mk "results" "0123456789").logFile u) ∧
      ([t, u].flatMap (TrialFiles.mk "results" "-log").both).Nodup := by
  intro t u
  obtain ⟨-, -, hcollide, -⟩ := paths_collide_iff ⟨"results", "0123456789"⟩
  obtain ⟨-, -, -, hdifferent⟩ := paths_collide_iff ⟨"results", "-log"⟩
  refine ⟨by decide, ?_, hdifferent ⟨'-', by decide, by decide⟩ [t, u] (by decide)⟩
  intro h
  exact absurd (hcollide.mp h).2 (by decide)

end TrialFiles

end TrialSummary
