import Mathlib.Data.List.Nodup
import TrialSummary.Proofs.Extraction.Outcome
import TrialSummary.Proofs.Extraction.Results

/-!
# Schemas in the order of the lines

A schema may be given in any order, because it is sorted by the lines. Sorting is stable, so forms
on one line stay in the order in which they were given; if no two forms share a line, the order of
the placements does not matter at all.

The order of the lines decides which failure is reported. The first faulty placement is the one with
the least line of all faulty ones. And a line that is not there has none behind it that is, so a
missing line is reported only if every line that is there holds what it should.
-/

namespace TrialSummary

namespace Placement

/-- The placements in the order of the lines, those on one line in the order in which they were
given. -/
structure StablySorted (ps sorted : List Placement) : Prop where
  perm : sorted.Perm ps
  ordered : sorted.Pairwise fun a b => a.offset ≤ b.offset
  stable : ∀ offset, sorted.filter (fun p => p.offset = offset) =
    ps.filter fun p => p.offset = offset

theorem atOrBefore_trans (a b c : Placement) (hab : a.atOrBefore b = true)
    (hbc : b.atOrBefore c = true) : a.atOrBefore c = true := by
  simp only [atOrBefore, decide_eq_true_eq] at *
  omega

theorem atOrBefore_total (a b : Placement) : (a.atOrBefore b || b.atOrBefore a) = true := by
  simp only [atOrBefore, Bool.or_eq_true, decide_eq_true_eq]
  omega

theorem values_rule_of_avgCount {p : Placement} {avg count : Field}
    (hform : p.form = .avgCount avg count) (file : TextFile) :
    p.rule.values file = [] ∨
      ∃ x n, p.rule.values file = [(avg, .measure x), (count, .count n)] := by
  simp only [LineRule.values, rule, hform]
  cases file.lines[p.offset]? with
  | none => exact .inl rfl
  | some line =>
    rw [Option.bind_some]
    cases hparse : (LineForm.avgCount avg count).parse? line with
    | none => exact .inl rfl
    | some vs =>
      obtain ⟨_, _, _, x, n, -, -, -, rfl⟩ := LineForm.parse?_avgCount_eq_some_iff.mp hparse
      exact .inr ⟨x, n, rfl⟩

end Placement

namespace Schema

variable {ps : List Placement} {file : TextFile} {required : List Field} {r : Record}

theorem stablySorted_ofPlacements (ps : List Placement) :
    Placement.StablySorted ps (ofPlacements ps).placements where
  perm := List.mergeSort_perm ps Placement.atOrBefore
  ordered := (ofPlacements ps).ordered.imp of_decide_eq_true
  stable := by
    intro offset
    have hperm : (ofPlacements ps).placements.Perm ps := List.mergeSort_perm ps Placement.atOrBefore
    -- placements on one line are in order as they are given, so sorting keeps them as they are
    have hline : (ps.filter fun p => p.offset = offset).Pairwise
        fun a b => a.atOrBefore b = true := by
      apply List.pairwise_of_forall_mem_list
      intro a ha b hb
      have ha' : a.offset = offset := of_decide_eq_true (List.mem_filter.mp ha).2
      have hb' : b.offset = offset := of_decide_eq_true (List.mem_filter.mp hb).2
      exact decide_eq_true (Nat.le_of_eq (ha'.trans hb'.symm))
    have hsub : (ps.filter fun p => p.offset = offset).Sublist (ofPlacements ps).placements :=
      List.sublist_mergeSort Placement.atOrBefore_trans Placement.atOrBefore_total hline
        List.filter_sublist
    have hfilter := hsub.filter fun p => decide (p.offset = offset)
    rw [List.filter_filter] at hfilter
    simp only [Bool.and_self] at hfilter
    exact (hfilter.eq_of_length (hperm.filter _).length_eq.symm).symm

/-- Placements on different lines make the same schema in any order. -/
theorem ofPlacements_eq_of_perm {ps' : List Placement} (hperm : ps'.Perm ps)
    (hdistinct : (ps.map Placement.offset).Nodup) : ofPlacements ps' = ofPlacements ps := by
  have hsorted := stablySorted_ofPlacements ps
  have hsorted' := stablySorted_ofPlacements ps'
  have hsame : ∀ a b, a ∈ (ofPlacements ps').placements → b ∈ (ofPlacements ps).placements →
      a.offset ≤ b.offset → b.offset ≤ a.offset → a = b := by
    intro a b ha hb hab hba
    have ha' : a ∈ ps := hperm.mem_iff.mp (hsorted'.perm.mem_iff.mp ha)
    have hb' : b ∈ ps := hsorted.perm.mem_iff.mp hb
    exact List.inj_on_of_nodup_map hdistinct ha' hb' (Nat.le_antisymm hab hba)
  have hplacements : (ofPlacements ps').placements = (ofPlacements ps).placements :=
    List.Perm.eq_of_pairwise hsame hsorted'.ordered hsorted.ordered
      (hsorted'.perm.trans (hperm.trans hsorted.perm.symm))
  simpa only [ofPlacements, mk.injEq] using hplacements

section FirstFaulty

variable {before after : List Placement} {p : Placement}

/-- No faulty placement is on an earlier line than the first one. -/
theorem offset_le_of_faulty
    (hordered : (before ++ p :: after).Pairwise fun a b => a.offset ≤ b.offset)
    (hbefore : ∀ b ∈ before, ¬b.rule.Faulty file required) {p' : Placement}
    (hmem : p' ∈ before ++ p :: after) (hfaulty : p'.rule.Faulty file required) :
    p.offset ≤ p'.offset := by
  obtain ⟨-, hrest, -⟩ := List.pairwise_append.mp hordered
  rcases List.mem_append.mp hmem with hmem | hmem
  · exact absurd hfaulty (hbefore p' hmem)
  · rcases List.mem_cons.mp hmem with rfl | hmem
    · exact Nat.le_refl _
    · exact List.rel_of_pairwise_cons hrest hmem

/-- If the first faulty line is missing, all lines that are there hold what they should. -/
theorem not_malformed_of_missing
    (hordered : (before ++ p :: after).Pairwise fun a b => a.offset ≤ b.offset)
    (hbefore : ∀ b ∈ before, ¬b.rule.Faulty file required)
    (hend : file.lines.length ≤ p.offset) {p' : Placement} (hmem : p' ∈ before ++ p :: after) :
    ¬p'.rule.Malformed file := by
  intro hmalformed
  have hle := offset_le_of_faulty hordered hbefore hmem (.inl hmalformed)
  obtain ⟨line, hline, -⟩ := hmalformed
  have hlt : p'.offset < file.lines.length := (List.getElem?_eq_some_iff.mp hline).1
  omega

end FirstFaulty

/-- What an extraction by any placements does: they are stably sorted by their lines, and then
either none of them is faulty and the values of all lines that are there are stored in this order,
or the first faulty one is reported and those in front of it are stored. The reported line is the
least of all faulty ones, and it is missing only if no line is malformed. A line of averages is
stored as a whole or not at all. Placements on different lines may be given in any order, and
requiring more fields keeps every failure a failure and the record of every success. -/
theorem extract_ofPlacements (ps : List Placement) (file : TextFile) (required : List Field)
    (r : Record) :
    let sorted := (ofPlacements ps).placements
    let extraction := (ofPlacements ps).extract file required r
    Placement.StablySorted ps sorted ∧
    (((∀ p ∈ sorted, ¬p.rule.Faulty file required) ∧
        extraction = ⟨r.setAll (sorted.flatMap fun p => p.rule.values file), none⟩) ∨
      ∃ before p after e, sorted = before ++ p :: after ∧
        (∀ b ∈ before, ¬b.rule.Faulty file required) ∧ p.rule.Reports file required e ∧
        extraction = ⟨r.setAll (before.flatMap fun b => b.rule.values file), some e⟩ ∧
        (∀ p' ∈ sorted, p'.rule.Faulty file required → p.offset ≤ p'.offset) ∧
        (∀ path line f length, e = .missingLine path line f length →
          ∀ p' ∈ sorted, ¬p'.rule.Malformed file)) ∧
    (∀ p ∈ sorted, ∀ avg count, p.form = .avgCount avg count → p.rule.values file = [] ∨
      ∃ x n, p.rule.values file = [(avg, .measure x), (count, .count n)]) ∧
    (∀ ps' : List Placement, ps'.Perm ps → (ps.map Placement.offset).Nodup →
      (ofPlacements ps').extract file required r = extraction) ∧
    (∀ required' s, required ⊆ required' →
      (ofPlacements ps).extract file required' r = ⟨s, none⟩ → extraction = ⟨s, none⟩) := by
  intro sorted extraction
  have hsorted := stablySorted_ofPlacements ps
  refine ⟨hsorted, ?_, fun p _ _ _ hform => p.values_rule_of_avgCount hform file, ?_, ?_⟩
  · obtain hsound | ⟨before, p, after, e, hsplit, hbefore, hreports, hfill⟩ :=
      Extraction.fill_rules Placement.rule sorted file required r
    · exact .inl hsound
    · have hordered := hsorted.ordered
      have hmem : ∀ p' ∈ sorted, p' ∈ before ++ p :: after := fun p' hp' => hsplit ▸ hp'
      rw [show (ofPlacements ps).placements = before ++ p :: after from hsplit] at hordered
      refine .inr ⟨before, p, after, e, hsplit, hbefore, hreports, hfill, ?_, ?_⟩
      · intro p' hp' hfaulty
        exact offset_le_of_faulty hordered hbefore (hmem p' hp') hfaulty
      · rintro path line f length rfl p' hp'
        cases hreports with
        | missing hend _ => exact not_malformed_of_missing hordered hbefore hend (hmem p' hp')
  · intro ps' hperm hdistinct
    rw [ofPlacements_eq_of_perm hperm hdistinct]
  · intro required' s hsubset hsuccess
    exact Extraction.fill_rules_of_subset Placement.rule hsubset hsuccess

/-- A file that ends in front of its last placed line: the line of averages is stored as a whole, a
success keeps its record if more fields on the lines that are there are required, and the missing
line is reported for placements in any order if its field is required. -/
theorem extract_of_short_file :
    let row : Placement := ⟨0, .avgCount .avg1 .count1⟩
    let time : Placement := ⟨1, .time .time1⟩
    let count : Placement := ⟨2, .count .count3⟩
    let file : TextFile := ⟨"results/t-5-0", ["1.5|37", "Time: 0.25 ms"]⟩
    let r := Record.empty ⟨⟨.threshold, 5⟩, 0⟩
    (∃ x n, row.rule.values file = [(.avg1, .measure x), (.count1, .count n)]) ∧
    (∃ s, (ofPlacements [row, time, count]).extract file [.time1, .avg1] r = ⟨s, none⟩ ∧
      (ofPlacements [row, time, count]).extract file [.time1] r = ⟨s, none⟩) ∧
    [count, time, row].Perm [row, time, count] ∧
    ((ofPlacements [count, time, row]).extract file [.count3] r).error? =
      some (.missingLine "results/t-5-0" 2 .count3 2) := by
  intro row time count file r
  have hschema : ofPlacements [row, time, count] = ⟨[row, time, count], by decide⟩ :=
    ofPlacements_of_pairwise _
  have hperm : [count, time, row].Perm [row, time, count] := by decide
  obtain ⟨-, -, hwhole, -, hfewer⟩ := extract_ofPlacements [row, time, count] file [.time1] r
  obtain ⟨-, -, -, hsame, -⟩ := extract_ofPlacements [row, time, count] file [.count3] r
  refine ⟨?_, ?_, hperm, ?_⟩
  · have hmem : row ∈ (ofPlacements [row, time, count]).placements := by simp [hschema]
    exact (hwhole row hmem .avg1 .count1 rfl).resolve_left (by decide +kernel)
  · have hmore : (ofPlacements [row, time, count]).extract file [.time1, .avg1] r =
        ⟨((ofPlacements [row, time, count]).extract file [.time1, .avg1] r).record, none⟩ := by
      rw [hschema]
      rfl
    exact ⟨_, hmore, hfewer _ _ (by decide) hmore⟩
  · rw [hsame [count, time, row] hperm (by decide), hschema]
    decide +kernel

end Schema

end TrialSummary
