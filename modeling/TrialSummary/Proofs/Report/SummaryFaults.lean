import TrialSummary.Proofs.Report.Batches

/-!
# Faults of batches

Summarizing goes through the batches, in a batch through the columns, and for a column through the
records, and it ends with the first fault. A batch has at most one fault that counts: it is empty,
or there is a first column that some record lacks, and then a first record that lacks it. So either
all batches are complete, and each has a statistic for every column, or the fault of the first batch
that is not is the answer.
-/

namespace TrialSummary.Batch

/-- There are records, and each has a value for each column. -/
def Complete (q : Query) (b : Batch) : Prop :=
  b.records ≠ [] ∧ ∀ c ∈ q.columns, ∀ r ∈ b.records, (r.get c.field).isSome

/-- What is said about a batch that cannot be summarized. -/
inductive Fault (q : Query) (b : Batch) : SummaryError → Prop where
  /-- No record decides anything, so only the configuration is known. -/
  | empty (hrecords : b.records = []) : Fault q b (.emptyBatch b.config)
  /-- The columns count before the records: an earlier record may lack a later column. -/
  | unset {before after : List Column} {c : Column} {front back : List Record} {r : Record}
      (hcolumns : q.columns = before ++ c :: after)
      (hbefore : ∀ d ∈ before, ∀ s ∈ b.records, (s.get d.field).isSome)
      (hrecords : b.records = front ++ r :: back)
      (hfront : ∀ s ∈ front, (s.get c.field).isSome)
      (hunset : r.get c.field = none) : Fault q b (.unset r.trial c.field)

section

variable {q : Query} {b : Batch} {rs : List Record} {f : Field} {e : SummaryError}

theorem exists_fieldValues_iff :
    (∃ xs, fieldValues rs f = .ok xs) ↔ ∀ r ∈ rs, (r.get f).isSome := by
  constructor
  · rintro ⟨xs, hxs⟩ r hr
    obtain ⟨vs, hvs, -⟩ := fieldValues_eq_ok_iff.mp hxs
    have hvalue := exists_forall₂_iff.mp ⟨vs, map_eq_map_some_iff.mp hvs⟩ r hr
    exact Option.isSome_iff_exists.mpr hvalue
  · intro h
    obtain ⟨vs, hvs⟩ := exists_values h
    exact ⟨_, fieldValues_eq_ok_iff.mpr ⟨vs, hvs, rfl⟩⟩

/-- The first record without a value is the one that is named. -/
theorem fieldValues_eq_error_iff :
    fieldValues rs f = .error e ↔
      ∃ front r back, rs = front ++ r :: back ∧ (∀ s ∈ front, (s.get f).isSome) ∧
        r.get f = none ∧ e = .unset r.trial f := by
  have hfront (front : List Record) : (∃ xs, fieldValues front f = .ok xs) ↔
      ∀ s ∈ front, (s.get f).isSome := exists_fieldValues_iff
  simp only [fieldValues, mapM_eq_ok_iff] at hfront
  rw [fieldValues, mapM_eq_error_iff]
  constructor
  · rintro ⟨front, r, back, hrs, hvalues, hr⟩
    refine ⟨front, r, back, hrs, (hfront front).mp hvalues, ?_⟩
    cases hget : r.get f with
    | some v => simp [hget] at hr
    | none => exact ⟨rfl, by simpa [hget] using hr.symm⟩
  · rintro ⟨front, r, back, hrs, hvalues, hunset, rfl⟩
    exact ⟨front, r, back, hrs, (hfront front).mpr hvalues, by simp [hunset]⟩

theorem exists_summarize_iff : (∃ s, summarize q b = .ok s) ↔ Complete q b := by
  constructor
  · rintro ⟨s, hs⟩
    obtain ⟨hrecords, -, hvalues⟩ := summarize_eq_ok_iff.mp hs
    refine ⟨hrecords, fun c hc => ?_⟩
    obtain ⟨x, vs, hvs, -⟩ := exists_forall₂_iff.mp ⟨_, hvalues⟩ c hc
    exact exists_fieldValues_iff.mp ⟨_, fieldValues_eq_ok_iff.mpr ⟨vs, hvs, rfl⟩⟩
  · rintro ⟨hrecords, h⟩
    exact exists_summarize hrecords h

theorem summarize_eq_error_iff : summarize q b = .error e ↔ Fault q b e := by
  rw [summarize]
  by_cases hrecords : b.records = []
  · rw [if_pos (by simpa using hrecords)]
    constructor
    · intro h
      cases h
      exact .empty hrecords
    · rintro (_ | ⟨-, -, hsplit, -, -⟩)
      · rfl
      · simp [hrecords] at hsplit
  · rw [if_neg (by simpa using hrecords), map_eq_error_iff, mapM_eq_error_iff]
    have hcolumns (cs : List Column) :
        (∃ xs, Results (fun c => (fieldValues b.records c.field).map (reduce c.statistic)) cs xs) ↔
          ∀ c ∈ cs, ∀ s ∈ b.records, (s.get c.field).isSome := by
      rw [exists_forall₂_iff]
      refine forall₂_congr fun c _ => ?_
      rw [← exists_fieldValues_iff]
      simp [map_eq_ok_iff]
    constructor
    · rintro ⟨before, c, after, hsplit, hbefore, hc⟩
      obtain ⟨front, r, back, hrs, hfront, hunset, rfl⟩ :=
        fieldValues_eq_error_iff.mp (map_eq_error_iff.mp hc)
      exact .unset hsplit ((hcolumns before).mp hbefore) hrs hfront hunset
    · rintro (hempty | ⟨hsplit, hbefore, hrs, hfront, hunset⟩)
      · exact absurd hempty hrecords
      · refine ⟨_, _, _, hsplit, (hcolumns _).mpr hbefore, map_eq_error_iff.mpr ?_⟩
        exact fieldValues_eq_error_iff.mpr ⟨_, _, _, hrs, hfront, hunset, rfl⟩

end

/-- Summaries of batches exist exactly if every batch is complete. There is one for each batch, in
their order, and it has a value for each column, which is the statistic of the values of all
records. Otherwise the answer is the fault of the first batch that is not complete. -/
theorem summarizeAll_outcome (q : Query) (bs : List Batch) :
    ((∃ ss, summarizeAll q bs = .ok ss) ↔ ∀ b ∈ bs, Complete q b) ∧
    (∀ ss, summarizeAll q bs = .ok ss ↔
      List.Forall₂ (fun b s => b.records ≠ [] ∧ s.config = b.config ∧
        List.Forall₂ (fun c x => c.Reduces b.records x) q.columns s.values) bs ss) ∧
    (∀ e, summarizeAll q bs = .error e ↔
      ∃ before b after, bs = before ++ b :: after ∧ (∀ g ∈ before, Complete q g) ∧
        Fault q b e) := by
  simp only [summarizeAll, mapM_eq_ok_iff, mapM_eq_error_iff]
  have hcomplete (gs : List Batch) :
      (∃ ss, Results (summarize q) gs ss) ↔ ∀ g ∈ gs, Complete q g := by
    simp only [exists_forall₂_iff, exists_summarize_iff]
  refine ⟨hcomplete bs, fun ss => ?_, fun e => ?_⟩
  · simp only [Results, summarize_eq_ok_iff]
  · simp only [FirstFailure, hcomplete, summarize_eq_error_iff]

/-- The first column counts although an earlier record lacks a later one. -/
example :
    let config : Configuration := ⟨.threshold, 10⟩
    let gap : Record := (Record.empty ⟨config, 0⟩).set .time1 (.count 5)
    summarizeAll .one [⟨config, [gap, .empty ⟨config, 1⟩]⟩, ⟨config, []⟩] =
      .error (.unset ⟨config, 1⟩ .time1) := by
  decide

end TrialSummary.Batch
