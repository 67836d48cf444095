import TrialSummary.Proofs.Report.ReadBack
import TrialSummary.Proofs.Report.UnevenRows

/-!
# The framing of a report

Rows of the width of the header are all taken, so a report of records, or of summaries with a value
for each column, is the header and a line for each row. No cell of these lines is quoted and none
contains a delimiter or a line feed: cutting the text at the line feeds and the lines at the
delimiters gives back the header and the rows, so a report is the report of no other rows.
-/

namespace TrialSummary.ReportDraft

/-- The report of some rows takes its header and all of them, and it can be taken apart again. -/
structure Framed (kind : ReportKind) (q : Query) (rows : List (List String)) : Prop where
  header_taken : ((new kind q).out.write (kind.header q)).2 = none
  taken : ((new kind q).writeAll rows).2 = rows.map fun _ => none
  rows_eq : ((new kind q).writeAll rows).1.finish.rows = rows.length
  text_eq : ((new kind q).writeAll rows).1.finish.text =
    tableText kind.delimiter (kind.header q :: rows)
  readTable_eq : readTable kind.delimiter ((new kind q).writeAll rows).1.finish.text =
    kind.header q :: rows
  /-- Nothing is behind the last line feed. -/
  last_piece : (((new kind q).writeAll rows).1.finish.text.toList.splitOn '\n').getLast? = some []

variable {kind : ReportKind} {q : Query} {rows : List (List String)}

/-- A report takes all rows of the width of its header. -/
theorem finish_writeAll_of_reportRow (h : ∀ cells ∈ rows, ReportRow kind q cells) :
    ((new kind q).writeAll rows).1.finish = after kind q rows ∧
      ((new kind q).writeAll rows).2 = rows.map fun _ => none := by
  have hwide : ∀ cells ∈ rows,
      2 ≤ cells.length ∧ ∀ cell ∈ cells, PlainCell kind.delimiter cell := by
    intro cells hcells
    have hlength := kind.one_lt_length_header q
    rw [← (h cells hcells).length_eq] at hlength
    exact ⟨hlength, (h cells hcells).plain⟩
  obtain ⟨hfinish, htaken⟩ := finish_writeAll_new (q := q) hwide
  have hledger := Ledger.addAll_of_length_eq (fun cells hcells => (h cells hcells).length_eq) []
  rw [hfinish, htaken, hledger, after_eq_ofLedger, List.nil_append]
  exact ⟨rfl, rfl⟩

theorem framed_of_reportRow (h : ∀ cells ∈ rows, ReportRow kind q cells) : Framed kind q rows := by
  obtain ⟨hfinish, htaken⟩ := finish_writeAll_of_reportRow h
  have hdelimiter : kind.delimiter ≠ '\n' := by
    cases kind <;> decide
  have hplain : ∀ row ∈ kind.header q :: rows, PlainRow kind.delimiter row := by
    have hrows : ∀ row ∈ rows, PlainRow kind.delimiter row := fun row hrow => (h row hrow).plainRow
    exact List.forall_mem_cons.mpr ⟨(kind.reportRow_header q).plainRow, hrows⟩
  refine ⟨?_, htaken, ?_, ?_, ?_, ?_⟩
  · have hlength := kind.one_lt_length_header q
    rw [Delimited.write_plain rfl rfl (by omega) (kind.reportRow_header q).plain]
  · rw [hfinish, rows_after]
  · rw [hfinish, text_after]
  · rw [hfinish, text_after, readTable_tableText hdelimiter hplain]
  · rw [hfinish, text_after, splitOn_tableText hdelimiter hplain, List.getLast?_concat]

/-- A report of any records, and one of any summaries with a value for each column, takes its header
and all rows and is read back as these. -/
theorem framed_of_records_and_summaries (q : Query) :
    (∀ records : List Record, Framed .trial q (records.map fun r => r.row q)) ∧
    ∀ summaries : List Summary, (∀ s ∈ summaries, s.values.length = q.columns.length) →
      Framed .summary q (summaries.map Summary.row) := by
  refine ⟨?_, ?_⟩
  · intro records
    apply framed_of_reportRow
    intro cells hcells
    obtain ⟨r, -, rfl⟩ := List.mem_map.mp hcells
    exact r.reportRow q
  · intro summaries hvalues
    apply framed_of_reportRow
    intro cells hcells
    obtain ⟨s, hs, rfl⟩ := List.mem_map.mp hcells
    exact s.reportRow (hvalues s hs)

/-- A record without values and a summary with zeros of both signs. -/
theorem framed_of_unset_record_and_signed_zeros :
    let summary : Summary := ⟨⟨.probabilistic, 50⟩,
      [Binary64.zero true, Binary64.zero false, Binary64.zero true, Binary64.zero false]⟩
    Framed .trial .three [(Record.empty ⟨⟨.threshold, 5⟩, 0⟩).row .three] ∧
      Framed .summary .one [summary.row] ∧
      ((new .summary .one).writeAll [summary.row]).1.finish.text =
        "type\trate\ttime\t#page requests\ttuple count\tavg\np\t50\t-0.0\t0.0\t-0.0\t0.0\n" := by
  intro summary
  have hvalues : ∀ s ∈ [summary], s.values.length = Query.one.columns.length := by simp [summary]
  obtain ⟨htrials, -⟩ := framed_of_records_and_summaries .three
  obtain ⟨-, hsummaries⟩ := framed_of_records_and_summaries .one
  have hframed : Framed .summary .one [summary.row] := hsummaries [summary] hvalues
  refine ⟨htrials [Record.empty ⟨⟨.threshold, 5⟩, 0⟩], hframed, ?_⟩
  rw [hframed.text_eq]
  decide +kernel

end TrialSummary.ReportDraft
