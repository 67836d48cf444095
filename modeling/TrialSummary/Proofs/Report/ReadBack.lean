import TrialSummary.Proofs.Report.Table

/-!
# Reading a table back

A table of plain cells is read back by cutting its text at the line feeds and each line at the
delimiter. Behind the last line feed there is nothing more, so the last piece is left out.
-/

namespace TrialSummary

/-- The rows of a text, of which each ends with a line feed. -/
def readTable (delimiter : Char) (text : String) : List (List String) :=
  (text.toList.splitOn '\n').dropLast.map fun line => (line.splitOn delimiter).map String.ofList

namespace PlainCell

variable {delimiter : Char} {cell : String}

theorem notMem (h : PlainCell delimiter cell) {c : Char} (hc : c = delimiter ∨ c = '\n') :
    c ∉ cell.toList := by
  unfold PlainCell Delimited.needsQuotes at h
  rw [Bool.false_and, Bool.false_or, List.any_eq_false] at h
  intro hmem
  have hplain := h c hmem
  rcases hc with rfl | rfl <;> simp at hplain

end PlainCell

/-- A row whose line is read back: it has cells, and all of them are plain. -/
def PlainRow (delimiter : Char) (row : List String) : Prop :=
  row ≠ [] ∧ ∀ cell ∈ row, PlainCell delimiter cell

theorem ReportRow.plainRow {kind : ReportKind} {q : Query} {cells : List String}
    (h : ReportRow kind q cells) : PlainRow kind.delimiter cells := by
  refine ⟨?_, h.plain⟩
  intro hnil
  have hlength := kind.one_lt_length_header q
  rw [← h.length_eq, hnil] at hlength
  exact absurd hlength (by decide)

namespace PlainRow

variable {delimiter : Char} {row : List String}

theorem feed_notMem (h : PlainRow delimiter row) (hdelimiter : delimiter ≠ '\n') :
    '\n' ∉ [delimiter].intercalate (row.map String.toList) := by
  obtain ⟨-, hplain⟩ := h
  induction row with
  | nil => exact List.not_mem_nil
  | cons cell row ih =>
    have hcell := (hplain cell List.mem_cons_self).notMem (.inr rfl)
    have hrest := ih fun c hc => hplain c (List.mem_cons_of_mem _ hc)
    cases row with
    | nil => simpa using hcell
    | cons next row =>
      rw [List.map_cons, List.map_cons, List.intercalate_cons_cons]
      simp only [List.mem_append, List.mem_singleton, not_or]
      exact ⟨⟨hcell, hdelimiter.symm⟩, hrest⟩

theorem splitOn_line (h : PlainRow delimiter row) :
    (([delimiter].intercalate (row.map String.toList)).splitOn delimiter).map String.ofList =
      row := by
  have hcells : ∀ cell ∈ row.map String.toList, delimiter ∉ cell := by
    intro cell hcell
    obtain ⟨c, hc, rfl⟩ := List.mem_map.mp hcell
    exact (h.2 c hc).notMem (.inl rfl)
  rw [List.splitOn_intercalate delimiter hcells (by simpa using h.1), List.map_map]
  simp

end PlainRow

theorem toList_rowLine (delimiter : Char) (row : List String) :
    (rowLine delimiter row).toList = [delimiter].intercalate (row.map String.toList) ++ ['\n'] := by
  simp [rowLine]

/-- The pieces of a table between its line feeds are its lines, and nothing is behind the last. -/
theorem splitOn_tableText {delimiter : Char} (hdelimiter : delimiter ≠ '\n')
    {rows : List (List String)} (h : ∀ row ∈ rows, PlainRow delimiter row) :
    (tableText delimiter rows).toList.splitOn '\n' =
      rows.map (fun row => [delimiter].intercalate (row.map String.toList)) ++ [[]] := by
  induction rows with
  | nil => simp
  | cons row rows ih =>
    have hrow := h row List.mem_cons_self
    have hrest := ih fun r hr => h r (List.mem_cons_of_mem _ hr)
    rw [tableText_cons, String.toList_append, toList_rowLine, List.append_assoc,
      List.singleton_append,
      List.splitOn_append_cons_self_of_not_mem (hrow.feed_notMem hdelimiter), hrest,
      List.map_cons, List.cons_append]

theorem readTable_tableText {delimiter : Char} (hdelimiter : delimiter ≠ '\n')
    {rows : List (List String)} (h : ∀ row ∈ rows, PlainRow delimiter row) :
    readTable delimiter (tableText delimiter rows) = rows := by
  rw [readTable, splitOn_tableText hdelimiter h, List.dropLast_concat, List.map_map]
  exact (List.map_congr_left fun row hrow => (h row hrow).splitOn_line).trans (List.map_id' rows)

end TrialSummary
