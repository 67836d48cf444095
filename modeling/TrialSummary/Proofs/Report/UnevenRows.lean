import TrialSummary.Proofs.Report.Table

/-!
# Rows of another width

A row that is not as wide as the header is refused, but its cells have been written by then. They
stay open: the next row goes on with them, and it is taken if the open cells and its own together
are as many as those of the header. A ledger keeps this in mind without any text, as the complete
lines and the open cells behind them, and a report of any rows can be read off its ledger.

So a refused row always leaves a trace, in the text or in what becomes of later rows, and a report
consists of the rows of the right width and says so to its caller only if all rows have that width.
-/

namespace TrialSummary

/-- The lines that are complete, and the cells of the refused rows behind them. -/
structure Ledger where
  lines : List (List String) := []
  openCells : List String := []

namespace Ledger

/-- The failure of a row: with the open cells in front of it, it does not have the right width. -/
def refusal? (width : Nat) (t : Ledger) (cells : List String) : Option WidthError :=
  if t.openCells.length + cells.length = width then none
  else some ⟨t.openCells.length + cells.length, width⟩

/-- A row completes the line of the open cells, or its cells are open as well. -/
def add (width : Nat) (t : Ledger) (cells : List String) : Ledger :=
  if t.openCells.length + cells.length = width then ⟨t.lines ++ [t.openCells ++ cells], []⟩
  else ⟨t.lines, t.openCells ++ cells⟩

/-- Rows one after the other, with the failure of each of them. -/
def addAll (width : Nat) (t : Ledger) : List (List String) → Ledger × List (Option WidthError)
  | [] => (t, [])
  | cells :: rows =>
    let rest := (t.add width cells).addAll width rows
    (rest.1, t.refusal? width cells :: rest.2)

/-- Lines with their ends, and open cells without one. -/
def text (delimiter : Char) (t : Ledger) : String :=
  tableText delimiter t.lines ++ (String.singleton delimiter).intercalate t.openCells

variable {width : Nat} {t : Ledger} {cells : List String} {rows : List (List String)}

theorem addAll_of_length_eq (h : ∀ cells ∈ rows, cells.length = width)
    (lines : List (List String)) :
    addAll width ⟨lines, []⟩ rows = (⟨lines ++ rows, []⟩, rows.map fun _ => none) := by
  induction rows generalizing lines with
  | nil => simp [addAll]
  | cons cells rows ih =>
    have hcells : cells.length = width := h cells List.mem_cons_self
    have hrest := ih (fun c hc => h c (List.mem_cons_of_mem _ hc)) (lines ++ [cells])
    simp [addAll, add, refusal?, hcells, hrest]

/-- If just the rows of the right width are taken, none of them comes behind open cells. -/
theorem addAll_of_open (hopen : t.openCells ≠ [])
    (h : (t.addAll width rows).2.map Option.isNone =
      rows.map fun cells => decide (cells.length = width)) :
    (t.addAll width rows).1 = ⟨t.lines, t.openCells ++ rows.flatten⟩ ∧
      ∀ cells ∈ rows, cells.length ≠ width := by
  induction rows generalizing t with
  | nil => simp [addAll]
  | cons cells rows ih =>
    simp only [addAll, List.map_cons, List.cons.injEq] at h ⊢
    obtain ⟨hcells, hrows⟩ := h
    have hpos : 0 < t.openCells.length := List.length_pos_iff.mpr hopen
    have hne : t.openCells.length + cells.length ≠ width := by
      intro heq
      -- then the row is taken, although it is narrower than the header
      have : cells.length = width := by simpa [refusal?, heq] using hcells
      omega
    have hwidth : cells.length ≠ width := by simpa [refusal?, hne] using hcells
    have hadd : t.add width cells = ⟨t.lines, t.openCells ++ cells⟩ := if_neg hne
    rw [hadd] at hrows ⊢
    obtain ⟨hrest, hwidths⟩ := ih (by simp [hopen]) hrows
    rw [hrest, List.flatten_cons, List.append_assoc]
    exact ⟨rfl, List.forall_mem_cons.mpr ⟨hwidth, hwidths⟩⟩

/-- If just the rows of the right width are taken, they are the lines, and the first other row is
still open in the end. -/
theorem addAll_of_taken (hrows : ∀ cells ∈ rows, 2 ≤ cells.length) (lines : List (List String))
    (h : (addAll width ⟨lines, []⟩ rows).2.map Option.isNone =
      rows.map fun cells => decide (cells.length = width)) :
    (addAll width ⟨lines, []⟩ rows).1.lines =
        lines ++ rows.filter (fun cells => decide (cells.length = width)) ∧
      ((∀ cells ∈ rows, cells.length = width) ∨
        2 ≤ (addAll width ⟨lines, []⟩ rows).1.openCells.length) := by
  induction rows generalizing lines with
  | nil => simp [addAll]
  | cons cells rows ih =>
    simp only [addAll, List.map_cons, List.cons.injEq] at h ⊢
    by_cases hcells : cells.length = width
    · have hadd : add width ⟨lines, []⟩ cells = ⟨lines ++ [cells], []⟩ := by simp [add, hcells]
      rw [hadd] at h ⊢
      obtain ⟨hlines, hopen⟩ := ih (fun c hc => hrows c (List.mem_cons_of_mem _ hc)) _ h.2
      refine ⟨by simp [hlines, hcells], hopen.imp_left fun hwidths => ?_⟩
      exact List.forall_mem_cons.mpr ⟨hcells, hwidths⟩
    · have hadd : add width ⟨lines, []⟩ cells = ⟨lines, cells⟩ := by simp [add, hcells]
      have htwo : 2 ≤ cells.length := hrows cells List.mem_cons_self
      have hne : cells ≠ [] := by
        rintro rfl
        simp at htwo
      rw [hadd] at h ⊢
      obtain ⟨hrest, hwidths⟩ := addAll_of_open (t := ⟨lines, cells⟩) hne h.2
      have hfilter : rows.filter (fun cells => decide (cells.length = width)) = [] := by
        simpa using hwidths
      rw [hrest]
      refine ⟨by simp [hcells, hfilter], .inr ?_⟩
      exact Nat.le_trans htwo (by simp)

end Ledger

/-- Open cells and further ones are joined as if they were one row. -/
theorem intercalate_open (delimiter : String) (openCells : List String) {cells : List String}
    (hcells : cells ≠ []) :
    delimiter.intercalate openCells ++
        ((if openCells.length = 0 then "" else delimiter) ++ delimiter.intercalate cells) =
      delimiter.intercalate (openCells ++ cells) := by
  cases openCells with
  | nil => simp
  | cons cell openCells =>
    have hopen : cell :: openCells ≠ [] := List.cons_ne_nil _ _
    rw [String.intercalate_append_of_ne_nil hopen hcells, String.append_assoc]
    simp

/-- Two cells have a delimiter between them. -/
theorem intercalate_ne_empty (delimiter : Char) {cells : List String} (h : 2 ≤ cells.length) :
    (String.singleton delimiter).intercalate cells ≠ "" := by
  match cells with
  | first :: second :: cells =>
    rw [String.intercalate_cons_cons, Ne, ← String.toList_inj]
    simp

namespace ReportDraft

/-- Write rows one after the other, whether they are taken or not. -/
def writeAll (r : ReportDraft) : List (List String) → ReportDraft × List (Option WidthError)
  | [] => (r, [])
  | cells :: rows =>
    let rest := (r.write cells).1.writeAll rows
    (rest.1, (r.write cells).2 :: rest.2)

variable {kind : ReportKind} {q : Query} {t : Ledger} {cells : List String}
variable {rows : List (List String)}

/-- The report behind its header, with the lines and the open cells of a ledger. -/
def ofLedger (kind : ReportKind) (q : Query) (t : Ledger) : ReportDraft where
  header := kind.header q
  out :=
    { delimiter := kind.delimiter
      text := rowLine kind.delimiter (kind.header q) ++ t.text kind.delimiter
      width? := some (kind.header q).length
      openCells := t.openCells.length }
  started := true
  rows := t.lines.length

@[simp] theorem text_ofLedger (t : Ledger) :
    (ofLedger kind q t).text = rowLine kind.delimiter (kind.header q) ++ t.text kind.delimiter :=
  rfl

theorem after_eq_ofLedger (rows : List (List String)) :
    after kind q rows = ofLedger kind q ⟨rows, []⟩ := by
  simp [after, ofLedger, Ledger.text]

/-- Writing a row of plain cells does to the report what adding it does to the ledger. -/
theorem write_ofLedger (hlength : 2 ≤ cells.length)
    (hplain : ∀ cell ∈ cells, PlainCell kind.delimiter cell) :
    (ofLedger kind q t).write cells =
      (ofLedger kind q (t.add (kind.header q).length cells),
        t.refusal? (kind.header q).length cells) := by
  have hne : cells ≠ [] := by
    rintro rfl
    simp at hlength
  have htext := Delimited.ofList_rowText t.openCells.length (by omega) hplain
  have hjoin := intercalate_open (String.singleton kind.delimiter) t.openCells hne
  by_cases h : t.openCells.length + cells.length = (kind.header q).length
  · simp only [write, start, ofLedger, Delimited.write, htext, h, Ledger.add, Ledger.refusal?,
      Ledger.text, if_true, Option.getD_some, String.append_assoc, hjoin]
    simp [rowLine, String.append_assoc]
  · simp only [write, start, ofLedger, Delimited.write, htext, h, Ledger.add, Ledger.refusal?,
      Ledger.text, if_true, if_false, Option.getD_some, String.append_assoc, hjoin,
      List.length_append]

theorem writeAll_ofLedger
    (h : ∀ cells ∈ rows, 2 ≤ cells.length ∧ ∀ cell ∈ cells, PlainCell kind.delimiter cell) :
    (ofLedger kind q t).writeAll rows =
      (ofLedger kind q (t.addAll (kind.header q).length rows).1,
        (t.addAll (kind.header q).length rows).2) := by
  induction rows generalizing t with
  | nil => rfl
  | cons cells rows ih =>
    obtain ⟨hlength, hplain⟩ := h cells List.mem_cons_self
    have hrest := fun c hc => h c (List.mem_cons_of_mem _ hc)
    simp only [writeAll, write_ofLedger hlength hplain, ih hrest, Ledger.addAll]

/-- A report that is ended after some rows is told by the ledger of these rows. -/
theorem finish_writeAll_new
    (h : ∀ cells ∈ rows, 2 ≤ cells.length ∧ ∀ cell ∈ cells, PlainCell kind.delimiter cell) :
    ((new kind q).writeAll rows).1.finish =
        ofLedger kind q (Ledger.addAll (kind.header q).length {} rows).1 ∧
      ((new kind q).writeAll rows).2 = (Ledger.addAll (kind.header q).length {} rows).2 := by
  have hrun := writeAll_ofLedger (q := q) (t := {}) h
  cases rows with
  | nil => exact ⟨finish_new.trans (after_eq_ofLedger []), rfl⟩
  | cons cells rows =>
    have hnew : (new kind q).writeAll (cells :: rows) =
        (ofLedger kind q {}).writeAll (cells :: rows) := by
      rw [writeAll, writeAll, write_new, after_eq_ofLedger]
    rw [hnew, hrun]
    exact ⟨rfl, rfl⟩

/-- Just the rows of the right width are taken, and the report is that of these rows. -/
structure Intact (kind : ReportKind) (q : Query) (rows : List (List String)) : Prop where
  taken : ((new kind q).writeAll rows).2.map Option.isNone =
    rows.map fun cells => decide (cells.length = (kind.header q).length)
  text_eq : ((new kind q).writeAll rows).1.finish.text =
    tableText kind.delimiter (kind.header q ::
      rows.filter fun cells => decide (cells.length = (kind.header q).length))
  rows_eq : ((new kind q).writeAll rows).1.finish.rows =
    (rows.filter fun cells => decide (cells.length = (kind.header q).length)).length

/-- A report is intact exactly if there was no row of another width. -/
theorem intact_iff
    (h : ∀ cells ∈ rows, 2 ≤ cells.length ∧ ∀ cell ∈ cells, PlainCell kind.delimiter cell) :
    Intact kind q rows ↔ ∀ cells ∈ rows, cells.length = (kind.header q).length := by
  obtain ⟨hfinish, hrefused⟩ := finish_writeAll_new (q := q) h
  constructor
  · intro hintact
    have htaken := hintact.taken
    rw [hrefused] at htaken
    obtain ⟨hlines, hwidths | hopen⟩ :=
      Ledger.addAll_of_taken (fun cells hcells => (h cells hcells).1) [] htaken
    · exact hwidths
    · -- the text would end with the open cells
      have htext := hintact.text_eq
      rw [hfinish, text_ofLedger, Ledger.text, hlines, List.nil_append, tableText_cons] at htext
      have hnothing := String.append_eq_left_iff.mp (String.append_right_inj _ |>.mp htext)
      exact absurd hnothing (intercalate_ne_empty _ hopen)
  · intro hwidth
    have hledger := Ledger.addAll_of_length_eq hwidth []
    have hfilter : rows.filter (fun cells => decide (cells.length = (kind.header q).length)) =
        rows := by
      simpa using hwidth
    refine ⟨?_, ?_, ?_⟩
    · rw [hrefused, hledger, List.map_map]
      exact List.map_congr_left fun cells hcells => by simp [hwidth cells hcells]
    · rw [hfinish, hledger, hfilter]
      simp [text_ofLedger, Ledger.text]
    · rw [hfinish, hledger, hfilter]
      simp [ofLedger]

/-- A report of any summaries: which calls are refused, what is written and how many rows are
counted follow the ledger of the rows. It leaves out the rows of another width, and nothing else,
only if there are none. -/
theorem writeAll_summaries (q : Query) (summaries : List Summary) :
    let header := ReportKind.summary.header q
    let rows := summaries.map Summary.row
    let ledger := Ledger.addAll header.length {} rows
    let run := (new .summary q).writeAll rows
    run.2 = ledger.2 ∧
      run.1.finish.text =
        tableText '\t' (header :: ledger.1.lines) ++ "\t".intercalate ledger.1.openCells ∧
      run.1.finish.rows = ledger.1.lines.length ∧
      (Intact .summary q rows ↔ ∀ cells ∈ rows, cells.length = header.length) := by
  intro header rows ledger run
  have hplain : ∀ cells ∈ rows,
      2 ≤ cells.length ∧ ∀ cell ∈ cells, PlainCell ReportKind.summary.delimiter cell := by
    intro cells hcells
    obtain ⟨s, -, rfl⟩ := List.mem_map.mp hcells
    exact ⟨by simp [Summary.row], s.plainCell_row⟩
  obtain ⟨hfinish, hrefused⟩ := finish_writeAll_new (q := q) hplain
  refine ⟨hrefused, ?_, ?_, intact_iff hplain⟩
  · rw [hfinish, text_ofLedger, Ledger.text, tableText_cons, String.append_assoc]
    rfl
  · rw [hfinish]
    rfl

/-- Two narrow rows make one line, which is taken and counted as a row, and a wide row keeps all
rows behind it from being taken. -/
theorem narrow_rows_are_joined :
    let summary (n : Nat) : Summary := ⟨⟨.threshold, 50⟩, List.replicate n (Binary64.zero false)⟩
    let rows := [summary 1, summary 1, summary 5, summary 4].map Summary.row
    ((new .summary .one).writeAll rows).2 = [some ⟨3, 6⟩, none, some ⟨7, 6⟩, some ⟨13, 6⟩] ∧
      ((new .summary .one).writeAll rows).1.finish.text =
        "type\trate\ttime\t#page requests\ttuple count\tavg\n" ++
          "t\t50\t0.0\tt\t50\t0.0\n" ++
          "t\t50\t0.0\t0.0\t0.0\t0.0\t0.0\tt\t50\t0.0\t0.0\t0.0\t0.0" ∧
      ¬Intact .summary .one rows := by
  intro summary rows
  have hrefused : ((new .summary .one).writeAll rows).2 =
      [some ⟨3, 6⟩, none, some ⟨7, 6⟩, some ⟨13, 6⟩] := by decide
  refine ⟨hrefused, by decide +kernel, fun h => ?_⟩
  have htaken := h.taken
  rw [hrefused] at htaken
  revert htaken
  decide

end ReportDraft

end TrialSummary
