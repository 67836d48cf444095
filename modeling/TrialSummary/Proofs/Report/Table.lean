import TrialSummary.Proofs.Decimal.Characters
import TrialSummary.Report.Draft

/-!
# The text of a report

No cell that a report writes needs quotes, and all rows of a report have the width of its header.
Every row is therefore accepted, and the text after any number of rows is known: the header and the
rows in order, cells with the delimiter between them and a line feed behind each row.
-/

namespace TrialSummary

/-- A row as it stands in the text if no cell is quoted. -/
def rowLine (delimiter : Char) (cells : List String) : String :=
  (String.singleton delimiter).intercalate cells ++ "\n"

/-- The text of rows without quotes. -/
def tableText (delimiter : Char) (rows : List (List String)) : String :=
  String.join (rows.map (rowLine delimiter))

@[simp] theorem tableText_nil (delimiter : Char) : tableText delimiter [] = "" := rfl

@[simp] theorem tableText_cons (delimiter : Char) (cells : List String)
    (rows : List (List String)) :
    tableText delimiter (cells :: rows) = rowLine delimiter cells ++ tableText delimiter rows := by
  simp [tableText]

@[simp] theorem tableText_append (delimiter : Char) (rows more : List (List String)) :
    tableText delimiter (rows ++ more) = tableText delimiter rows ++ tableText delimiter more := by
  simp [tableText]

/-- A cell that is written without quotes among others. -/
def PlainCell (delimiter : Char) (cell : String) : Prop :=
  Delimited.needsQuotes delimiter false cell.toList = false

instance (delimiter : Char) (cell : String) : Decidable (PlainCell delimiter cell) :=
  inferInstanceAs (Decidable (_ = _))

/-- The delimiters stand below all characters of numbers. -/
theorem plainCell_of_isNumberChar {delimiter : Char} {cell : String} (hlow : delimiter.toNat < 0x2d)
    (h : ∀ c ∈ cell.toList, IsNumberChar c) : PlainCell delimiter cell := by
  unfold PlainCell Delimited.needsQuotes
  rw [Bool.false_and, Bool.false_or, List.any_eq_false]
  intro c hc
  have hbound := (h c hc).bounds
  have hdelimiter : c ≠ delimiter := by rintro rfl; omega
  have hquote : c ≠ '"' := by rintro rfl; simp at hbound
  have hreturn : c ≠ '\r' := by rintro rfl; simp at hbound
  have hfeed : c ≠ '\n' := by rintro rfl; simp at hbound
  simp [hdelimiter, hquote, hreturn, hfeed]

namespace Delimited

theorem joinCells_eq_intercalate (delimiter : Char) (cells : List (List Char)) :
    joinCells delimiter cells = [delimiter].intercalate cells := by
  induction cells with
  | nil => rfl
  | cons c cells ih =>
    cases cells with
    | nil => simp [joinCells]
    | cons d cells => simp_all [joinCells]

/-- Plain cells are written as they are, behind a delimiter if there are open cells. -/
theorem ofList_rowText {delimiter : Char} {cells : List String} (before : Nat)
    (hlength : cells.length ≠ 1) (h : ∀ cell ∈ cells, PlainCell delimiter cell) :
    String.ofList (rowText delimiter before cells) =
      (if before = 0 then "" else String.singleton delimiter) ++
        (String.singleton delimiter).intercalate cells := by
  have hcells : cells.map (cellText delimiter false) = cells.map String.toList := by
    refine List.map_congr_left fun cell hcell => ?_
    have hplain : needsQuotes delimiter false cell.toList = false := h cell hcell
    simp [cellText, hplain]
  simp only [rowText, decide_eq_false hlength, Bool.and_false]
  rw [hcells, joinCells_eq_intercalate, ← String.toList_inj]
  split <;> simp

/-- Writing an accepted row to a table without open cells. -/
theorem write_plain {d : Delimited} {cells : List String} (hopen : d.openCells = 0)
    (hwidth : d.width?.getD cells.length = cells.length) (hlength : cells.length ≠ 1)
    (hplain : ∀ cell ∈ cells, PlainCell d.delimiter cell) :
    d.write cells =
      ({ d with
          text := d.text ++ rowLine d.delimiter cells
          width? := some cells.length
          openCells := 0 }, none) := by
  have htext := ofList_rowText 0 hlength hplain
  simp only [write, hopen, Nat.zero_add, hwidth, if_true, String.append_assoc, htext,
    String.empty_append, rowLine]

end Delimited

structure ReportRow (kind : ReportKind) (q : Query) (cells : List String) : Prop where
  length_eq : cells.length = (kind.header q).length
  plain : ∀ cell ∈ cells, PlainCell kind.delimiter cell

namespace ReportKind

theorem delimiter_lt (kind : ReportKind) : kind.delimiter.toNat < 0x2d := by
  cases kind <;> decide

theorem one_lt_length_header (kind : ReportKind) (q : Query) : 1 < (kind.header q).length := by
  cases kind <;> cases q <;> decide

theorem reportRow_header (kind : ReportKind) (q : Query) :
    ReportRow kind q (kind.header q) where
  length_eq := rfl
  plain := by cases kind <;> cases q <;> decide

end ReportKind

namespace Value

theorem isNumberChar_text (v : Value) : ∀ c ∈ v.text.toList, IsNumberChar c := by
  cases v with
  | measure x =>
    rw [text, Binary64.render, String.toList_ofList]
    exact x.isNumberChar_text
  | count n =>
    rw [text, String.toList_ofList]
    exact isNumberChar_writeInt _

end Value

theorem plainCell_repr (kind : ReportKind) (n : Nat) : PlainCell kind.delimiter n.repr := by
  refine plainCell_of_isNumberChar kind.delimiter_lt ?_
  rw [Nat.toList_repr]
  exact isNumberChar_toDigits n

theorem plainCell_render (kind : ReportKind) (x : Binary64) :
    PlainCell kind.delimiter x.render := by
  refine plainCell_of_isNumberChar kind.delimiter_lt ?_
  rw [Binary64.render, String.toList_ofList]
  exact x.isNumberChar_text

namespace Record

theorem plainCell_cellText (kind : ReportKind) (r : Record) (f : Field) :
    PlainCell kind.delimiter (r.cellText f) := by
  rw [cellText]
  cases r.get f with
  | none => cases kind <;> decide
  | some v => exact plainCell_of_isNumberChar kind.delimiter_lt v.isNumberChar_text

theorem reportRow (r : Record) (q : Query) : ReportRow .trial q (r.row q) where
  length_eq := by simp [row, ReportKind.header, ReportKind.leadHeaders]
  plain := by
    simp only [row, List.forall_mem_append, List.forall_mem_cons, List.forall_mem_map]
    refine ⟨⟨?_, ?_, ?_, by simp⟩, fun c _ => plainCell_cellText .trial r c.field⟩
    · exact plainCell_repr .trial _
    · exact plainCell_repr .trial _
    · exact plainCell_repr .trial _

end Record

namespace Summary

/-- No cell of a summary is quoted, however many values it has. -/
theorem plainCell_row (s : Summary) :
    ∀ cell ∈ s.row, PlainCell ReportKind.summary.delimiter cell := by
  simp only [row, List.forall_mem_append, List.forall_mem_cons, List.forall_mem_map]
  refine ⟨⟨?_, ?_, by simp⟩, fun x _ => plainCell_render .summary x⟩
  · cases s.config.kind <;> decide
  · exact plainCell_repr .summary _

theorem reportRow (s : Summary) {q : Query} (h : s.values.length = q.columns.length) :
    ReportRow .summary q s.row where
  length_eq := by simp [row, ReportKind.header, ReportKind.leadHeaders, h]
  plain := s.plainCell_row

end Summary

namespace ReportDraft

variable {kind : ReportKind} {q : Query}

/-- The report after its header and some rows. -/
def after (kind : ReportKind) (q : Query) (rows : List (List String)) : ReportDraft where
  header := kind.header q
  out :=
    { delimiter := kind.delimiter
      text := tableText kind.delimiter (kind.header q :: rows)
      width? := some (kind.header q).length }
  started := true
  rows := rows.length

@[simp] theorem start_after (rows : List (List String)) :
    (after kind q rows).start = after kind q rows := rfl

@[simp] theorem text_after (rows : List (List String)) :
    (after kind q rows).text = tableText kind.delimiter (kind.header q :: rows) := rfl

@[simp] theorem rows_after (rows : List (List String)) : (after kind q rows).rows = rows.length :=
  rfl

@[simp] theorem start_new : (new kind q).start = after kind q [] := by
  have hheader := kind.reportRow_header q
  have hlength := kind.one_lt_length_header q
  have hwrite := Delimited.write_plain (d := (new kind q).out) rfl rfl (by omega) hheader.plain
  have hout : ((new kind q).out.write (new kind q).header).1 = (after kind q []).out := by
    refine (congrArg Prod.fst hwrite).trans ?_
    simp [new, after]
  rw [start, hout]
  rfl

theorem write_after (rows : List (List String)) {cells : List String}
    (h : ReportRow kind q cells) :
    (after kind q rows).write cells = (after kind q (rows ++ [cells]), none) := by
  have hlength := kind.one_lt_length_header q
  have hwidth : (after kind q rows).out.width?.getD cells.length = cells.length :=
    h.length_eq.symm
  have hwrite := Delimited.write_plain rfl hwidth (by have := h.length_eq; omega) h.plain
  rw [write, start_after, hwrite]
  simp only [Prod.mk.injEq, and_true]
  simp [after, h.length_eq, String.append_assoc]

/-- The first row starts the report, whether it is taken or not. -/
theorem write_new (cells : List String) :
    (new kind q).write cells = (after kind q []).write cells := by
  rw [write, start_new, write, start_after]

/-- A report that ends without rows is started as well. -/
@[simp] theorem finish_new : (new kind q).finish = after kind q [] := start_new

@[simp] theorem finish_after (rows : List (List String)) :
    (after kind q rows).finish = after kind q rows := rfl

end ReportDraft

end TrialSummary
