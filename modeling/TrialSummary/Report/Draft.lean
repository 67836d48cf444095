import TrialSummary.Decimal.Layout
import TrialSummary.Report.Delimited
import TrialSummary.Report.Summary
import TrialSummary.Text.Numeral

/-!
# Reports

A report is a table with one header. There are two kinds: rows of single trials, with commas between
the cells, and rows of summaries, with tabs. Rows of trials begin with the code of the kind, the
rate and the number of the trial; rows of summaries begin with the name of the kind and the rate.
The columns of the query follow in both. A field without a value is printed as `-1`.

The header is written in front of the first row, or at the end if there was none.
-/

namespace TrialSummary

/-- Printed for a field without a value. -/
def unsetText : String := "-1"

/-- A measure as the shortest number that reads back, a count in decimal digits. -/
def Value.text : Value → String
  | .measure x => x.render
  | .count n => String.ofList (Text.writeInt n.toInt)

def Record.cellText (r : Record) (f : Field) : String := ((r.get f).map Value.text).getD unsetText

inductive ReportKind where
  | trial
  | summary
  deriving DecidableEq

namespace ReportKind

def delimiter : ReportKind → Char
  | .trial => ','
  | .summary => '\t'

/-- The header cells in front of the columns of a query. -/
def leadHeaders : ReportKind → List String
  | .trial => ["type", "rate", "db#"]
  | .summary => ["type", "rate"]

def header (kind : ReportKind) (q : Query) : List String :=
  kind.leadHeaders ++
    match kind with
    | .trial => q.trialColumns.map TrialColumn.header
    | .summary => q.columns.map Column.header

end ReportKind

def Record.row (r : Record) (q : Query) : List String :=
  [r.trial.config.kind.code.repr, numberText r.trial.config.rate, numberText r.trial.db] ++
    q.trialColumns.map fun c => r.cellText c.field

def Summary.row (s : Summary) : List String :=
  [s.config.kind.token, numberText s.config.rate] ++ s.values.map Binary64.render

/-- A report that is being written, with the number of rows that it has taken. -/
structure ReportDraft where
  header : List String
  out : Delimited
  started : Bool := false
  rows : Nat := 0
  deriving DecidableEq

namespace ReportDraft

/-- A report without rows. Nothing is written yet. -/
def new (kind : ReportKind) (q : Query) : ReportDraft where
  header := kind.header q
  out := { delimiter := kind.delimiter }

/-- The report with its header written. -/
def start (r : ReportDraft) : ReportDraft :=
  if r.started then r else { r with out := (r.out.write r.header).1, started := true }

/-- Write a row, and count it if it was taken. -/
def write (r : ReportDraft) (cells : List String) : ReportDraft × Option WidthError :=
  let r := r.start
  match r.out.write cells with
  | (out, none) => ({ r with out := out, rows := r.rows + 1 }, none)
  | (out, some e) => ({ r with out := out }, some e)

def finish (r : ReportDraft) : ReportDraft := r.start

/-- Everything written so far. -/
def text (r : ReportDraft) : String := r.out.text

end ReportDraft

end TrialSummary
