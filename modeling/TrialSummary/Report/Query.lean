import TrialSummary.Text.Blank
import TrialSummary.Trial.Record

/-!
# Queries

A query is one of the two phases of a benchmark that are reported. It chooses the columns of a
report, for rows of single trials and for rows of summaries. A summary reduces each of its columns
by a statistic, which is the median for times and the mean for everything else.

The fields that a trial has to provide are those of the rows of single trials. A summary reads no
others, so trials that have been loaded for a query can be summarized for it.
-/

namespace TrialSummary

/-- The phases that are reported, by the number under which the benchmark knows them. -/
inductive Query where
  | one
  | three
  deriving DecidableEq

/-- How a summary reduces a column. -/
inductive Statistic where
  | median
  | mean
  deriving DecidableEq

structure TrialColumn where
  header : String
  field : Field
  deriving DecidableEq

structure Column where
  header : String
  field : Field
  statistic : Statistic
  deriving DecidableEq

namespace Query

def token : Query → String
  | .one => "1"
  | .three => "3"

/-- The query of a text, around which blanks do not matter. -/
def ofText? (s : String) : Option Query :=
  let t := Text.trim s.toList
  if t = ['1'] then some .one else if t = ['3'] then some .three else none

def unsupportedMessage (s : String) : String :=
  "unsupported query '" ++ String.ofList (Text.trim s.toList) ++ "' (expected 1 or 3)"

/-- The columns of the rows of trials, after those that name the trial. -/
def trialColumns : Query → List TrialColumn
  | .one =>
    [⟨"time", .time1⟩, ⟨"#page requests", .pgreq1⟩, ⟨"tuple count", .count1⟩, ⟨"avg", .avg1⟩]
  | .three =>
    [⟨"time", .time3⟩, ⟨"#page requests R", .pgreqR3⟩, ⟨"#page requests S", .pgreqS3⟩,
      ⟨"tuple count", .count3⟩]

/-- The columns of the rows of summaries, after those that name the configuration. -/
def columns : Query → List Column
  | .one =>
    [⟨"time", .time1, .median⟩, ⟨"#page requests", .pgreq1, .mean⟩,
      ⟨"tuple count", .count1, .mean⟩, ⟨"avg", .avg1, .mean⟩]
  | .three =>
    [⟨"time", .time3, .median⟩, ⟨"#page requests R", .pgreqR3, .mean⟩,
      ⟨"#page requests S", .pgreqS3, .mean⟩, ⟨"tuple count", .count3, .mean⟩]

/-- The fields that every trial has to provide. -/
def required (q : Query) : List Field := q.trialColumns.map TrialColumn.field

@[simp] theorem ofText?_token (q : Query) : ofText? q.token = some q := by
  cases q <;> decide

@[simp] theorem length_columns (q : Query) : q.columns.length = 4 := by cases q <;> rfl

/-- A summary needs nothing that is not required of its trials. -/
theorem field_mem_required {q : Query} {c : Column} (h : c ∈ q.columns) :
    c.field ∈ q.required := by
  revert c
  cases q <;> decide

end Query

end TrialSummary
