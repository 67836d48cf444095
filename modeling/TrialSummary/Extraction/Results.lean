import TrialSummary.Decimal.Reading
import TrialSummary.Extraction.Reading
import TrialSummary.Settings.Basic
import TrialSummary.Text.Blank
import TrialSummary.Text.Search

/-!
# Results files

A results file holds the measurements of the three phases of a trial on fixed lines. Such a line has
one of three forms: an average and a count with a bar between them, a time in milliseconds, or a
count alone. A schema places forms on lines. It keeps them in the order of the lines, and forms
placed on the same line in the order in which they were given, so a failure is always reported for
the earliest line.
-/

namespace TrialSummary

/-- What stands on a line, and the fields that it fills. -/
inductive LineForm where
  | avgCount (avg count : Field)
  | time (field : Field)
  | count (field : Field)
  deriving DecidableEq

namespace LineForm

def fields : LineForm → List Field
  | .avgCount a n => [a, n]
  | .time f | .count f => [f]

def expected : LineForm → String
  | .avgCount _ _ => "'<float> | <int>'"
  | .time _ => "'Time: <number> ms'"
  | .count _ => "an integer"

/-- How the form is shown in a plan. -/
def label : LineForm → String
  | .avgCount a n =>
    "AvgCount \x7b avg: " ++ a.label ++ ", count: " ++ n.label ++ " \x7d"
  | .time f => "Time(" ++ f.label ++ ")"
  | .count f => "Count(" ++ f.label ++ ")"

def readMeasure? (cs : List Char) : Option Value :=
  (Binary64.read? (Text.trim cs)).map Value.measure

def readCount? (cs : List Char) : Option Value :=
  (Text.readInt64? (Text.trim cs)).map Value.count

/-- The number of a time line: what stands between `Time: ` and the last ` ms` behind it. Nothing
behind a line feed belongs to it. -/
def timeText? (cs : List Char) : Option (List Char) :=
  (Text.after? "Time: ".toList cs).bind fun rest =>
    Text.beforeLast? " ms".toList (rest.takeWhile (· ≠ '\n'))

/-- The values on a line. The parts behind a second bar of an average line are ignored. -/
def parse? (form : LineForm) (line : String) : Option (List (Field × Value)) :=
  match form with
  | .avgCount a n =>
    match line.toList.splitOn '|' with
    | p :: q :: _ => do return [(a, ← readMeasure? p), (n, ← readCount? q)]
    | _ => none
  | .time f => do return [(f, ← readMeasure? (← timeText? line.toList))]
  | .count f => do return [(f, ← readCount? line.toList)]

end LineForm

/-- A form placed on the line at an offset. -/
structure Placement where
  offset : Nat
  form : LineForm
  deriving DecidableEq

namespace Placement

/-- Comparison by offset alone. -/
def atOrBefore (a b : Placement) : Bool := decide (a.offset ≤ b.offset)

def reading (file : TextFile) (required : List Field) (p : Placement) : Reading :=
  file.reading required p.form.fields p.offset p.form.parse? p.form.expected

/-- The offset and the form, as in `7: Time(Time1)`. -/
def label (p : Placement) : String := p.offset.repr ++ ": " ++ p.form.label

end Placement

/-- Which lines of a results file hold what, in the order of the lines. -/
structure Schema where
  placements : List Placement
  ordered : placements.Pairwise (fun a b => a.atOrBefore b = true)

namespace Schema

/-- The schema of placements in any order. Those on one line keep their order. -/
def ofPlacements (ps : List Placement) : Schema where
  placements := ps.mergeSort Placement.atOrBefore
  ordered := List.pairwise_mergeSort
    (fun a b c hab hbc => by simp only [Placement.atOrBefore, decide_eq_true_eq] at *; omega)
    (fun a b => by simp only [Placement.atOrBefore, Bool.or_eq_true, decide_eq_true_eq]; omega) ps

/-- The placements of the three phases, phase by phase. -/
def placementsOf (l : PhaseLines) : List Placement :=
  [⟨l.row1, .avgCount .avg1 .count1⟩, ⟨l.time1, .time .time1⟩,
    ⟨l.row2, .avgCount .avg2 .count2⟩, ⟨l.time2, .time .time2⟩,
    ⟨l.count3, .count .count3⟩, ⟨l.time3, .time .time3⟩]

def ofPhaseLines (l : PhaseLines) : Schema := ofPlacements (placementsOf l)

def extract (s : Schema) (file : TextFile) (required : List Field) (r : Record) : Extraction :=
  Extraction.fill r (s.placements.map (Placement.reading file required))

end Schema

end TrialSummary
