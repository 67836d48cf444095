import TrialSummary.Extraction.Reading
import TrialSummary.Settings.Basic
import TrialSummary.Text.Numeral
import TrialSummary.Text.Pattern

/-!
# Logs

The log of a trial tells how many pages each of its three scans requested. The two kinds of trials
log under different counter names and on different lines, so a log is read by the page counter of
the trial's own kind and lines of the other kind do not matter. The probabilistic counter is one too
high for the first scan; for the two scans of the last phase it is taken as logged unless the
settings say otherwise.
-/

namespace TrialSummary

namespace ScanLines

/-- The line that counts the pages of a field; other fields have none. -/
def offset? (o : ScanLines) : Field → Option Nat
  | .pgreq1 => some o.pgreq1
  | .pgreqR3 => some o.pgreqR3
  | .pgreqS3 => some o.pgreqS3
  | _ => none

end ScanLines

/-- How one kind of trial logs its page requests: the counter name, the lines, and what is added to
the count of the first scan and to those of the last phase. -/
structure PageCounter where
  name : String
  offsets : ScanLines
  firstAdjustment : Int64 := 0
  lastAdjustment : Int64 := 0
  deriving DecidableEq

def LogSettings.pageCounter (l : LogSettings) : TrialKind → PageCounter
  | .threshold => { name := l.thresholdCounter, offsets := l.threshold }
  | .probabilistic =>
    { name := l.probabilisticCounter
      offsets := l.probabilistic
      firstAdjustment := -1
      lastAdjustment := if l.adjustProbabilisticRS then -1 else 0 }

namespace PageCounter

/-- The fields that a log fills, in the order in which they are read. -/
def fields : List Field := [.pgreq1, .pgreqR3, .pgreqS3]

/-- What is added to the logged count of a field. -/
def adjustment (c : PageCounter) : Field → Int64
  | .pgreq1 => c.firstAdjustment
  | .pgreqR3 | .pgreqS3 => c.lastAdjustment
  | _ => 0

/-- The literal text in front of a count. -/
def label (c : PageCounter) : List Char := c.name.toList ++ " = ".toList

/-- The pattern of a count, as messages show it. -/
def pattern (c : PageCounter) : List Char :=
  Text.escapePattern c.name.toList ++ " = ".toList ++ Text.digitsGroup

/-- What messages say about the form of a line: the pattern in quotes, with a word in the place of
the group of digits. -/
def expected (c : PageCounter) : String :=
  String.ofList ('\'' :: Text.replaceAll Text.digitsGroup "<int>".toList c.pattern ++ ['\''])

/-- The count on a line as it was logged. Its digits have to be ASCII and its value in range. -/
def logged? (c : PageCounter) (line : String) : Option Int64 :=
  (Text.firstDigitsBehind? c.label line.toList).bind Text.readInt64?

def count? (c : PageCounter) (field : Field) (line : String) : Option Int64 :=
  (c.logged? line).map (· + c.adjustment field)

def reading (c : PageCounter) (file : TextFile) (required : List Field) (field : Field) : Reading :=
  match c.offsets.offset? field with
  | some offset =>
    file.reading required [field] offset
      (fun line => (c.count? field line).map fun n => [(field, .count n)]) c.expected
  | none => .ok []

def extract (c : PageCounter) (file : TextFile) (required : List Field) (r : Record) :
    Extraction :=
  Extraction.fill r (fields.map (c.reading file required))

end PageCounter

/-- Fill a record from its log, with the counter of its own kind. -/
def LogSettings.extract (l : LogSettings) (file : TextFile) (required : List Field) (r : Record) :
    Extraction :=
  (l.pageCounter r.trial.config.kind).extract file required r

end TrialSummary
