import TrialSummary.Binary64.Statistic
import TrialSummary.Report.Query

/-!
# Summaries

Records are put into batches by their configuration, in the order in which the configurations first
appear, and a batch is reduced to one row with a value for each column of the query. A batch cannot
be reduced if it has no records or if a record lacks a value for a column; the columns are looked at
one after the other, and in each the records.
-/

namespace TrialSummary

/-- The records of one configuration. -/
structure Batch where
  config : Configuration
  records : List Record

/-- A configuration and a value for each column. -/
structure Summary where
  config : Configuration
  values : List Binary64
  deriving DecidableEq

inductive SummaryError where
  | unset (trial : TrialId) (field : Field)
  | emptyBatch (config : Configuration)
  deriving DecidableEq

def SummaryError.message : SummaryError → String
  | .unset trial field => "trial " ++ trial.text ++ " has no value for " ++ field.name
  | .emptyBatch config =>
    "no trials to summarize for type " ++ config.kind.token ++ " rate " ++ numberText config.rate

namespace Batch

/-- Put a record into the batch of its configuration, or into a new batch at the end. -/
def insert (r : Record) : List Batch → List Batch
  | [] => [⟨r.trial.config, [r]⟩]
  | b :: bs =>
    if b.config = r.trial.config then ⟨b.config, b.records ++ [r]⟩ :: bs else b :: insert r bs

def ofRecords (rs : List Record) : List Batch := rs.foldl (fun bs r => insert r bs) []

/-- The values of a field in the order of the records. -/
def fieldValues (rs : List Record) (f : Field) : Except SummaryError (List Binary64) :=
  rs.mapM fun r =>
    match r.get f with
    | some v => .ok v.toBinary64
    | none => .error (.unset r.trial f)

/-- The statistic of values, NaN if they have none. -/
def reduce (s : Statistic) (xs : List Binary64) : Binary64 :=
  (match s with
    | .median => Binary64.median? xs
    | .mean => Binary64.mean? xs).getD (.nan false)

def summarize (q : Query) (b : Batch) : Except SummaryError Summary :=
  if b.records.isEmpty then .error (.emptyBatch b.config)
  else (q.columns.mapM fun c => (fieldValues b.records c.field).map (reduce c.statistic)).map
    fun values => ⟨b.config, values⟩

def summarizeAll (q : Query) (bs : List Batch) : Except SummaryError (List Summary) :=
  bs.mapM (summarize q)

end Batch

end TrialSummary
