import TrialSummary.Extraction.PageRequests
import TrialSummary.Extraction.Results
import TrialSummary.Report.Draft
import TrialSummary.Run.Error
import TrialSummary.Run.Sweep

/-!
# Reports over a sweep

A run reads the two files of each trial, first the results file and then the log, and fills a record
from them. A report of trials writes each row as soon as its record is there, so rows in front of a
failure are kept. A report of summaries needs all records first, and writes nothing if one of them
cannot be had.
-/

namespace TrialSummary

/-- Where the files of trials are. -/
structure TrialFiles where
  root : String
  logSuffix : String
  deriving DecidableEq

namespace TrialFiles

def ofSettings (s : InputSettings) : TrialFiles := ⟨s.resultsDir, s.logSuffix⟩

def resultsFile (d : TrialFiles) (trial : TrialId) : String := joinPath d.root trial.text

def logFile (d : TrialFiles) (trial : TrialId) : String :=
  joinPath d.root (trial.text ++ d.logSuffix)

/-- Both files of a trial in the order in which they are read. -/
def both (d : TrialFiles) (trial : TrialId) : List String := [d.resultsFile trial, d.logFile trial]

end TrialFiles

/-- Everything that loading a trial depends on besides its files. -/
structure Loader where
  dir : TrialFiles
  schema : Schema
  log : LogSettings

/-- What a report gave: the text written, and the number of rows or the failure that ended it. -/
structure Report where
  text : String
  rows : Except RunError Nat

namespace Loader

def ofSettings (s : Settings) : Loader where
  dir := TrialFiles.ofSettings s.input
  schema := Schema.ofPhaseLines s.primary
  log := s.log

def readLines (files : Files) (path : String) : Except RunError TextFile :=
  match files.readLines path with
  | .error fault => .error (.unreadable path fault)
  | .ok file => .ok file

def checked (x : Extraction) : Except RunError Record :=
  match x.toExcept with
  | .error e => .error (.format e)
  | .ok r => .ok r

/-- The record filled from the results file alone. -/
def loadPrimary (l : Loader) (files : Files) (q : Query) (trial : TrialId) :
    Except RunError Record := do
  let file ← readLines files (l.dir.resultsFile trial)
  checked (l.schema.extract file q.required (.empty trial))

/-- A record with the log of its trial added. -/
def loadLog (l : Loader) (files : Files) (q : Query) (r : Record) : Except RunError Record := do
  let file ← readLines files (l.dir.logFile r.trial)
  checked (l.log.extract file q.required r)

def load (l : Loader) (files : Files) (q : Query) (trial : TrialId) : Except RunError Record := do
  l.loadLog files q (← l.loadPrimary files q trial)

def loadBatch (l : Loader) (files : Files) (q : Query) (sweep : Sweep) (config : Configuration) :
    Except RunError Batch :=
  ((sweep.trialsOf config).mapM (l.load files q)).map fun rs => ⟨config, rs⟩

/-- Write the rows of trials until one of them cannot be loaded or written. -/
def writeTrials (l : Loader) (files : Files) (q : Query) : List TrialId → ReportDraft → Report
  | [], draft =>
    let draft := draft.finish
    ⟨draft.text, .ok draft.rows⟩
  | trial :: trials, draft =>
    match l.load files q trial with
    | .error e => ⟨draft.text, .error e⟩
    | .ok r =>
      match draft.write (r.row q) with
      | (draft, some e) => ⟨draft.text, .error (.output e)⟩
      | (draft, none) => writeTrials l files q trials draft

/-- The report of the trials of a sweep, one row for each. -/
def trialReport (l : Loader) (files : Files) (q : Query) (sweep : Sweep) : Report :=
  l.writeTrials files q sweep.walk (ReportDraft.new .trial q)

def loadAll (l : Loader) (files : Files) (q : Query) (sweep : Sweep) :
    Except RunError (List Record) :=
  (sweep.configurations.mapM (l.loadBatch files q sweep)).map fun bs => bs.flatMap Batch.records

/-- The summary rows of a sweep, one for each of its configurations. -/
def summaryRows (l : Loader) (files : Files) (q : Query) (sweep : Sweep) :
    Except RunError (List Summary) := do
  let rs ← l.loadAll files q sweep
  match Batch.summarizeAll q (Batch.ofRecords rs) with
  | .error e => .error (.summary e)
  | .ok rows => .ok rows

/-- Write summary rows until one of them is refused. -/
def writeSummaries : List Summary → ReportDraft → Report
  | [], draft =>
    let draft := draft.finish
    ⟨draft.text, .ok draft.rows⟩
  | row :: rows, draft =>
    match draft.write row.row with
    | (draft, some e) => ⟨draft.text, .error (.output e)⟩
    | (draft, none) => writeSummaries rows draft

/-- The report of the summaries of a sweep. -/
def summaryReport (l : Loader) (files : Files) (q : Query) (sweep : Sweep) : Report :=
  match l.summaryRows files q sweep with
  | .error e => ⟨"", .error e⟩
  | .ok rows => writeSummaries rows (ReportDraft.new .summary q)

end Loader

end TrialSummary
