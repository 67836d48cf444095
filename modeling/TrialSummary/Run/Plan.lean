import TrialSummary.Run.Reports

/-!
# Plans

A plan shows what a run would do without reading any file: the settings that are in force, and the
two files of each trial in the order of the walk, each marked as there or missing.
-/

namespace TrialSummary

structure PlannedFile where
  path : String
  present : Bool
  deriving DecidableEq

/-- What a run over a sweep would read. -/
structure Plan where
  settings : Settings
  sweep : Sweep
  schema : Schema
  files : List PlannedFile

namespace Plan

/-- The plan of a run over the whole sweep of the settings. -/
def make (files : Files) (s : Settings) : Plan :=
  let loader := Loader.ofSettings s
  let sweep := Sweep.ofSettings s.sweep
  { settings := s
    sweep := sweep
    schema := loader.schema
    files := (sweep.walk.flatMap loader.dir.both).map fun path => ⟨path, files.pathExists path⟩ }

def missing (p : Plan) : Nat := p.files.countP fun f => !f.present

/-- A text with blanks in front of it, up to a width. -/
def alignRight (width : Nat) (s : String) : String :=
  String.ofList (List.replicate (width - s.length) ' ') ++ s

def placementLine (p : Placement) : String :=
  "  line " ++ alignRight 3 p.offset.repr ++ ": " ++ p.form.label

def fileLine (f : PlannedFile) : String :=
  (if f.present then "  ok      " else "  missing ") ++ f.path

def lines (p : Plan) : List String :=
  ["Results dir: " ++ p.settings.input.resultsDir,
    "Types: " ++ ", ".intercalate (p.sweep.kinds.map TrialKind.token),
    "Rates: [" ++ ", ".intercalate (p.sweep.rates.map numberText) ++ "]",
    "Trials per configuration: " ++ p.sweep.numbers.length.repr,
    "Log counters: " ++ p.settings.log.thresholdCounter ++ " (threshold), " ++
      p.settings.log.probabilisticCounter ++ " (probabilistic)",
    "Primary layout:"] ++
  p.schema.placements.map placementLine ++ p.files.map fileLine ++
  ["Dry run: " ++ p.missing.repr ++ " missing file(s), nothing parsed."]

def text (p : Plan) : String := String.join (p.lines.map fun line => line ++ "\n")

end Plan

end TrialSummary
