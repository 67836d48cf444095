import TrialSummary.CommandLine.Words
import TrialSummary.Run.Plan
import TrialSummary.Run.SettingsFile

/-!
# Invocations

A command line names one of four commands: a summary of the sweep, the trials of one configuration,
the trials of the sweep, or a plan. An invocation is what a command line asks for, and running it
gives the text for standard output and the failure, if there was one. Options override the settings
file, and an option of the command overrides the same option in front of it.
-/

namespace TrialSummary.CommandLine

inductive Command where
  | summary (q : Query)
  | trials (config : Configuration) (q : Query)
  | sweep (q : Query)
  | plan
  deriving DecidableEq

/-- A command and the options that it does not own. -/
structure Invocation where
  config? : Option String := none
  resultsDir? : Option String := none
  trials? : Option UInt32 := none
  command : Command
  deriving DecidableEq

/-- The options that can stand before and behind the name of a command. -/
def sharedFlags : List Flag := [.config, .resultsDir, .trials, .verbose, .help]

/-- What may stand in front of the name of a command, and the names. -/
def outerLevel : Level where
  flags := .version :: sharedFlags
  commands := ["summary", "trials", "sweep", "plan", "help"]

/-- What may stand behind the name of a command. -/
def innerLevel? : String → Option Level
  | "summary" => some { flags := sharedFlags, arguments := [.query] }
  | "trials" => some { flags := .query :: sharedFlags, arguments := [.kind, .number] }
  | "sweep" => some { flags := .query :: sharedFlags }
  | "plan" => some { flags := sharedFlags }
  | _ => none

def command? (name : String) (g : Given) : Option Command := do
  let option : Query ← match g.value? .query with
    | some s => Query.ofText? s
    | none => some .one
  match name, g.arguments with
  | "summary", [q] => return .summary (← Query.ofText? q)
  | "trials", [kind, rate] =>
    return .trials ⟨← TrialKind.ofText? kind, ← Text.readUInt32? rate.toList⟩ option
  | "sweep", [] => return .sweep option
  | "plan", [] => return .plan
  | _, _ => none

def invocation (outer inner : Given) (command : Command) : Invocation :=
  let value? (f : Flag) := (inner.value? f).or (outer.value? f)
  { config? := value? .config
    resultsDir? := value? .resultsDir
    trials? := (value? .trials).bind fun s => Text.readUInt32? s.toList
    command := command }

/-- What is asked for by the words behind the name of the program. Without a command there is
nothing to do. Behind `help` only names of commands may stand. -/
def parse (words : List String) : Except Stop Invocation := do
  match ← readLevel outerLevel {} words with
  | (_, none) => .error .usage
  | (_, some ("help", topics)) =>
    if topics.length ≤ 1 && topics.all outerLevel.commands.contains then .error .help
    else .error .usage
  | (outer, some (name, rest)) =>
    match innerLevel? name with
    | none => .error .usage
    | some level =>
      let (inner, _) ← readLevel level {} rest
      match command? name inner with
      | some command => .ok (invocation outer inner command)
      | none => .error .usage

/-- What a run printed, and the failure that ended it. -/
structure Outcome where
  text : String
  error? : Option RunError := none

def Outcome.ofReport (r : Report) : Outcome where
  text := r.text
  error? := match r.rows with
    | .ok _ => none
    | .error e => some e

namespace Invocation

/-- The settings with the options put over them. -/
def override (i : Invocation) (s : Settings) : Settings :=
  { s with
    input := { s.input with resultsDir := i.resultsDir?.getD s.input.resultsDir }
    sweep := { s.sweep with trials := i.trials?.getD s.sweep.trials } }

def settings (i : Invocation) (files : Files) : Except RunError Settings :=
  (Settings.load files i.config?).map i.override

def sweep (i : Invocation) (s : Settings) : Sweep :=
  match i.command with
  | .trials config _ => Sweep.single config s.sweep.trials
  | _ => Sweep.ofSettings s.sweep

/-- The settings file that a run looks at. -/
def settingsPath (i : Invocation) : String := i.config?.getD Settings.defaultPath

/-- The files of trials that a run looks at, in order. -/
def trialPaths (i : Invocation) (s : Settings) : List String :=
  (i.sweep s).walk.flatMap (TrialFiles.ofSettings s.input).both

def runWith (i : Invocation) (files : Files) (s : Settings) : Outcome :=
  let loader := Loader.ofSettings s
  match i.command with
  | .summary q => .ofReport (loader.summaryReport files q (i.sweep s))
  | .trials _ q | .sweep q => .ofReport (loader.trialReport files q (i.sweep s))
  | .plan => { text := (Plan.make files s).text }

def run (i : Invocation) (files : Files) : Outcome :=
  match i.settings files with
  | .error e => { text := "", error? := some e }
  | .ok s => i.runWith files s

end Invocation

def versionText : String := "benchsum 0.1.0\n"

def helpText : String :=
  "Parse repeated benchmark result logs and print per-trial CSV rows or per-configuration TSV " ++
  "summaries\n\n" ++
  "Usage: benchsum [OPTIONS] <COMMAND>\n\n" ++
  "Commands:\n" ++
  "  summary <QUERY>             one tab-separated row per configuration of the sweep\n" ++
  "  trials <TYPE> <RATE>        comma-separated rows for the trials of one configuration\n" ++
  "  sweep                       comma-separated rows for every trial of the sweep\n" ++
  "  plan                        the settings in force and the files a run would read\n" ++
  "  help                        this text\n\n" ++
  "Options:\n" ++
  "  -c, --config <PATH>         settings file (default: benchsum.toml if present)\n" ++
  "  -r, --results-dir <PATH>    directory of the result files\n" ++
  "      --trials <NUMBER>       trials per configuration\n" ++
  "  -q, --query <QUERY>         query of trials and sweep, 1 or 3 (default: 1)\n" ++
  "  -v, --verbose               accepted; a run keeps no log\n" ++
  "  -h, --help                  this text\n" ++
  "  -V, --version               the version\n"

end TrialSummary.CommandLine
