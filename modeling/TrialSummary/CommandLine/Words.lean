import TrialSummary.Report.Query
import TrialSummary.Text.Numeral

/-!
# Words of a command line

A command line is read at two levels: the program's own options up to the name of a command, and the
options and arguments of that command. Both levels are read in the same way.

A word that begins with two dashes names an option, with a value behind an equals sign or in the
next word. A word that begins with one dash is a cluster of options of one letter; the rest of the
word behind an option with a value is that value, with or without an equals sign, and the next word
is if nothing is left. The word `--` ends the options of a level. A single dash is an ordinary word,
and every other word that begins with a dash cannot be a value in a word of its own.

An option may be given once on each level. Values are checked when they are met, so the earliest
fault, or the earliest request for help, decides what happens.
-/

namespace TrialSummary.CommandLine

inductive Form where
  | path
  | number
  | query
  | kind
  deriving DecidableEq

/-- Whether a text has a form. No path is empty. -/
def Form.accepts : Form → String → Bool
  | .path, s => !s.isEmpty
  | .number, s => (Text.readUInt32? s.toList).isSome
  | .query, s => (Query.ofText? s).isSome
  | .kind, s => (TrialKind.ofText? s).isSome

inductive Flag where
  | config
  | resultsDir
  | trials
  | query
  | verbose
  | help
  | version
  deriving DecidableEq

namespace Flag

def form? : Flag → Option Form
  | .config | .resultsDir => some .path
  | .trials => some .number
  | .query => some .query
  | .verbose | .help | .version => none

def longName : Flag → String
  | .config => "config"
  | .resultsDir => "results-dir"
  | .trials => "trials"
  | .query => "query"
  | .verbose => "verbose"
  | .help => "help"
  | .version => "version"

def letter? : Flag → Option Char
  | .config => some 'c'
  | .resultsDir => some 'r'
  | .trials => none
  | .query => some 'q'
  | .verbose => some 'v'
  | .help => some 'h'
  | .version => some 'V'

end Flag

/-- Why a command line does not lead to a run. -/
inductive Stop where
  | usage
  | help
  | version
  deriving DecidableEq

/-- What may be given on a level: options, arguments in order, and names of commands. -/
structure Level where
  flags : List Flag
  arguments : List Form := []
  commands : List String := []

namespace Level

def longFlag? (l : Level) (name : String) : Option Flag := l.flags.find? fun f => f.longName == name

def letterFlag? (l : Level) (c : Char) : Option Flag := l.flags.find? fun f => f.letter? == some c

end Level

/-- What has been given on a level so far. Options without a value are kept with an empty one. -/
structure Given where
  options : List (Flag × String) := []
  arguments : List String := []
  deriving DecidableEq

namespace Given

def value? (g : Given) (f : Flag) : Option String :=
  (g.options.find? fun o => o.1 == f).map Prod.snd

/-- An option without a value. The requests for help and for the version end the reading. -/
def addSwitch (g : Given) : Flag → Except Stop Given
  | .help => .error .help
  | .version => .error .version
  | f =>
    if (g.value? f).isSome then .error .usage else .ok { g with options := g.options ++ [(f, "")] }

/-- An option with its value. -/
def addValue (g : Given) (f : Flag) (form : Form) (v : String) : Except Stop Given :=
  if (g.value? f).isNone && form.accepts v then .ok { g with options := g.options ++ [(f, v)] }
  else .error .usage

def addArgument (l : Level) (g : Given) (v : String) : Except Stop Given :=
  match l.arguments[g.arguments.length]? with
  | some form =>
    if form.accepts v then .ok { g with arguments := g.arguments ++ [v] } else .error .usage
  | none => .error .usage

/-- A cluster of letters. An option that still needs its value is handed back. -/
def addCluster (l : Level) (g : Given) :
    List Char → Except Stop (Given × Option (Flag × Form))
  | [] => .ok (g, none)
  | c :: cs =>
    match l.letterFlag? c with
    | none => .error .usage
    | some f =>
      match f.form? with
      | none =>
        match g.addSwitch f with
        | .ok g => addCluster l g cs
        | .error stop => .error stop
      | some form =>
        match cs with
        | [] => .ok (g, some (f, form))
        | '=' :: v => (g.addValue f form (String.ofList v)).map fun g => (g, none)
        | v => (g.addValue f form (String.ofList v)).map fun g => (g, none)

end Given

inductive Word where
  | endOfOptions
  | long (name : String) (value? : Option String)
  | cluster (letters : List Char)
  | ordinary
  deriving DecidableEq

def Word.ofText (s : String) : Word :=
  match s.toList with
  | ['-', '-'] => .endOfOptions
  | '-' :: '-' :: cs =>
    .long (String.ofList (cs.takeWhile (· != '=')))
      ((cs.dropWhile (· != '=')).tail?.map String.ofList)
  | '-' :: c :: cs => .cluster (c :: cs)
  | _ => .ordinary

/-- Where the reading of a level stands. -/
structure Progress where
  given : Given := {}
  optionsEnded : Bool := false
  waiting? : Option (Flag × Form) := none

namespace Progress

/-- Take one word in, which is not the name of a command. -/
def step (l : Level) (p : Progress) (word : String) : Except Stop Progress :=
  if p.optionsEnded then (p.given.addArgument l word).map fun g => { p with given := g }
  else match p.waiting?, Word.ofText word with
    | some (f, form), .ordinary =>
      (p.given.addValue f form word).map fun g => { p with given := g, waiting? := none }
    | some _, _ => .error .usage
    | none, .endOfOptions => .ok { p with optionsEnded := true }
    | none, .ordinary => (p.given.addArgument l word).map fun g => { p with given := g }
    | none, .cluster letters =>
      (p.given.addCluster l letters).map fun r => { p with given := r.1, waiting? := r.2 }
    | none, .long name value? =>
      match l.longFlag? name with
      | none => .error .usage
      | some f =>
        match f.form?, value? with
        | some form, some v => (p.given.addValue f form v).map fun g => { p with given := g }
        | some form, none => .ok { p with waiting? := some (f, form) }
        | none, none => (p.given.addSwitch f).map fun g => { p with given := g }
        | none, some _ => .error .usage

def isCommand (l : Level) (p : Progress) (word : String) : Bool :=
  !p.optionsEnded && p.waiting?.isNone && l.commands.contains word

end Progress

/-- Read a level up to the name of a command or the end. The name and the words behind it are handed
back. -/
def readLevel (l : Level) (p : Progress) :
    List String → Except Stop (Given × Option (String × List String))
  | [] => if p.waiting?.isSome then .error .usage else .ok (p.given, none)
  | word :: words =>
    if p.isCommand l word then .ok (p.given, some (word, words))
    else
      match p.step l word with
      | .error stop => .error stop
      | .ok p => readLevel l p words

end TrialSummary.CommandLine
