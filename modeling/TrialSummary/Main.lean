import Std.Data.HashMap
import TrialSummary.CommandLine.Invocation

/-!
# The program

The outer layer: it reads the command line and the files that the invocation looks at, lets the
library do the work, and prints. A run exits with 0, with 1 after a failure, which is told on
standard error, and with 2 if the command line asks for nothing.
-/

namespace TrialSummary.Program

open CommandLine

/-- What was found behind a path. -/
structure Finding where
  content : Except ReadFault ByteArray
  present : Bool
  present_of_ok : ∀ {bytes}, content = .ok bytes → present = true

/-- Paths that have been looked at. -/
abbrev Fetched := Std.HashMap String Finding

def Fetched.find (fetched : Fetched) (path : String) : Finding :=
  fetched.getD path ⟨.error .notFound, false, nofun⟩

/-- The view of the fetched files. A path that was not looked at leads nowhere. -/
def Fetched.view (fetched : Fetched) : Files where
  read path := (fetched.find path).content
  pathExists path := (fetched.find path).present
  pathExists_of_read h := (fetched.find _).present_of_ok h

/-- Why a file could not be read. A directory can be opened but not read, and the failure to read
names no file. -/
def faultOf : IO.Error → ReadFault
  | .noFileOrDirectory .. => .notFound
  | .inappropriateType (some _) .. => .notDirectory
  | .inappropriateType none .. => .isDirectory
  | e => .other (toString e)

/-- Whether a path leads anywhere, all links on its way followed. -/
def leadsAnywhere (path : String) : IO Bool := do
  try
    discard (IO.FS.realPath path)
    return true
  catch _ =>
    return false

def fetch (path : String) : IO Finding := do
  try
    return ⟨.ok (← IO.FS.readBinFile path), true, fun _ => rfl⟩
  catch e =>
    return ⟨.error (faultOf e), ← leadsAnywhere path, nofun⟩

/-- Read the files of an invocation. Only a plan goes on behind a file that cannot be read. -/
def fetchAll (goOn : Bool) (paths : List String) (known : Fetched) : IO Fetched := do
  let mut fetched := known
  for path in paths do
    let found ← fetch path
    fetched := fetched.insert path found
    if !goOn && found.content matches .error _ then break
  return fetched

/-- Run an invocation and give the exit code. -/
def perform (i : Invocation) : IO UInt32 := do
  let settingsFile : Fetched := Std.HashMap.insert ∅ i.settingsPath (← fetch i.settingsPath)
  let fetched ← match i.settings settingsFile.view with
    | .error _ => pure settingsFile
    | .ok s => fetchAll (i.command == .plan) (i.trialPaths s) settingsFile
  let outcome := i.run fetched.view
  IO.print outcome.text
  match outcome.error? with
  | none => return 0
  | some e =>
    IO.eprintln ("error: " ++ e.message)
    return 1

def start (words : List String) : IO UInt32 := do
  match parse words with
  | .ok i => perform i
  | .error .help =>
    IO.print helpText
    return 0
  | .error .version =>
    IO.print versionText
    return 0
  | .error .usage =>
    IO.eprint helpText
    return 2

end TrialSummary.Program

def main (words : List String) : IO UInt32 := TrialSummary.Program.start words
