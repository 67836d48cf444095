import TrialSummary.Run.Error
import TrialSummary.Toml.Document

/-!
# Settings files

A settings file is a TOML document whose settings are free of contradictions. A run is told which
file to use, or it uses the one with the default name if there is one, or else the defaults.
-/

namespace TrialSummary.Settings

/-- The settings file of a run that was not told another one. -/
def defaultPath : String := "benchsum.toml"

def ofText (s : String) : Except SettingsFileFault Settings :=
  match Toml.document? s with
  | none => .error .notToml
  | some es =>
    match ofDocument es with
    | .error fault => .error (.data fault)
    | .ok settings =>
      match settings.fault? with
      | some fault => .error (.contradictory fault)
      | none => .ok settings

def ofFile (files : Files) (path : String) : Except RunError Settings :=
  match files.readText path with
  | .error fault => .error (.unreadable path fault)
  | .ok s =>
    match ofText s with
    | .error fault => .error (.settings path fault)
    | .ok settings => .ok settings

/-- The settings of a run. -/
def load (files : Files) : Option String → Except RunError Settings
  | some path => ofFile files path
  | none => if files.pathExists defaultPath then ofFile files defaultPath else .ok {}

end TrialSummary.Settings
