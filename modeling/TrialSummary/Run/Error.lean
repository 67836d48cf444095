import TrialSummary.Files.Basic
import TrialSummary.Report.Delimited
import TrialSummary.Report.Summary
import TrialSummary.Settings.Decode

/-!
# Failures of a run

A run ends with the first failure. Each failure has a message for the user, and those that pass on a
failure of something else keep the reason, which can be asked for on its own.
-/

namespace TrialSummary

/-- Why a settings file cannot be used. -/
inductive SettingsFileFault where
  /-- The text is not a TOML document. -/
  | notToml
  | data (fault : DataFault)
  | contradictory (fault : SettingsFault)
  deriving DecidableEq

def SettingsFileFault.message : SettingsFileFault → String
  | .notToml => "TOML parse error"
  | .data fault => "TOML parse error: " ++ fault.message
  | .contradictory fault => fault.message

/-- Why a run ended early. -/
inductive RunError where
  | unreadable (path : String) (fault : ReadFault)
  | format (e : FormatError)
  | settings (path : String) (fault : SettingsFileFault)
  | output (e : WidthError)
  | summary (e : SummaryError)
  deriving DecidableEq

namespace RunError

def message : RunError → String
  | .unreadable path fault => "failed to read " ++ path ++ ": " ++ fault.message
  | .format e => e.message
  | .settings path fault => "invalid config " ++ path ++ ": " ++ fault.message
  | .output e => e.message
  | .summary e => e.message

/-- The reason behind a failure that passes one on. -/
def reason? : RunError → Option String
  | .unreadable _ fault => some fault.message
  | .format e => some e.message
  | .output e => some e.reason
  | .settings _ _ | .summary _ => none

end RunError

end TrialSummary
