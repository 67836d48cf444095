import TrialSummary.Trial.Identity

/-!
# Settings

Everything that can be set for a run: where the files are, which trials to walk, on which lines the
measurements stand and under which names the logs count pages. The default of each setting stands at
its field, so that `{}` is the settings of a run about which nothing was said. Only the line offsets
of a log have no defaults of their own; they are set as a whole.

Settings are free of contradictions when `Settings.fault?` finds nothing wrong.
-/

namespace TrialSummary

/-- Where the files of the trials are and how the name of a log ends. -/
structure InputSettings where
  resultsDir : String := "results"
  logSuffix : String := "-log"
  deriving DecidableEq

/-- The rates from `first` to `last`, both included, in steps. -/
structure RateGrid where
  first : UInt32 := 10
  last : UInt32 := 100
  step : UInt32 := 10
  deriving DecidableEq

namespace RateGrid

/-- How many rates there are. A step of zero stays at the first rate, whatever the last one is. -/
def size (r : RateGrid) : Nat :=
  if r.step = 0 then 1
  else if r.first ≤ r.last then (r.last.toNat - r.first.toNat) / r.step.toNat + 1
  else 0

/-- The rates in increasing order. None of them is beyond the last rate, so none is out of range. -/
def rates (r : RateGrid) : List UInt32 :=
  (List.range r.size).map fun i => UInt32.ofNat (r.first.toNat + i * r.step.toNat)

@[simp] theorem length_rates (r : RateGrid) : r.rates.length = r.size := by
  simp [rates]

end RateGrid

/-- The trials of a sweep: kinds by rates by a number of trials. -/
structure SweepSettings where
  kinds : List TrialKind := TrialKind.all
  rates : RateGrid := {}
  trials : UInt32 := 10
  deriving DecidableEq

/-- Lines of a results file that hold measurements, counted from zero. -/
structure PhaseLines where
  row1 : Nat := 4
  time1 : Nat := 7
  row2 : Nat := 10
  time2 : Nat := 13
  count3 : Nat := 16
  time3 : Nat := 19
  deriving DecidableEq

/-- Lines of a log that hold the page requests, counted from zero. -/
structure ScanLines where
  pgreq1 : Nat
  pgreqR3 : Nat
  pgreqS3 : Nat
  deriving DecidableEq

/-- Counter names and lines of the logs, for each kind of trial. -/
structure LogSettings where
  thresholdCounter : String := "rs_nblocks"
  probabilisticCounter : String := "used"
  threshold : ScanLines := ⟨0, 4, 6⟩
  probabilistic : ScanLines := ⟨1, 5, 7⟩
  adjustProbabilisticRS : Bool := false
  deriving DecidableEq

structure Settings where
  input : InputSettings := {}
  sweep : SweepSettings := {}
  primary : PhaseLines := {}
  log : LogSettings := {}
  deriving DecidableEq

/-- What makes settings unusable. -/
inductive SettingsFault where
  | noKinds
  | invertedRates
  | emptyCounter
  deriving DecidableEq

namespace SettingsFault

def message : SettingsFault → String
  | .noKinds => "sweep.types must name at least one trial type"
  | .invertedRates => "sweep.rates.start must not exceed sweep.rates.end"
  | .emptyCounter => "log counter names must not be empty"

end SettingsFault

/-- The first fault of the settings, in the order of the alternatives of `SettingsFault`. -/
def Settings.fault? (s : Settings) : Option SettingsFault :=
  if s.sweep.kinds.isEmpty then some .noKinds
  else if s.sweep.rates.last < s.sweep.rates.first then some .invertedRates
  else if s.log.thresholdCounter.isEmpty || s.log.probabilisticCounter.isEmpty then
    some .emptyCounter
  else none

end TrialSummary
