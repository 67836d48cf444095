import TrialSummary.Settings.Basic

/-!
# Sweeps

A sweep is the space of trials that a run walks: kinds by rates by trial numbers. The walk takes the
kinds in order, for each kind the rates, and for each rate the trial numbers. Kinds and rates may
repeat, and then their trials are walked again.
-/

namespace TrialSummary

/-- The trials of a run, as the kinds, the rates and the numbers of trials to walk. -/
structure Sweep where
  kinds : List TrialKind
  rates : List UInt32
  numbers : List UInt32
  deriving DecidableEq

namespace Sweep

/-- The first numbers, from zero. -/
def firstNumbers (n : UInt32) : List UInt32 := (List.range n.toNat).map UInt32.ofNat

def ofSettings (s : SweepSettings) : Sweep where
  kinds := s.kinds
  rates := s.rates.rates
  numbers := firstNumbers s.trials

/-- The sweep over the trials of one configuration. -/
def single (config : Configuration) (trials : UInt32) : Sweep where
  kinds := [config.kind]
  rates := [config.rate]
  numbers := firstNumbers trials

/-- The configurations in the order of the walk. -/
def configurations (s : Sweep) : List Configuration :=
  s.kinds.flatMap fun kind => s.rates.map fun rate => ⟨kind, rate⟩

def trialsOf (s : Sweep) (config : Configuration) : List TrialId :=
  s.numbers.map fun db => ⟨config, db⟩

/-- All trials in the order of the walk. -/
def walk (s : Sweep) : List TrialId := s.configurations.flatMap s.trialsOf

@[simp] theorem configurations_single (config : Configuration) (trials : UInt32) :
    (single config trials).configurations = [config] := rfl

end Sweep

end TrialSummary
