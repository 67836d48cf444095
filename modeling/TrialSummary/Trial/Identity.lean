/-!
# Trials

A trial is one benchmark run. Its configuration is the kind of page sampling and the sampling rate,
and a number tells the trials of one configuration apart. The three together identify the
trial, and their text `kind-rate-db` names the files that it left behind.
-/

namespace TrialSummary

/-- The two ways in which the benchmark decides how many pages to read. -/
inductive TrialKind where
  | threshold
  | probabilistic
  deriving DecidableEq

namespace TrialKind

/-- The short name, used in file names and summaries. -/
def token : TrialKind → String
  | .threshold => "t"
  | .probabilistic => "p"

def name : TrialKind → String
  | .threshold => "threshold"
  | .probabilistic => "probabilistic"

/-- The number printed in rows of single trials. -/
def code : TrialKind → Nat
  | .threshold => 0
  | .probabilistic => 1

/-- Both kinds, in the order in which a sweep takes them unless told otherwise. -/
def all : List TrialKind := [.threshold, .probabilistic]

/-- The kind with a given short or long name. Letter case and blanks count. -/
def ofText? (s : String) : Option TrialKind :=
  all.find? fun k => s == k.token || s == k.name

def unknownMessage (s : String) : String :=
  s!"unknown trial type '{s}' (expected t, threshold, p or probabilistic)"

@[simp] theorem ofText?_token (k : TrialKind) : ofText? k.token = some k := by
  cases k <;> decide

@[simp] theorem ofText?_name (k : TrialKind) : ofText? k.name = some k := by
  cases k <;> decide

theorem code_injective {k l : TrialKind} (h : k.code = l.code) : k = l := by
  cases k <;> cases l <;> simp_all [code]

end TrialKind

structure Configuration where
  kind : TrialKind
  rate : UInt32
  deriving DecidableEq

structure TrialId where
  config : Configuration
  db : UInt32
  deriving DecidableEq

/-- A rate or a trial number in decimal digits. -/
def numberText (n : UInt32) : String := n.toNat.repr

/-- The text of a trial, as in `t-50-3`. -/
def TrialId.text (t : TrialId) : String :=
  t.config.kind.token ++ "-" ++ numberText t.config.rate ++ "-" ++ numberText t.db

end TrialSummary
