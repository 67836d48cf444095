/-!
# Sets of code points

A property of characters is a set of code points, kept as a list of closed ranges in increasing
order. The tables of the single properties are in the modules that need them.
-/

namespace TrialSummary.Text

/-- A set of code points: those in one of the ranges, both ends included. -/
structure CodePoints where
  ranges : List (Nat × Nat)

namespace CodePoints

def contains (s : CodePoints) (c : Char) : Bool :=
  s.ranges.any fun r => decide (r.1 ≤ c.toNat) && decide (c.toNat ≤ r.2)

theorem contains_iff {s : CodePoints} {c : Char} :
    s.contains c = true ↔ ∃ r ∈ s.ranges, r.1 ≤ c.toNat ∧ c.toNat ≤ r.2 := by
  simp [contains]

end CodePoints

end TrialSummary.Text
