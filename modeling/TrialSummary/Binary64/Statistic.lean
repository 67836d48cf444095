import TrialSummary.Binary64.Rounding

/-!
# Median and mean

The two statistics of repeated measurements. Both are undefined for no values and are given for any
values, NaNs and infinities included. The median sorts by the total order, in which a NaN has a
place like any other value. The mean of equal values is the first of them, without rounding; else
the values are added from left to right and the sum is divided once.
-/

namespace TrialSummary.Binary64

/-- The values in the total order. -/
def sorted (xs : List Binary64) : List Binary64 := xs.mergeSort totalLe

def midpoint (x y : Binary64) : Binary64 := (x + y) / ofNat 2

/-- The middle value of the sorted list, or the midpoint of the middle two. -/
def median? (xs : List Binary64) : Option Binary64 :=
  let s := sorted xs
  let upper := s[s.length / 2]?
  if s.length % 2 = 1 then upper
  else do midpoint (← s[s.length / 2 - 1]?) (← upper)

def sum (xs : List Binary64) : Binary64 := xs.foldl add (zero false)

def mean? : List Binary64 → Option Binary64
  | [] => none
  | x :: xs =>
    if xs.all (sameNumber · x) then some x
    else some (sum (x :: xs) / ofNat (x :: xs).length)

@[simp] theorem length_sorted (xs : List Binary64) : (sorted xs).length = xs.length :=
  List.length_mergeSort xs

@[simp] theorem median?_nil : median? [] = none := by simp [median?, sorted]

@[simp] theorem mean?_nil : mean? [] = none := rfl

end TrialSummary.Binary64
