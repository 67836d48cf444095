import TrialSummary.Proofs.Binary64.Integers
import TrialSummary.Proofs.Trial.Record

/-!
# Cells of records

What a value becomes in a cell depends on the quantity of the cell alone. A value of the same
quantity is kept as it is; in particular a count is never rounded on its way into a cell for counts.
A measure that is stored as a count loses its fraction and is brought into range, and a count that
is stored as a measure becomes the nearest number.

A cell has the last value that was stored in its field, whatever was stored in other fields before,
between and after, and a record is known by its cells. So it is a collection of independent cells,
although reading and storing are two tables that name each member of a record on its own.
-/

namespace TrialSummary

/-- What a value becomes in a cell of a quantity. -/
inductive Value.Becomes : Quantity → Value → Value → Prop where
  | measure (x : Binary64) : Becomes .measure (.measure x) (.measure x)
  | count (n : Int64) : Becomes .count (.count n) (.count n)
  /-- The nearest number, where zero has no sign. -/
  | rounded {n : Int64} {x : Binary64} (hnear : x.NearestTo n.toInt)
      (hsign : x.negative = decide (n.toInt < 0)) : Becomes .measure (.count n) (.measure x)
  /-- The whole part, or the end of the range that is nearer to it. -/
  | truncated {x : Binary64} {n : Int64} (hfinite : x.isFinite = true)
      (hwhole : n.toInt = Binary64.saturate (Binary64.truncate x.toRat)) :
      Becomes .count (.measure x) (.count n)
  | least : Becomes .count (.measure (.infinity true)) (.count Int64.minValue)
  | greatest : Becomes .count (.measure (.infinity false)) (.count Int64.maxValue)
  | nan (s : Bool) : Becomes .count (.measure (.nan s)) (.count 0)

namespace Value

variable {q : Quantity} {v w : Value}

theorem becomes_convert (v : Value) (q : Quantity) : Becomes q v (ofCarrier q (v.convert q)) := by
  cases q with
  | measure =>
    cases v with
    | measure x => exact .measure x
    | count n => exact .rounded (Binary64.nearestTo_ofInt64 n) (Binary64.negative_ofInt64 n)
  | count =>
    cases v with
    | measure x =>
      match x with
      | .nan s => exact .nan s
      | .infinity true => exact .least
      | .infinity false => exact .greatest
      | .finite s k => exact .truncated rfl (Binary64.toInt_toInt64 rfl)
    | count n => exact .count n

/-- A value becomes one thing only, and that is what conversion gives. -/
theorem becomes_iff : Becomes q v w ↔ w = ofCarrier q (v.convert q) := by
  constructor
  · intro h
    cases h with
    | measure x => rfl
    | count n => rfl
    | rounded hnear hsign =>
      have hsame := (Binary64.negative_ofInt64 _).trans hsign.symm
      exact congrArg Value.measure (hnear.unique (Binary64.nearestTo_ofInt64 _) hsame.symm)
    | truncated hfinite hwhole =>
      rw [← Binary64.toInt_toInt64 hfinite] at hwhole
      exact congrArg Value.count (Int64.toInt_inj.mp hwhole)
    | least => rfl
    | greatest => rfl
    | nan s => rfl
  · rintro rfl
    exact becomes_convert v q

end Value

namespace Record

/-- After any values have been stored one after the other, the record still belongs to its trial, a
field in which nothing was stored is as it was, and each other field has the one value that its last
value becomes in its cell. Nothing else is in the record: it is the only one of its trial with these
values in its fields. Values of different fields may change places. -/
theorem cells_setAll (r : Record) (vs : List (Field × Value)) :
    (r.setAll vs).trial = r.trial ∧
      (∀ f, f ∉ vs.map Prod.fst → (r.setAll vs).get f = r.get f) ∧
      (∀ before f v after, vs = before ++ (f, v) :: after → f ∉ after.map Prod.fst →
        ∃ w, (r.setAll vs).get f = some w ∧ ∀ w', v.Becomes f.quantity w' ↔ w' = w) ∧
      (∀ s : Record, s.trial = r.trial → (∀ f, s.get f = (r.setAll vs).get f) →
        s = r.setAll vs) ∧
      ∀ before f v g w after, vs = before ++ (f, v) :: (g, w) :: after → f ≠ g →
        r.setAll (before ++ (g, w) :: (f, v) :: after) = r.setAll vs := by
  refine ⟨trial_setAll r vs, fun f hf => get_setAll_of_notMem r hf, ?_, ?_, ?_⟩
  · rintro before f v after rfl hlast
    exact ⟨_, get_setAll_of_last r before v hlast, fun w' => Value.becomes_iff⟩
  · intro s htrial hget
    exact ext_get (htrial.trans (trial_setAll r vs).symm) hget
  · rintro before f v g w after rfl hne
    rw [setAll_append, setAll_append, setAll_cons, setAll_cons, setAll_cons, setAll_cons,
      set_comm _ hne.symm]

/-- A count just above `2 ^ 53` stays as it is in a cell for counts, where it takes the place of an
infinity, and is rounded in a cell for measures. -/
theorem cells_setAll_of_large_count :
    let n : Int64 := 9007199254740993
    let vs : List (Field × Value) :=
      [(.count1, .measure (.infinity true)), (.count1, .count n), (.avg1, .count n)]
    let r := (Record.empty ⟨⟨.threshold, 5⟩, 0⟩).setAll vs
    r.trial = ⟨⟨.threshold, 5⟩, 0⟩ ∧ r.get .time1 = none ∧ r.get .count1 = some (.count n) ∧
      r.get .avg1 = some (.measure (Binary64.ofNat 9007199254740992)) ∧
      (Value.count n).Becomes .measure (.measure (Binary64.ofNat 9007199254740992)) ∧
      (Record.empty ⟨⟨.threshold, 5⟩, 0⟩).setAll
        [(.count1, .measure (.infinity true)), (.avg1, .count n), (.count1, .count n)] = r := by
  intro n vs r
  obtain ⟨htrial, hunset, hlast, -, hswap⟩ := cells_setAll (Record.empty ⟨⟨.threshold, 5⟩, 0⟩) vs
  have hmeasure : r.get .avg1 = some (.measure (Binary64.ofNat 9007199254740992)) := by
    decide +kernel
  refine ⟨htrial, hunset .time1 (by decide), ?_, hmeasure, ?_, ?_⟩
  · obtain ⟨w, hw, honly⟩ := hlast [vs[0]] .count1 (.count n) [vs[2]] rfl (by decide)
    rw [(honly (.count n)).mp (.count n)]
    exact hw
  · obtain ⟨w, hw, honly⟩ := hlast [vs[0], vs[1]] .avg1 (.count n) [] rfl (by decide)
    exact (honly _).mpr (Option.some.inj (hmeasure.symm.trans hw))
  · exact hswap [vs[0]] .count1 (.count n) .avg1 (.count n) [] rfl (by decide)

end Record

end TrialSummary
