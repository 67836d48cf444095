import TrialSummary.Proofs.Decimal.RoundTrip
import TrialSummary.Proofs.Traversal
import TrialSummary.Proofs.Trial.Identity
import TrialSummary.Report.Draft

/-!
# The values behind the cells of a row

A cell tells the value that it was written for: a count is read back as an integer, a number as the
number, and no number is an integer text, so it is clear which of the two a cell is. NaN is left
out, because its text does not tell its sign. The cells of a row therefore tell the trial and the
values of all columns, and two rows are equal only if these are.
-/

namespace TrialSummary

namespace Value

def IsNumber : Value → Prop
  | .measure x => x.isNaN = false
  | .count _ => True

instance : DecidablePred IsNumber
  | .measure x => inferInstanceAs (Decidable (x.isNaN = false))
  | .count _ => inferInstanceAs (Decidable True)

/-- What a reader who tries integers before numbers finds in a cell. -/
def RestoredFrom (cell : String) : Value → Prop
  | .measure x => Binary64.read? cell.toList = some x ∧ Text.readInt64? cell.toList = none
  | .count n => Text.readInt64? cell.toList = some n

/-- A cell tells at most one value. -/
theorem rightUnique_restoredFrom : Relator.RightUnique RestoredFrom := by
  intro cell v w hv hw
  cases v with
  | measure x =>
    obtain ⟨hx, hnone⟩ := hv
    cases w with
    | measure y => exact congrArg measure (Option.some.inj (hx.symm.trans hw.1))
    | count n => exact absurd (hnone.symm.trans hw) (by simp)
  | count n =>
    cases w with
    | measure y => exact absurd (hw.2.symm.trans hv) (by simp)
    | count m => exact congrArg count (Option.some.inj (hv.symm.trans hw))

theorem restoredFrom_text {v : Value} (h : v.IsNumber) : v.RestoredFrom v.text := by
  cases v with
  | measure x =>
    rw [text, Binary64.render, RestoredFrom, String.toList_ofList]
    exact ⟨Binary64.read?_text_of_isNaN_eq_false h, x.readInt64?_text⟩
  | count n =>
    rw [text, RestoredFrom, String.toList_ofList]
    exact Text.readInt64?_writeInt n

/-- The numerals in front of the columns are read as integers as well. -/
theorem exists_restoredFrom_repr {n : Nat} (h : n < 2 ^ 63) :
    ∃ m : Int64, m.toInt = n ∧ (count m).RestoredFrom n.repr := by
  have hmax : (Text.digitsValue (Nat.toDigits 10 n) : Int) ≤ Int64.maxValue.toInt := by
    rw [Text.digitsValue_toDigits, Int64.toInt_maxValue]
    omega
  refine ⟨Int64.ofInt n, Int64.toInt_ofInt_of_le (by omega) (by omega), ?_⟩
  rw [RestoredFrom, Nat.toList_repr,
    Text.readInt64?_of_digits Nat.toDigits_ne_nil (Text.isDigit_toDigits n) hmax,
    Text.digitsValue_toDigits]

end Value

namespace Record

variable {q : Query} {r r' : Record}

theorem exists_lead_values (trial : TrialId) :
    ∃ lead : List Int64,
      lead.map Int64.toInt =
        [(trial.config.kind.code : Int), trial.config.rate.toNat, trial.db.toNat] ∧
      List.Forall₂ Value.RestoredFrom
        [trial.config.kind.code.repr, numberText trial.config.rate, numberText trial.db]
        (lead.map .count) := by
  have hcode : trial.config.kind.code < 2 ^ 63 := by
    cases trial.config.kind <;> decide
  have hrate := trial.config.rate.toNat_lt
  have hdb := trial.db.toNat_lt
  obtain ⟨k, hk, hkind⟩ := Value.exists_restoredFrom_repr hcode
  obtain ⟨m, hm, hm'⟩ := Value.exists_restoredFrom_repr (n := trial.config.rate.toNat) (by omega)
  obtain ⟨n, hn, hn'⟩ := Value.exists_restoredFrom_repr (n := trial.db.toNat) (by omega)
  exact ⟨[k, m, n], by simp [hk, hm, hn], .cons hkind (.cons hm' (.cons hn' .nil))⟩

/-- What the cells of some columns tell if all of them have numbers. -/
theorem exists_column_values {cs : List TrialColumn}
    (h : ∀ c ∈ cs, ∃ v ∈ r.get c.field, v.IsNumber) :
    ∃ values : List Value, cs.map (fun c => r.get c.field) = values.map some ∧
      List.Forall₂ Value.RestoredFrom (cs.map fun c => r.cellText c.field) values := by
  obtain ⟨values, hvalues⟩ := exists_forall₂_iff.mpr h
  refine ⟨values, map_eq_map_some_iff.mpr (hvalues.imp fun _ _ h => h.1), ?_⟩
  rw [List.forall₂_map_left_iff]
  refine hvalues.imp fun c v ⟨hget, hnumber⟩ => ?_
  have hcell : r.cellText c.field = v.text := by
    rw [cellText, Option.mem_def.mp hget, Option.map_some, Option.getD_some]
  rw [hcell]
  exact Value.restoredFrom_text hnumber

theorem exists_row_values (h : ∀ f ∈ q.required, ∃ v ∈ r.get f, v.IsNumber) :
    ∃ (lead : List Int64) (values : List Value),
      lead.map Int64.toInt =
        [(r.trial.config.kind.code : Int), r.trial.config.rate.toNat, r.trial.db.toNat] ∧
      q.trialColumns.map (fun c => r.get c.field) = values.map some ∧
      List.Forall₂ Value.RestoredFrom (r.row q) (lead.map .count ++ values) := by
  obtain ⟨lead, hlead, hleadCells⟩ := exists_lead_values r.trial
  have hcolumns : ∀ c ∈ q.trialColumns, ∃ v ∈ r.get c.field, v.IsNumber :=
    fun c hc => h c.field (List.mem_map_of_mem hc)
  obtain ⟨values, hvalues, hcells⟩ := exists_column_values hcolumns
  exact ⟨lead, values, hlead, hvalues, List.rel_append hleadCells hcells⟩

theorem trial_eq_of_lead {t u : TrialId}
    (h : [(t.config.kind.code : Int), t.config.rate.toNat, t.db.toNat] =
      [(u.config.kind.code : Int), u.config.rate.toNat, u.db.toNat]) : t = u := by
  obtain ⟨⟨kind, rate⟩, db⟩ := t
  obtain ⟨⟨kind', rate'⟩, db'⟩ := u
  simp only [List.cons.injEq, Int.natCast_inj, UInt32.toNat_inj, and_true] at h
  obtain ⟨hkind, rfl, rfl⟩ := h
  obtain rfl := TrialKind.code_injective hkind
  rfl

/-- If all columns of a query have numbers, then each cell of the row is read back: the first three
as the code of the kind, the rate and the number of the trial, and the others as the values of the
columns, where a measure is never read as a count. Two such rows are equal only if the trials are
and the values of all columns, both zeros told apart. -/
theorem row_restores (h : ∀ f ∈ q.required, ∃ v ∈ r.get f, v.IsNumber)
    (h' : ∀ f ∈ q.required, ∃ v ∈ r'.get f, v.IsNumber) :
    (∃ (lead : List Int64) (values : List Value),
      lead.map Int64.toInt =
        [(r.trial.config.kind.code : Int), r.trial.config.rate.toNat, r.trial.db.toNat] ∧
      q.trialColumns.map (fun c => r.get c.field) = values.map some ∧
      List.Forall₂ Value.RestoredFrom (r.row q) (lead.map .count ++ values)) ∧
    (r.row q = r'.row q → r.trial = r'.trial ∧ ∀ f ∈ q.required, r.get f = r'.get f) := by
  refine ⟨exists_row_values h, fun hrow => ?_⟩
  obtain ⟨lead, values, hlead, hvalues, hcells⟩ := exists_row_values h
  obtain ⟨lead', values', hlead', hvalues', hcells'⟩ := exists_row_values h'
  rw [← hrow] at hcells'
  have hall : lead.map Value.count ++ values = lead'.map Value.count ++ values' :=
    List.right_unique_forall₂' Value.rightUnique_restoredFrom hcells hcells'
  have hthree : lead.length = 3 := by simpa using congrArg List.length hlead
  have hthree' : lead'.length = 3 := by simpa using congrArg List.length hlead'
  have hlength : (lead.map Value.count).length = (lead'.map Value.count).length := by
    rw [List.length_map, List.length_map, hthree, hthree']
  obtain ⟨hleads, rfl⟩ := List.append_inj hall hlength
  obtain rfl : lead = lead' := List.map_injective_iff.mpr (fun _ _ => Value.count.inj) hleads
  refine ⟨trial_eq_of_lead (hlead.symm.trans hlead'), fun f hf => ?_⟩
  obtain ⟨c, hc, rfl⟩ := List.mem_map.mp hf
  exact List.map_inj_left.mp (hvalues.trans hvalues'.symm) c hc

/-- A record with a negative zero, the least count, a count of `-1` and the least positive number,
and another one that differs from it outside of the columns. -/
theorem row_restores_extremes :
    let least : Binary64 := .finite false ⟨1, by decide⟩
    let r : Record := (empty ⟨⟨.probabilistic, 50⟩, 3⟩).setAll
      [(.time1, .measure (Binary64.zero true)), (.pgreq1, .count Int64.minValue),
        (.count1, .count (-1)), (.avg1, .measure least)]
    let r' := r.set .time2 (.measure (.infinity true))
    (∀ f ∈ Query.one.required, ∃ v ∈ r.get f, v.IsNumber) ∧
      (∀ f ∈ Query.one.required, ∃ v ∈ r'.get f, v.IsNumber) ∧
      List.Forall₂ Value.RestoredFrom
        ["1", "50", "3", "-0.0", "-9223372036854775808", "-1", "5e-324"]
        [.count 1, .count 50, .count 3, .measure (Binary64.zero true), .count Int64.minValue,
          .count (-1), .measure least] ∧
      r.row .one = r'.row .one ∧ ∀ f ∈ Query.one.required, r.get f = r'.get f := by
  intro least r r'
  have hr : ∀ f ∈ Query.one.required, ∃ v ∈ r.get f, v.IsNumber := by decide
  have hr' : ∀ f ∈ Query.one.required, ∃ v ∈ r'.get f, v.IsNumber := by decide
  have hrow : r.row .one = r'.row .one := by decide +kernel
  have htext : r.row .one = ["1", "50", "3", "-0.0", "-9223372036854775808", "-1", "5e-324"] := by
    decide +kernel
  obtain ⟨⟨lead, values, hlead, hvalues, hcells⟩, hequal⟩ := row_restores hr hr'
  have hgets : Query.one.trialColumns.map (fun c => r.get c.field) =
      [Value.measure (Binary64.zero true), .count Int64.minValue, .count (-1),
        .measure least].map some := by
    decide
  obtain rfl := List.map_injective_iff.mpr (Option.some_injective _) (hvalues.symm.trans hgets)
  have hnumbers : lead.map Int64.toInt = [1, 50, 3].map Int64.toInt := by
    rw [hlead]
    decide
  obtain rfl := List.map_injective_iff.mpr (fun _ _ => Int64.toInt_inj.mp) hnumbers
  rw [htext] at hcells
  exact ⟨hr, hr', hcells, hrow, (hequal hrow).2⟩

end Record

end TrialSummary
