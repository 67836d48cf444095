import Mathlib.Tactic.Ring
import TrialSummary.Proofs.Decimal.Characters

/-!
# Numbers read back from their texts

A finite number is written with the digits of its shortest decimal, which reads back as it by
construction: every decimal that the search can return has passed that test, and the last one is
exact. Since no layout loses anything of a decimal, reading undoes writing for each finite number,
both zeros included.
-/

namespace TrialSummary.Binary64

theorem toBinary64_finite {d : Decimal} {t : Bool} {k : Fin finiteCount}
    (h : d.toBinary64 t = .finite t k) (s : Bool) : d.toBinary64 s = .finite s k := by
  rw [Decimal.toBinary64_eq_ofQuotient, ofQuotient] at h ⊢
  split at h
  · next hk =>
    rw [dif_pos hk]
    simp_all
  · simp at h

theorem toBinary64_of_readsBack {d : Decimal} {k : Fin finiteCount} (h : readsBack k d = true)
    (s : Bool) : d.toBinary64 s = .finite s k := by
  rw [readsBack] at h
  split at h
  · next t j heq =>
    have hj : j = k := Fin.ext (by simpa using h)
    have ht : t = false := by
      rw [Decimal.toBinary64_eq_ofQuotient, ofQuotient] at heq
      split at heq <;> simp_all
    subst hj ht
    exact toBinary64_finite heq s
  · simp at h

/-- Each unit is a multiple of `10 ^ (-places)` if there are `2 ^ places` units in one. -/
theorem toBinary64_wholeUnits (s : Bool) (n places : Nat) (h : oneUnits = 2 ^ places) :
    Decimal.toBinary64 s ⟨n * Nat.pow 5 places, -(places : Int)⟩ = ofQuotient s n 1 := by
  rw [Decimal.toBinary64_eq_ofQuotient]
  apply ofQuotient_congr s (Decimal.scale_pos _) Nat.one_pos
  have hpow : (10 : Nat) ^ places = 5 ^ places * 2 ^ places := Nat.mul_pow 5 2 places
  simp only [Decimal.scaledCoefficient, Decimal.scale, Int.toNat_neg_natCast, Int.neg_neg,
    Int.toNat_natCast, Nat.pow_eq, h, hpow]
  ring

theorem toBinary64_exactDecimal (s : Bool) (k : Fin finiteCount) :
    (exactDecimal k).toBinary64 s = .finite s k := by
  have hround := toBinary64_wholeUnits s (units k) 1074 oneUnits_eq
  exact hround.trans (ofQuotient_units s k)

theorem readsBack_of_neighbour? {k : Nat} {e : Int} {d : Decimal} (h : neighbour? k e = some d) :
    readsBack k d = true := by
  simp only [neighbour?] at h
  split at h
  · next hlower hupper =>
    cases h
    split
    · exact hlower
    · exact hupper
  · next hlower _ =>
    cases h
    exact hlower
  · next _ hupper =>
    cases h
    exact hupper
  · simp at h

/-- From every grid the walk ends on a decimal that reads back. -/
theorem toBinary64_shortestFrom (s : Bool) (k : Fin finiteCount) (steps : Nat) :
    (shortestFrom k steps).toBinary64 s = .finite s k := by
  induction steps with
  | zero => exact toBinary64_exactDecimal s k
  | succ steps ih =>
    rw [shortestFrom]
    cases h : neighbour? k ((steps : Int) - 1073) with
    | none => exact ih
    | some d => exact toBinary64_of_readsBack (readsBack_of_neighbour? h) s

/-- The shortest decimal of a number reads back as the number. -/
theorem toBinary64_shortest (s : Bool) (k : Fin finiteCount) :
    (shortest k).toBinary64 s = .finite s k :=
  toBinary64_shortestFrom s k _

def magnitudeText (k : Nat) : List Char :=
  if isScientific k then (shortest k).scientific
  else if k = 0 then Decimal.positional ⟨0, 0⟩ else (shortest k).positional

theorem text_finite (s : Bool) (k : Fin finiteCount) :
    text (.finite s k) = signText s ++ magnitudeText k := rfl

theorem startsWithDigit_magnitudeText (k : Nat) : Decimal.StartsWithDigit (magnitudeText k) := by
  rw [magnitudeText]
  split
  · exact Decimal.startsWithDigit_scientific _
  · split <;> exact Decimal.startsWithDigit_positional _

/-- The text of a magnitude denotes a decimal that is rounded to the magnitude. -/
theorem read?_magnitudeText (k : Fin finiteCount) :
    ∃ d, Decimal.read? (magnitudeText k) = some d ∧ ∀ s, d.toBinary64 s = .finite s k := by
  rw [magnitudeText]
  split
  · exact ⟨_, Decimal.read?_scientific _, fun s => toBinary64_shortest s k⟩
  · split
    · next hzero =>
      obtain ⟨d, hread, hvalue⟩ := Decimal.read?_positional ⟨0, 0⟩
      refine ⟨d, hread, fun s => ?_⟩
      rw [hvalue, Decimal.toBinary64_zero, zero]
      exact congrArg (Binary64.finite s) (Fin.ext hzero.symm)
    · obtain ⟨d, hread, hvalue⟩ := Decimal.read?_positional (shortest k)
      exact ⟨d, hread, fun s => (hvalue s).trans (toBinary64_shortest s k)⟩

theorem toLower_of_isDigit {c : Char} (h : c.isDigit = true) : c.toLower = c := by
  obtain ⟨hlow, hhigh⟩ := Text.toNat_of_isDigit h
  have hupper : ¬(c.val ≥ 'A'.val ∧ c.val ≤ 'Z'.val) := by
    rintro ⟨hA, -⟩
    have : 65 ≤ c.toNat := hA
    omega
  exact dif_neg hupper

theorem readWord?_of_startsWithDigit (s : Bool) {cs : List Char}
    (h : Decimal.StartsWithDigit cs) : readWord? s (cs.map Char.toLower) = none := by
  obtain ⟨c, rest, rfl, hc⟩ := h
  have hn : c ≠ 'n' := by rintro rfl; simp at hc
  have hi : c ≠ 'i' := by rintro rfl; simp at hc
  rw [List.map_cons, toLower_of_isDigit hc]
  simp [readWord?, hn, hi]

theorem splitSign_signText (s : Bool) {cs : List Char} (h : Decimal.StartsWithDigit cs) :
    Text.splitSign (signText s ++ cs) = (s, cs) := by
  obtain ⟨c, rest, rfl, hc⟩ := h
  cases s with
  | true => rfl
  | false => exact Text.splitSign_of_isDigit hc

theorem read?_text (s : Bool) (k : Fin finiteCount) :
    read? (text (.finite s k)) = some (.finite s k) := by
  have hstart := startsWithDigit_magnitudeText k
  obtain ⟨d, hread, hvalue⟩ := read?_magnitudeText k
  rw [text_finite, read?, splitSign_signText s hstart]
  simp only [readWord?_of_startsWithDigit s hstart, hread, Option.map_some, hvalue]

/-- So does each infinity. Only the sign of a NaN is lost. -/
theorem read?_text_of_isNaN_eq_false {x : Binary64} (h : x.isNaN = false) :
    read? x.text = some x := by
  cases x with
  | nan s => cases h
  | infinity s => cases s <;> decide
  | finite s k => exact read?_text s k

end TrialSummary.Binary64
