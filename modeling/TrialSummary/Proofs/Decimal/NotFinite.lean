import TrialSummary.Decimal.Reading
import TrialSummary.Proofs.Binary64.Overflow
import TrialSummary.Proofs.Decimal.RoundTrip

/-!
# Texts of numbers that are not finite

The grammar of measured numbers has words for NaN and the infinities, and it has decimals of any
size. So a text of the grammar stands for no finite number exactly if it is one of the words, in any
letter case and with any sign, or a decimal that is not below the threshold of overflow.
-/

namespace TrialSummary

namespace Decimal

def toRat (d : Decimal) : Rat := d.coefficient * 10 ^ d.exponent

theorem quotient_scaledCoefficient (d : Decimal) :
    Binary64.quotient d.scaledCoefficient d.scale = d.toRat := by
  have hpower : (10 : Rat) ^ d.exponent = 10 ^ d.exponent.toNat / 10 ^ (-d.exponent).toNat := by
    have hsplit : d.exponent = (d.exponent.toNat : Int) - ((-d.exponent).toNat : Int) := by omega
    conv_lhs => rw [hsplit]
    rw [zpow_sub₀ (by decide), zpow_natCast, zpow_natCast]
  rw [Binary64.quotient, scaledCoefficient, scale, toRat, hpower]
  push_cast
  rw [mul_div_mul_right _ _ Binary64.oneUnits_cast_pos.ne', mul_div_assoc]

/-- A decimal overflows exactly from the threshold on. -/
theorem isFinite_toBinary64_iff (s : Bool) (d : Decimal) :
    (d.toBinary64 s).isFinite = true ↔ d.toRat < Binary64.overflowThreshold := by
  rw [toBinary64_eq_ofQuotient, Binary64.isFinite_ofQuotient_iff_lt s _ d.scale_pos,
    quotient_scaledCoefficient]

theorem toBinary64_of_le {d : Decimal} (h : Binary64.overflowThreshold ≤ d.toRat) (s : Bool) :
    d.toBinary64 s = .infinity s := by
  have hlarge : (d.toBinary64 s).isFinite = false := by
    rw [Bool.eq_false_iff, ne_eq, isFinite_toBinary64_iff]
    exact not_lt.mpr h
  rw [toBinary64_eq_ofQuotient] at hlarge ⊢
  exact Binary64.ofQuotient_of_isFinite_eq_false hlarge

theorem head_of_read? {cs : List Char} {d : Decimal} (h : read? cs = some d) :
    ∃ c rest, cs = c :: rest ∧ (c.isDigit = true ∨ c = '.') := by
  cases cs with
  | nil => cases h
  | cons c rest =>
    refine ⟨c, rest, rfl, ?_⟩
    by_contra hother
    obtain ⟨hdigit, hpoint⟩ := not_or.mp hother
    simp [read?, hdigit, hpoint] at h

end Decimal

namespace Binary64

/-- The text of the grammar stands for a number that is not finite. -/
inductive NotFiniteText (cs : List Char) : Binary64 → Prop where
  | nan (hword : (Text.splitSign cs).2.map Char.toLower = ['n', 'a', 'n']) :
    NotFiniteText cs (.nan (Text.splitSign cs).1)
  | infinity (hword : (Text.splitSign cs).2.map Char.toLower = ['i', 'n', 'f'] ∨
      (Text.splitSign cs).2.map Char.toLower = ['i', 'n', 'f', 'i', 'n', 'i', 't', 'y']) :
    NotFiniteText cs (.infinity (Text.splitSign cs).1)
  | tooLarge {d : Decimal} (hread : Decimal.read? (Text.splitSign cs).2 = some d)
      (hlarge : overflowThreshold ≤ d.toRat) : NotFiniteText cs (.infinity (Text.splitSign cs).1)

theorem readWord?_of_read? (s : Bool) {cs : List Char} {d : Decimal}
    (h : Decimal.read? cs = some d) : readWord? s (cs.map Char.toLower) = none := by
  obtain ⟨c, rest, rfl, hdigit | rfl⟩ := Decimal.head_of_read? h
  · exact readWord?_of_startsWithDigit s ⟨c, rest, rfl, hdigit⟩
  · have hlower : Char.toLower '.' = '.' := by decide
    simp [readWord?, hlower]

theorem readWord?_eq_some_iff {s : Bool} {cs : List Char} {x : Binary64} :
    readWord? s cs = some x ↔
      cs = ['n', 'a', 'n'] ∧ x = .nan s ∨
        (cs = ['i', 'n', 'f'] ∨ cs = ['i', 'n', 'f', 'i', 'n', 'i', 't', 'y']) ∧
          x = .infinity s := by
  constructor
  · intro h
    rw [readWord?] at h
    split at h
    · next hnan => exact .inl ⟨hnan, (Option.some.inj h).symm⟩
    · split at h
      · next hinfinity => exact .inr ⟨hinfinity, (Option.some.inj h).symm⟩
      · cases h
  · rintro (⟨rfl, rfl⟩ | ⟨rfl | rfl, rfl⟩) <;> rfl

/-- Behind its sign a text is a word or a decimal, and it is never both. -/
theorem read?_eq_some_iff {cs : List Char} {x : Binary64} :
    read? cs = some x ↔
      readWord? (Text.splitSign cs).1 ((Text.splitSign cs).2.map Char.toLower) = some x ∨
        ∃ d, Decimal.read? (Text.splitSign cs).2 = some d ∧
          x = d.toBinary64 (Text.splitSign cs).1 := by
  rw [read?]
  generalize Text.splitSign cs = signed
  obtain ⟨s, body⟩ := signed
  cases hword : readWord? s (body.map Char.toLower) with
  | some y =>
    have hnone : ∀ d, Decimal.read? body ≠ some d := by
      intro d hd
      rw [readWord?_of_read? s hd] at hword
      cases hword
    simp [hword, hnone]
  | none => simp [hword, eq_comm]

theorem notFiniteText_iff {cs : List Char} {x : Binary64} :
    NotFiniteText cs x ↔ read? cs = some x ∧ x.isFinite = false := by
  rw [read?_eq_some_iff, readWord?_eq_some_iff]
  constructor
  · intro h
    cases h with
    | nan hword => exact ⟨.inl (.inl ⟨hword, rfl⟩), rfl⟩
    | infinity hword => exact ⟨.inl (.inr ⟨hword, rfl⟩), rfl⟩
    | tooLarge hread hlarge =>
      exact ⟨.inr ⟨_, hread, (Decimal.toBinary64_of_le hlarge _).symm⟩, rfl⟩
  · rintro ⟨(⟨hword, rfl⟩ | ⟨hword, rfl⟩) | ⟨d, hread, rfl⟩, hinfinite⟩
    · exact .nan hword
    · exact .infinity hword
    · have hlarge : overflowThreshold ≤ d.toRat := by
        rw [← not_lt, ← Decimal.isFinite_toBinary64_iff (Text.splitSign cs).1, hinfinite]
        exact Bool.false_ne_true
      rw [Decimal.toBinary64_of_le hlarge]
      exact .tooLarge hread hlarge

end Binary64

end TrialSummary
