import TrialSummary.Decimal.Layout
import TrialSummary.Decimal.Reading
import TrialSummary.Proofs.Decimal.Rounding
import TrialSummary.Proofs.Text.Numeral

/-!
# The two layouts of a decimal

The positional layout consists of digits, a point and digits, with at least one digit on each side.
The scientific layout consists of the digits with a point behind the first one, if there are more,
and a power of ten. Neither loses anything: the exponent form reads back as the same decimal, the
positional form as one of the same value.
-/

namespace TrialSummary.Decimal

open Text

theorem read?_point (whole fraction tail : List Char) (hne : whole ≠ [])
    (hwhole : ∀ c ∈ whole, c.isDigit = true) (hfraction : ∀ c ∈ fraction, c.isDigit = true)
    (htail : StopsRun Char.isDigit tail) :
    read? (whole ++ '.' :: (fraction ++ tail)) = (readExponent? tail).map fun e =>
      ⟨digitsValue (whole ++ fraction), e - fraction.length⟩ := by
  have hstop : StopsRun Char.isDigit ('.' :: (fraction ++ tail)) := stopsRun_cons.mpr rfl
  have hempty : whole.isEmpty = false := by simpa using hne
  simp only [read?, takeWhile_run hwhole hstop, dropWhile_run hwhole hstop,
    takeWhile_run hfraction htail, dropWhile_run hfraction htail, hempty, Bool.false_and,
    Bool.false_eq_true, if_false]

theorem read?_whole {whole tail : List Char} (hne : whole ≠ [])
    (hwhole : ∀ c ∈ whole, c.isDigit = true) (htail : StopsRun Char.isDigit tail)
    (hpoint : tail.head? ≠ some '.') :
    read? (whole ++ tail) = (readExponent? tail).map fun e => ⟨digitsValue whole, e⟩ := by
  have hempty : whole.isEmpty = false := by simpa using hne
  simp only [read?, takeWhile_run hwhole htail, dropWhile_run hwhole htail]
  split
  · simp at hpoint
  · simp [hempty]

theorem readExponent?_writeInt (z : Int) : readExponent? ('e' :: writeInt z) = some z := by
  simp [readExponent?]

theorem isDigit_digits (d : Decimal) : ∀ c ∈ d.digits, c.isDigit = true := isDigit_toDigits _

theorem digits_ne_nil (d : Decimal) : d.digits ≠ [] := Nat.toDigits_ne_nil

@[simp] theorem digitsValue_digits (d : Decimal) : digitsValue d.digits = d.coefficient :=
  digitsValue_toDigits _

theorem isDigit_zeros (n : Nat) : ∀ c ∈ List.replicate n '0', c.isDigit = true := by
  intro c hc
  rw [List.eq_of_mem_replicate hc]
  rfl

/-- Digits around a point that denote the value of a decimal. -/
structure PointDigits (d : Decimal) (whole fraction : List Char) : Prop where
  whole_ne_nil : whole ≠ []
  fraction_ne_nil : fraction ≠ []
  isDigit : ∀ c ∈ whole ++ fraction, c.isDigit = true
  value : ∀ s, toBinary64 s ⟨digitsValue (whole ++ fraction), -(fraction.length : Int)⟩ =
    d.toBinary64 s

/-- With an exponent of zero or more the digits and the zeros behind them stand in front of the
point, and one zero stands behind it. -/
theorem pointDigits_ofNat (c e : Nat) :
    PointDigits ⟨c, .ofNat e⟩ (digits ⟨c, .ofNat e⟩ ++ List.replicate e '0') ['0'] where
  whole_ne_nil := by simp [digits_ne_nil]
  fraction_ne_nil := by simp
  isDigit := by
    intro x hx
    rw [List.append_assoc, ← List.replicate_succ'] at hx
    exact (List.mem_append.mp hx).elim (isDigit_digits _ x) (isDigit_zeros _ x)
  value := by
    intro s
    rw [List.append_assoc, ← List.replicate_succ', digitsValue_append, digitsValue_zeros,
      List.length_replicate, digitsValue_digits, Nat.add_zero, List.length_singleton]
    have hshift := toBinary64_shift s c (e + 1) e
    rw [show (e : Int) - (e + 1 : Nat) = -((1 : Nat) : Int) by omega] at hshift
    exact hshift

/-- The digits of a decimal, with zeros in front of them up to a length. -/
def paddedDigits (d : Decimal) (length : Nat) : List Char :=
  List.replicate (length - d.digits.length) '0' ++ d.digits

theorem isDigit_paddedDigits (d : Decimal) (length : Nat) :
    ∀ c ∈ d.paddedDigits length, c.isDigit = true :=
  fun c hc => (List.mem_append.mp hc).elim (isDigit_zeros _ c) (d.isDigit_digits c)

theorem digitsValue_paddedDigits (d : Decimal) (length : Nat) :
    digitsValue (d.paddedDigits length) = d.coefficient := by
  rw [paddedDigits, digitsValue_append, digitsValue_zeros, digitsValue_digits, Nat.zero_mul,
    Nat.zero_add]

theorem le_length_paddedDigits (d : Decimal) (length : Nat) :
    length ≤ (d.paddedDigits length).length := by
  simp only [paddedDigits, List.length_append, List.length_replicate]
  omega

/-- With a negative exponent the point is put between the digits, or into the zeros in front. -/
theorem pointDigits_negSucc (c e : Nat) :
    let padded := paddedDigits ⟨c, .negSucc e⟩ (e + 2)
    PointDigits ⟨c, .negSucc e⟩ (padded.take (padded.length - (e + 1)))
      (padded.drop (padded.length - (e + 1))) := by
  intro padded
  have hlength : e + 2 ≤ padded.length := le_length_paddedDigits _ _
  have hfraction : (padded.drop (padded.length - (e + 1))).length = e + 1 := by
    rw [List.length_drop]
    omega
  refine ⟨?_, ?_, ?_, ?_⟩
  · apply List.ne_nil_of_length_pos
    rw [List.length_take]
    omega
  · apply List.ne_nil_of_length_pos
    omega
  · rw [List.take_append_drop]
    exact isDigit_paddedDigits _ _
  · intro s
    rw [List.take_append_drop, hfraction, digitsValue_paddedDigits]
    rfl

theorem positional_eq (d : Decimal) :
    ∃ whole fraction, d.positional = whole ++ '.' :: fraction ∧ PointDigits d whole fraction := by
  obtain ⟨c, e⟩ := d
  cases e with
  | ofNat e => exact ⟨_, _, rfl, pointDigits_ofNat c e⟩
  | negSucc e => exact ⟨_, _, rfl, pointDigits_negSucc c e⟩

/-- The positional layout keeps the value of a decimal. -/
theorem read?_positional (d : Decimal) :
    ∃ r, read? d.positional = some r ∧ ∀ s, r.toBinary64 s = d.toBinary64 s := by
  obtain ⟨whole, fraction, heq, h⟩ := d.positional_eq
  have hread := read?_point whole fraction [] h.whole_ne_nil
    (fun c hc => h.isDigit c (List.mem_append_left _ hc))
    (fun c hc => h.isDigit c (List.mem_append_right _ hc)) stopsRun_nil
  rw [List.append_nil, ← heq] at hread
  refine ⟨_, hread, fun s => ?_⟩
  rw [← h.value s]
  simp only [Int.zero_sub]

/-- The power of ten of the first digit. -/
def leadingPower (d : Decimal) : Int := d.exponent + d.digits.length - 1

/-- The scientific layout has a point behind the first digit if there are more digits. -/
theorem scientific_eq (d : Decimal) : ∃ first rest, d.digits = first :: rest ∧
    d.scientific = (first :: if rest = [] then [] else '.' :: rest) ++
      'e' :: writeInt d.leadingPower := by
  have hexponent (z : Int) :
      'e' :: (if z < 0 then ['-'] else []) ++ Nat.toDigits 10 z.natAbs = 'e' :: writeInt z := by
    rw [writeInt]
    split <;> rfl
  rw [scientific]
  simp only [hexponent]
  split
  · next first heq => exact ⟨first, [], heq, rfl⟩
  · next first rest hne heq =>
    refine ⟨first, rest, heq, ?_⟩
    rw [if_neg hne]
    rfl
  · next heq => exact absurd heq d.digits_ne_nil

/-- The scientific layout loses nothing of a decimal. -/
theorem read?_scientific (d : Decimal) : read? d.scientific = some d := by
  obtain ⟨first, rest, hdigits, heq⟩ := d.scientific_eq
  have hstop : StopsRun Char.isDigit ('e' :: writeInt d.leadingPower) := stopsRun_cons.mpr rfl
  have hall := d.isDigit_digits
  have hvalue := d.digitsValue_digits
  have hpower : d.leadingPower = d.exponent + rest.length := by
    rw [leadingPower, hdigits, List.length_cons]
    omega
  rw [hdigits] at hall hvalue
  have hfirst : ∀ c ∈ [first], c.isDigit = true := by simpa using hall first (by simp)
  have hrest : ∀ c ∈ rest, c.isDigit = true := fun c hc => hall c (by simp [hc])
  rw [heq]
  split
  · next hnil =>
    subst hnil
    rw [read?_whole (by simp) hfirst hstop (by simp), readExponent?_writeInt, hvalue, hpower,
      List.length_nil]
    simp
  · have hread := read?_point [first] rest _ (by simp) hfirst hrest hstop
    rw [readExponent?_writeInt, List.singleton_append, List.singleton_append, hvalue,
      Option.map_some, hpower, Int.add_sub_cancel] at hread
    rw [hpower]
    exact hread

end TrialSummary.Decimal
