import TrialSummary.Proofs.Decimal.SignificantDigits

/-!
# The shortest text of a number

A finite number is written with as few significant digits as any text that is read as it, and of the
texts with as few digits that are read as it none denotes a nearer value. Unless the neighbours of the
number are at different distances, no text with as few digits denotes a nearer value at all. At a
power of two there can be one, on the side where the neighbour is nearer, but it is read as that
neighbour.

An exponent is written exactly outside the range from `10 ^ (-4)` to `10 ^ 16`. Inside of it there
are digits on both sides of a point, and a whole number ends in a point and a zero.
-/

namespace TrialSummary.Binary64

open Decimal

theorem signed_signed (s t : Bool) (q : Rat) : signed s (signed t q) = signed (s ^^ t) q := by
  cases s <;> cases t <;> simp [signed]

theorem abs_signed_sub (s : Bool) (q r : Rat) : |signed s q - r| = |q - signed s r| := by
  cases s
  · rfl
  · rw [signed, signed, if_pos rfl, if_pos rfl, ← abs_neg]
    ring_nf

theorem abs_sub_toRat_finite (s : Bool) (k : Fin finiteCount) (q : Rat) :
    |q - toRat (.finite s k)| = |signed s q - grid k| := by
  rw [toRat_finite, abs_signed_sub]

/-- How far a value is from a number does not depend on the sign that both have. -/
theorem abs_signed_sub_toRat_finite (s : Bool) (k : Fin finiteCount) (q : Rat) :
    |signed s q - toRat (.finite s k)| = |q - grid k| := by
  rw [abs_sub_toRat_finite, signed_signed, Bool.xor_self, signed, if_neg Bool.false_ne_true]

section Written

/-- The decimal whose digits are written. Zero has a digit of its own. -/
def written (k : Nat) : Decimal := if k = 0 then ⟨0, 0⟩ else shortest k

theorem written_of_pos {k : Nat} (hk : 0 < k) : written k = shortest k := if_neg hk.ne'

theorem isScientific_iff (k : Nat) : isScientific k = true ↔
    10 ^ 16 ≤ grid k ∨ 0 < grid k ∧ grid k < 10 ^ (-4 : Int) := by
  have hlarge : 10 ^ 16 ≤ grid k ↔ 10 ^ 16 * oneUnits ≤ units k := by
    rw [grid_natCast, le_div_iff₀ oneUnits_cast_pos]
    norm_cast
  have hsmall : grid k < 10 ^ (-4 : Int) ↔ units k * 10 ^ 4 < oneUnits := by
    rw [grid_natCast, zpow_neg, div_lt_iff₀ oneUnits_cast_pos, inv_mul_eq_div,
      lt_div_iff₀ (by norm_num)]
    norm_cast
  have hpos : 0 < grid k ↔ k ≠ 0 := by
    refine ⟨?_, fun hk => grid_pos (Nat.pos_of_ne_zero hk)⟩
    rintro h rfl
    exact h.ne grid_zero.symm
  rw [hlarge, hsmall, hpos]
  simp [isScientific]

theorem not_isScientific_zero : ¬ isScientific 0 = true := by
  rw [isScientific_iff, Nat.cast_zero, grid_zero]
  norm_num

theorem magnitudeText_eq (k : Nat) : magnitudeText k =
    if isScientific k then (written k).scientific else (written k).positional := by
  rw [magnitudeText]
  split
  · next hscientific =>
    have hk : k ≠ 0 := by
      rintro rfl
      exact not_isScientific_zero hscientific
    rw [written, if_neg hk]
  · rw [written]
    split <;> rfl

theorem textValue?_text (s : Bool) (k : Fin finiteCount) :
    textValue? (text (.finite s k)) = some (signed s (written k).toRat) := by
  rw [text_finite, magnitudeText_eq]
  split
  · exact textValue?_scientific s _
  · exact textValue?_positional s _

theorem length_significantDigits_text_le (s : Bool) (k : Fin finiteCount) :
    (significantDigits (text (.finite s k))).length ≤ (written k).digits.length := by
  rw [text_finite, magnitudeText_eq]
  split
  · exact length_significantDigits_scientific_le s _
  · exact length_significantDigits_positional_le s _

end Written

section Readers

variable {s : Bool} {k : Fin finiteCount} {cs : List Char}

theorem sign_eq_of_toBinary64 {t : Bool} {d : Decimal} (h : d.toBinary64 t = .finite s k) :
    t = s := by
  rw [toBinary64_eq_ofQuotient, ofQuotient] at h
  split at h <;> simp_all

/-- What is read as a finite number is a decimal in the interval of its magnitude, with its sign. -/
theorem roundsTo_of_read? (h : read? cs = some (.finite s k)) :
    ∃ d, Decimal.read? (Text.splitSign cs).2 = some d ∧ (Text.splitSign cs).1 = s ∧
      RoundsTo d.toRat k := by
  rcases read?_eq_some_iff.mp h with hword | ⟨d, hread, hd⟩
  · rcases readWord?_eq_some_iff.mp hword with ⟨-, hx⟩ | ⟨-, hx⟩ <;> cases hx
  · have hsign := sign_eq_of_toBinary64 hd.symm
    rw [hsign] at hd
    exact ⟨d, hread, hsign, toBinary64_eq_finite_iff.mp hd.symm⟩

theorem significantDigits_text_zero (hk : k.val = 0) :
    significantDigits (text (.finite s k)) = [] := by
  have hzero : Binary64.finite s k = zero s := congrArg (Binary64.finite s) (Fin.ext hk)
  rw [hzero]
  cases s <;> decide +kernel

/-- A text that is read as the number has no fewer significant digits. -/
theorem length_significantDigits_le_of_read? (h : read? cs = some (.finite s k)) :
    (significantDigits (text (.finite s k))).length ≤ (significantDigits cs).length := by
  rcases Nat.eq_zero_or_pos k.val with hzero | hpos
  · rw [significantDigits_text_zero hzero]
    exact Nat.zero_le _
  · obtain ⟨d, hread, -, hround⟩ := roundsTo_of_read? h
    obtain ⟨d', hvalue, hcoefficient⟩ := exists_significant hread
    rw [← hvalue] at hround
    have hlength : 0 < (significantDigits cs).length := by
      refine Nat.pos_of_ne_zero fun hnone => ?_
      have := coefficient_pos_of_toRat_pos (hround.pos hpos)
      rw [hnone, Nat.pow_zero] at hcoefficient
      omega
    have hshortest := coefficient_shortest_lt hpos hround hcoefficient
    refine (length_significantDigits_text_le s k).trans ?_
    rw [written_of_pos hpos]
    exact (Nat.length_toDigits_le_iff (by decide) hlength).mpr hshortest

/-- A text with no more significant digits that denotes a value in the interval of the number does
not denote a nearer one. -/
theorem shortest_nearest_of_text (hk : 0 < k.val) {d : Decimal}
    (hread : Decimal.read? (Text.splitSign cs).2 = some d) (hround : RoundsTo d.toRat k)
    (hlength : (significantDigits cs).length ≤
      (significantDigits (text (.finite s k))).length) :
    |(shortest k).toRat - grid k| ≤ |d.toRat - grid k| := by
  obtain ⟨d', hvalue, hcoefficient⟩ := exists_significant hread
  have hdigits := hlength.trans (length_significantDigits_text_le s k)
  rw [written_of_pos hk] at hdigits
  rw [← hvalue] at hround ⊢
  refine shortest_nearest hk hround (hcoefficient.trans_le ?_)
  exact Nat.pow_le_pow_right (by decide) hdigits

/-- The text denotes a value, and no other text that is admitted and has as few significant digits
denotes a value nearer to the number. -/
def NearestText (admitted : List Char → Prop) (cs : List Char) (x : Binary64) : Prop :=
  ∃ q, textValue? cs = some q ∧ ∀ other r, admitted other → textValue? other = some r →
    (significantDigits other).length ≤ (significantDigits cs).length →
    |q - x.toRat| ≤ |r - x.toRat|

theorem nearestText_zero (admitted : List Char → Prop) (hk : k.val = 0) :
    NearestText admitted (text (.finite s k)) (.finite s k) := by
  refine ⟨_, textValue?_text s k, fun other r _ _ _ => ?_⟩
  have hzero : (written k).toRat = 0 := by
    rw [written, if_pos hk, Decimal.toRat, Nat.cast_zero, zero_mul]
  rw [abs_signed_sub_toRat_finite, hzero, hk, Nat.cast_zero, grid_zero, sub_self, abs_zero]
  exact abs_nonneg _

theorem nearestText_read? (s : Bool) (k : Fin finiteCount) :
    NearestText (fun cs => read? cs = some (.finite s k)) (text (.finite s k)) (.finite s k) := by
  rcases Nat.eq_zero_or_pos k.val with hzero | hpos
  · exact nearestText_zero _ hzero
  refine ⟨_, textValue?_text s k, fun other r hread hr hlength => ?_⟩
  obtain ⟨d, hd, hsign, hround⟩ := roundsTo_of_read? hread
  rw [textValue?, hd, hsign, Option.map_some, Option.some_inj] at hr
  rw [← hr, abs_signed_sub_toRat_finite, abs_signed_sub_toRat_finite, written_of_pos hpos]
  exact shortest_nearest_of_text hpos hd hround hlength

/-- If the neighbours are equally far away, every nearer value would be read as the number. -/
theorem nearestText_of_evenGaps (s : Bool) {k : Fin finiteCount} (hgaps : EvenGaps k) :
    NearestText (fun _ => True) (text (.finite s k)) (.finite s k) := by
  rcases Nat.eq_zero_or_pos k.val with hzero | hpos
  · exact nearestText_zero _ hzero
  refine ⟨_, textValue?_text s k, fun other r _ hr hlength => ?_⟩
  obtain ⟨d, hd, rfl⟩ := Option.map_eq_some_iff.mp hr
  rw [abs_signed_sub_toRat_finite, abs_sub_toRat_finite, signed_signed, written_of_pos hpos]
  by_contra hnearer
  rw [not_le] at hnearer
  have hround := (nearestOnGrid_shortest k).roundsTo.of_near hgaps hnearer.le
  have hsign : (s ^^ (Text.splitSign other).1) = false := by
    rw [Bool.eq_false_iff]
    intro hother
    have hvalue := hround.pos hpos
    have hnonneg : 0 ≤ d.toRat := mul_nonneg (Nat.cast_nonneg _) (ten_zpow_pos _).le
    rw [hother, signed, if_pos rfl] at hvalue
    linarith
  rw [hsign] at hround hnearer
  exact absurd (shortest_nearest_of_text hpos hd hround hlength) (not_le.mpr hnearer)

end Readers

section Forms

variable {s : Bool} {k : Fin finiteCount}

/-- A text that ends in an exponent. -/
def HasExponent (cs : List Char) : Prop :=
  ∃ mantissa power, cs = mantissa ++ 'e' :: Text.writeInt power

theorem hasExponent_text (h : isScientific k = true) : HasExponent (text (.finite s k)) := by
  obtain ⟨first, rest, -, heq⟩ := (written k).scientific_eq
  rw [text_finite, magnitudeText_eq, if_pos h, heq, ← List.append_assoc]
  exact ⟨_, _, rfl⟩

theorem exists_text_eq (h : ¬ isScientific k = true) :
    ∃ whole fraction, text (.finite s k) = signText s ++ (whole ++ '.' :: fraction) ∧
      PositionalDigits (written k) whole fraction := by
  obtain ⟨whole, fraction, hdigits⟩ := (written k).exists_positionalDigits
  refine ⟨whole, fraction, ?_, hdigits⟩
  rw [text_finite, magnitudeText_eq, if_neg h, hdigits.text_eq]

/-- There is no exponent among digits around a point. -/
theorem not_hasExponent {whole fraction : List Char}
    (h : ∀ c ∈ whole ++ fraction, c.isDigit = true) :
    ¬ HasExponent (signText s ++ (whole ++ '.' :: fraction)) := by
  rintro ⟨mantissa, power, heq⟩
  have hmem : 'e' ∈ signText s ++ (whole ++ '.' :: fraction) := by
    rw [heq]
    exact List.mem_append_right _ List.mem_cons_self
  have hsign : 'e' ∉ signText s := by cases s <;> decide
  have hdigits : 'e' ∉ whole ++ fraction := fun hc => absurd (h _ hc) (by decide)
  simp only [List.mem_append, List.mem_cons, not_or] at hmem hdigits
  rcases hmem with hmem | hmem | hmem | hmem
  · exact hsign hmem
  · exact hdigits.1 hmem
  · exact absurd hmem (by decide)
  · exact hdigits.2 hmem

theorem hasExponent_text_iff : HasExponent (text (.finite s k)) ↔ isScientific k = true := by
  refine ⟨fun h => ?_, hasExponent_text⟩
  by_contra hpositional
  obtain ⟨whole, fraction, htext, hdigits⟩ := exists_text_eq (s := s) hpositional
  rw [htext] at h
  exact not_hasExponent hdigits.isDigit h

/-- The shortest decimal of a whole number needs no digit behind the point. -/
theorem written_exponent_nonneg {z : Int} (h : toRat (.finite s k) = z) :
    0 ≤ (written k).exponent := by
  rcases Nat.eq_zero_or_pos k.val with hzero | hpos
  · rw [written, if_pos hzero]
  · have hwhole : Decimal.toRat ⟨z.natAbs, 0⟩ = grid k := by
      rw [← abs_toRat_finite s, h, Decimal.toRat, zpow_zero, mul_one, Nat.cast_natAbs, Int.cast_abs]
    have hround : RoundsTo (Decimal.toRat ⟨z.natAbs, 0⟩) k := by
      rw [hwhole]
      exact roundsTo_grid k
    have hcoefficient : 0 < z.natAbs := coefficient_pos_of_toRat_pos (hround.pos hpos)
    have htop : (10 : Rat) ^ (0 : Int) < 10 ^ topExponent k := by
      refine lt_of_le_of_lt ?_ (grid_lt_ten_zpow k)
      rw [← toRat_one, ← hwhole]
      exact toRat_le_toRat_iff.mpr hcoefficient
    rw [written_of_pos hpos]
    exact le_shortest_exponent hround (ten_zpow_lt_iff.mp htop).le

end Forms

/-- The text of a finite number is read as the number. No text that is read as it has fewer
significant digits, and none with as few denotes a nearer value; where the number is not a power of
two with neighbours at different distances, this holds of all texts. The layout is decided by the
magnitude alone, and in the positional layout there are digits on both sides of the point, a single
zero behind it if the number is whole. -/
theorem text_shortest (s : Bool) (k : Fin finiteCount) :
    let x := Binary64.finite s k
    read? x.text = some x ∧
    (∀ cs, read? cs = some x →
      (significantDigits x.text).length ≤ (significantDigits cs).length) ∧
    NearestText (fun cs => read? cs = some x) x.text x ∧
    ((∀ e : Int, -1021 ≤ e → |x.toRat| ≠ 2 ^ e) → NearestText (fun _ => True) x.text x) ∧
    (HasExponent x.text ↔
      10 ^ 16 ≤ |x.toRat| ∨ 0 < |x.toRat| ∧ |x.toRat| < 10 ^ (-4 : Int)) ∧
    (¬ HasExponent x.text → ∃ whole fraction,
      x.text = signText s ++ (whole ++ '.' :: fraction) ∧ whole ≠ [] ∧ fraction ≠ [] ∧
        (∀ c ∈ whole ++ fraction, c.isDigit = true) ∧
        ((∃ z : Int, x.toRat = z) → fraction = ['0'])) := by
  intro x
  refine ⟨read?_text s k, fun _ => length_significantDigits_le_of_read?, nearestText_read? s k,
    fun hpower => ?_, ?_, fun hpositional => ?_⟩
  · rcases evenGaps_or_eq_two_pow k with hgaps | ⟨e, he, hgrid⟩
    · exact nearestText_of_evenGaps s hgaps
    · exact absurd (abs_toRat_finite s k ▸ hgrid) (hpower e he)
  · rw [hasExponent_text_iff, isScientific_iff, abs_toRat_finite]
  · rw [hasExponent_text_iff] at hpositional
    obtain ⟨whole, fraction, htext, hdigits⟩ := exists_text_eq (s := s) hpositional
    refine ⟨whole, fraction, htext, hdigits.whole_ne_nil, hdigits.fraction_ne_nil, hdigits.isDigit,
      fun ⟨z, hz⟩ => hdigits.fraction_eq (written_exponent_nonneg hz)⟩

/-- `2 ^ (-1073)` has a power of ten above it and decimals of one digit below it that are read as
the number as well. Three is written in the positional layout. -/
theorem text_shortest_of_two_units_and_three :
    let x := Binary64.finite false ⟨2, by decide +kernel⟩
    let three := Binary64.finite false ⟨1024 * 2 ^ 52 + 2 ^ 51, by decide +kernel⟩
    x.text = "1e-323".toList ∧ read? "9e-324".toList = some x ∧
      (significantDigits x.text).length ≤ (significantDigits "9e-324".toList).length ∧
      (∀ e : Int, -1021 ≤ e → |x.toRat| ≠ 2 ^ e) ∧ NearestText (fun _ => True) x.text x ∧
      three.text = "3.0".toList ∧ ¬ HasExponent three.text ∧
      ∃ whole fraction, three.text = signText false ++ (whole ++ '.' :: fraction) ∧
        fraction ≠ [] := by
  intro x three
  have hread : read? "9e-324".toList = some x := by decide +kernel
  have hpower : ∀ e : Int, -1021 ≤ e → |x.toRat| ≠ 2 ^ e := by
    intro e he heq
    have hplaces (n : Nat) : 2 * (1 / (2 : Rat) ^ n) = 2 ^ (1 - (n : Int)) := by
      rw [zpow_sub₀ two_ne_zero, zpow_one, zpow_natCast, mul_one_div]
    have hgrid : grid (2 : Nat) = 2 ^ (1 - (1074 : Nat) : Int) := by
      rw [grid_of_le (by decide), oneUnits_cast, Nat.cast_ofNat, hplaces]
    have hexponents := hgrid.symm.trans ((abs_toRat_finite false _).symm.trans heq)
    have := zpow_right_injective₀ two_pos (by decide) hexponents
    omega
  have hthree : three.text = "3.0".toList := by decide +kernel
  have hpositional : ¬ HasExponent three.text := by
    have htext : three.text = signText false ++ (['3'] ++ '.' :: ['0']) := hthree
    rw [htext]
    exact not_hasExponent (by simp)
  obtain ⟨-, hfewest, -, hnearest, -, -⟩ := text_shortest false ⟨2, by decide +kernel⟩
  obtain ⟨-, -, -, -, -, hpoint⟩ :=
    text_shortest false ⟨1024 * 2 ^ 52 + 2 ^ 51, by decide +kernel⟩
  obtain ⟨whole, fraction, htext, -, hfraction, -, -⟩ := hpoint hpositional
  exact ⟨by decide +kernel, hread, hfewest _ hread, hpower, hnearest hpower, hthree, hpositional,
    whole, fraction, htext, hfraction⟩

/-- With `6.189700196426901e26` there is a text of as many digits that denotes a value nearer to
`2 ^ 89` than the text of the number does. It is read as the neighbour below. -/
theorem nearer_text_of_two_pow_89 :
    let x := Binary64.finite false ⟨1112 * 2 ^ 52, by decide +kernel⟩
    x.text = "6.189700196426902e26".toList ∧ x.toRat = 2 ^ 89 ∧
      ¬ ∀ other q r, textValue? x.text = some q → textValue? other = some r →
        (significantDigits other).length = (significantDigits x.text).length →
        |q - x.toRat| ≤ |r - x.toRat| := by
  intro x
  have htext : x.text = "6.189700196426902e26".toList := by decide +kernel
  have hx : x.toRat = 2 ^ 89 := by
    have hunits : units (1112 * 2 ^ 52) = 2 ^ 89 * oneUnits := by decide +kernel
    rw [toRat_finite, signed, if_neg Bool.false_ne_true, grid_natCast, hunits,
      div_eq_iff oneUnits_cast_pos.ne', Nat.cast_mul, Nat.cast_pow, Nat.cast_ofNat]
  have hvalue {cs : List Char} {d : Decimal} (hsign : Text.splitSign cs = (false, cs))
      (hread : Decimal.read? cs = some d) : textValue? cs = some d.toRat := by
    rw [textValue?, hsign, hread]
    rfl
  have hwritten : textValue? "6.189700196426902e26".toList =
      some (Decimal.toRat ⟨6189700196426902, 11⟩) := hvalue (by decide) (by decide +kernel)
  have hother : textValue? "6.189700196426901e26".toList =
      some (Decimal.toRat ⟨6189700196426901, 11⟩) := hvalue (by decide) (by decide +kernel)
  refine ⟨htext, hx, ?_⟩
  rw [htext, hx]
  intro hall
  have hnear := hall _ _ _ hwritten hother (by decide +kernel)
  rw [Decimal.toRat, Decimal.toRat] at hnear
  norm_num [abs_le] at hnear

end TrialSummary.Binary64
