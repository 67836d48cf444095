import Mathlib.Data.List.DropRight
import TrialSummary.Proofs.Decimal.Grammar
import TrialSummary.Proofs.Decimal.Shortest

/-!
# Significant digits

The significant digits of a number text are those in front of its exponent, without the zeros at both
ends. They bound the coefficient that is needed for its value: zeros behind them can be moved to the
exponent, and zeros in front count for nothing. Both layouts pad the digits of a decimal with nothing
but zeros, so they have no more significant digits than the decimal has digits, and they denote its
exact value.
-/

namespace TrialSummary.Decimal

open Text Binary64

def isZeroDigit (c : Char) : Bool := c == '0'

def isExponentLetter (c : Char) : Bool := c == 'e' || c == 'E'

def writtenDigits (cs : List Char) : List Char :=
  (cs.takeWhile fun c => !isExponentLetter c).filter Char.isDigit

/-- Digits without the zeros in front of them and behind them. -/
def trimZeros (ds : List Char) : List Char :=
  (ds.dropWhile isZeroDigit).rdropWhile isZeroDigit

/-- The digits of a number text that are not padding. -/
def significantDigits (cs : List Char) : List Char := trimZeros (writtenDigits cs)

/-- The exact value that a text denotes, if it is a decimal with a sign or without one. -/
def textValue? (cs : List Char) : Option Rat :=
  (read? (splitSign cs).2).map fun d => signed (splitSign cs).1 d.toRat

section Zeros

theorem eq_replicate_of_all {ds : List Char} (h : ds.all isZeroDigit = true) :
    ds = List.replicate ds.length '0' :=
  List.eq_replicate_of_mem fun c hc => by simpa [isZeroDigit] using List.all_eq_true.mp h c hc

/-- Nothing but zeros is taken away. -/
theorem exists_eq_trimZeros (ds : List Char) :
    ∃ m n, ds = List.replicate m '0' ++ (trimZeros ds ++ List.replicate n '0') := by
  have hfront := eq_replicate_of_all (List.all_takeWhile (l := ds) (p := isZeroDigit))
  have hback : ((ds.dropWhile isZeroDigit).rtakeWhile isZeroDigit).all isZeroDigit = true := by
    rw [List.rtakeWhile, List.all_reverse]
    exact List.all_takeWhile
  refine ⟨(ds.takeWhile isZeroDigit).length,
    ((ds.dropWhile isZeroDigit).rtakeWhile isZeroDigit).length, ?_⟩
  rw [← hfront, trimZeros, ← eq_replicate_of_all hback, List.rdropWhile_append_rtakeWhile,
    List.takeWhile_append_dropWhile]

/-- Padding with zeros does not add significant digits. -/
theorem length_trimZeros_le (m n : Nat) (ds : List Char) :
    (trimZeros (List.replicate m '0' ++ (ds ++ List.replicate n '0'))).length ≤ ds.length := by
  have hzeros (i : Nat) : ∀ c ∈ List.replicate i '0', isZeroDigit c = true := by
    intro c hc
    rw [List.eq_of_mem_replicate hc]
    rfl
  have hfront : (List.replicate m '0' ++ (ds ++ List.replicate n '0')).dropWhile isZeroDigit =
      (ds ++ List.replicate n '0').dropWhile isZeroDigit :=
    List.dropWhile_append_of_pos (hzeros m)
  have hback (front : List Char) : (front ++ List.replicate n '0').rdropWhile isZeroDigit =
      front.rdropWhile isZeroDigit := by
    rw [List.rdropWhile, List.reverse_append, List.dropWhile_append_of_pos, List.rdropWhile]
    exact fun c hc => hzeros n c (List.mem_reverse.mp hc)
  rw [trimZeros, hfront, List.dropWhile_append]
  split
  · have hnone : (List.replicate n '0').dropWhile isZeroDigit = [] :=
      List.dropWhile_eq_nil_iff.mpr (hzeros n)
    rw [hnone]
    exact Nat.zero_le _
  · rw [hback]
    exact (List.rdropWhile_prefix _ _).length_le.trans (ds.length_dropWhile_le _)

end Zeros

section Texts

theorem isExponentLetter_of_isDigit {c : Char} (h : c.isDigit = true) :
    isExponentLetter c = false := by
  have hrange := toNat_of_isDigit h
  rw [isExponentLetter, Bool.or_eq_false_iff, beq_eq_false_iff_ne, beq_eq_false_iff_ne]
  constructor <;> rintro rfl <;> simp at hrange

/-- A sign is no digit. -/
theorem writtenDigits_splitSign (cs : List Char) :
    writtenDigits (splitSign cs).2 = writtenDigits cs := by
  unfold splitSign
  split <;> simp [writtenDigits, isExponentLetter]

theorem writtenDigits_signText (s : Bool) (cs : List Char) :
    writtenDigits (signText s ++ cs) = writtenDigits cs := by
  cases s
  · rfl
  · simp [signText, writtenDigits, isExponentLetter]

/-- What may follow the digits of a number text: nothing or an exponent. -/
def IsTail (tail : List Char) : Prop := tail = [] ∨ ∃ c cs, tail = c :: cs ∧ (c = 'e' ∨ c = 'E')

theorem writtenDigits_eq {whole point fraction tail : List Char}
    (hdigits : ∀ c ∈ whole ++ fraction, c.isDigit = true) (hpoint : point = [] ∨ point = ['.'])
    (htail : IsTail tail) :
    writtenDigits (whole ++ (point ++ (fraction ++ tail))) = whole ++ fraction := by
  have hwhole : ∀ c ∈ whole, c.isDigit = true := fun c hc => hdigits c (List.mem_append_left _ hc)
  have hfraction : ∀ c ∈ fraction, c.isDigit = true :=
    fun c hc => hdigits c (List.mem_append_right _ hc)
  have hletters : ∀ c ∈ whole ++ (point ++ fraction), (!isExponentLetter c) = true := by
    intro c hc
    rw [Bool.not_eq_true']
    rcases List.mem_append.mp hc with hc | hc
    · exact isExponentLetter_of_isDigit (hwhole c hc)
    rcases List.mem_append.mp hc with hc | hc
    · rcases hpoint with rfl | rfl
      · cases hc
      · rw [List.mem_singleton.mp hc]
        rfl
    · exact isExponentLetter_of_isDigit (hfraction c hc)
  have hstop : StopsRun (fun c => !isExponentLetter c) tail := by
    rcases htail with rfl | ⟨c, cs, rfl, rfl | rfl⟩
    · exact stopsRun_nil
    all_goals exact stopsRun_cons.mpr rfl
  have hassoc : whole ++ (point ++ (fraction ++ tail)) = whole ++ (point ++ fraction) ++ tail := by
    simp only [List.append_assoc]
  have hpointDigits : point.filter Char.isDigit = [] := by
    rcases hpoint with rfl | rfl <;> rfl
  rw [hassoc, writtenDigits, takeWhile_run hletters hstop, List.filter_append, List.filter_append,
    hpointDigits, List.filter_eq_self.mpr hwhole, List.filter_eq_self.mpr hfraction,
    List.nil_append]

/-- A decimal has the value of another one with no more digits than its text has significant
ones. -/
theorem exists_significant {cs : List Char} {d : Decimal} (h : read? (splitSign cs).2 = some d) :
    ∃ d' : Decimal, d'.toRat = d.toRat ∧ d'.coefficient < 10 ^ (significantDigits cs).length := by
  obtain ⟨whole, point, fraction, tail, parts⟩ := exists_parts h
  obtain ⟨e, he, rfl⟩ := parts.value
  have htail : IsTail tail :=
    (tail_of_readExponent? he).imp_right fun ⟨c, cs, hcons, hletter, _⟩ => ⟨c, cs, hcons, hletter⟩
  have hwritten : writtenDigits cs = whole ++ fraction := by
    rw [← writtenDigits_splitSign, parts.text_eq, writtenDigits_eq parts.isDigit parts.point_eq htail]
  obtain ⟨m, n, hzeros⟩ := exists_eq_trimZeros (whole ++ fraction)
  have hdigits : ∀ c ∈ trimZeros (whole ++ fraction), c.isDigit = true := by
    intro c hc
    apply parts.isDigit
    rw [hzeros]
    exact List.mem_append_right _ (List.mem_append_left _ hc)
  have hvalue : digitsValue (whole ++ fraction) =
      digitsValue (trimZeros (whole ++ fraction)) * 10 ^ n := by
    conv_lhs => rw [hzeros]
    rw [digitsValue_append, digitsValue_append, digitsValue_zeros, digitsValue_zeros,
      List.length_replicate, Nat.zero_mul, Nat.zero_add, Nat.add_zero]
  refine ⟨⟨digitsValue (significantDigits cs), e - fraction.length + n⟩, ?_, ?_⟩
  · rw [hvalue, toRat_shift, significantDigits, hwritten]
  · rw [significantDigits, hwritten]
    exact digitsValue_lt hdigits

end Texts

section Layouts

/-- The digits around the point of the positional layout are the digits of the decimal, padded with
zeros on both sides. -/
structure PositionalDigits (d : Decimal) (whole fraction : List Char) : Prop where
  text_eq : d.positional = whole ++ '.' :: fraction
  whole_ne_nil : whole ≠ []
  fraction_ne_nil : fraction ≠ []
  digits_eq : ∃ m n : Nat, whole ++ fraction =
    List.replicate m '0' ++ (d.digits ++ List.replicate n '0') ∧
      (n : Int) = d.exponent + fraction.length
  fraction_eq : 0 ≤ d.exponent → fraction = ['0']

theorem exists_positionalDigits (d : Decimal) :
    ∃ whole fraction, PositionalDigits d whole fraction := by
  obtain ⟨c, e⟩ := d
  cases e with
  | ofNat e =>
    refine ⟨digits ⟨c, .ofNat e⟩ ++ List.replicate e '0', ['0'], rfl, ?_, by simp, ?_, fun _ => rfl⟩
    · simp [digits_ne_nil]
    · refine ⟨0, e + 1, ?_, by simp⟩
      rw [List.append_assoc, ← List.replicate_succ']
      rfl
  | negSucc e =>
    let padded := paddedDigits ⟨c, .negSucc e⟩ (e + 2)
    have h := pointDigits_negSucc c e
    have hlength : e + 2 ≤ padded.length := le_length_paddedDigits _ _
    refine ⟨padded.take (padded.length - (e + 1)), padded.drop (padded.length - (e + 1)), rfl,
      h.whole_ne_nil, h.fraction_ne_nil, ?_,
      fun hnonneg => absurd hnonneg (Int.not_le.mpr (Int.negSucc_lt_zero e))⟩
    refine ⟨e + 2 - (digits ⟨c, .negSucc e⟩).length, 0, ?_, ?_⟩
    · rw [List.take_append_drop, List.replicate_zero, List.append_nil]
      rfl
    · rw [List.length_drop]
      dsimp only
      omega

theorem PositionalDigits.isDigit {d : Decimal} {whole fraction : List Char}
    (h : PositionalDigits d whole fraction) : ∀ c ∈ whole ++ fraction, c.isDigit = true := by
  obtain ⟨m, n, hdigits, -⟩ := h.digits_eq
  intro c hc
  rw [hdigits] at hc
  rcases List.mem_append.mp hc with hc | hc
  · exact isDigit_zeros m c hc
  rcases List.mem_append.mp hc with hc | hc
  · exact d.isDigit_digits c hc
  · exact isDigit_zeros n c hc

theorem read?_positional_toRat (d : Decimal) :
    ∃ r, read? d.positional = some r ∧ r.toRat = d.toRat := by
  obtain ⟨whole, fraction, h⟩ := d.exists_positionalDigits
  obtain ⟨m, n, hdigits, hn⟩ := h.digits_eq
  have hread := read?_point whole fraction [] h.whole_ne_nil
    (fun c hc => h.isDigit c (List.mem_append_left _ hc))
    (fun c hc => h.isDigit c (List.mem_append_right _ hc)) stopsRun_nil
  rw [List.append_nil, ← h.text_eq] at hread
  refine ⟨_, hread, ?_⟩
  have hvalue : digitsValue (whole ++ fraction) = d.coefficient * 10 ^ n := by
    rw [hdigits, digitsValue_append, digitsValue_append, digitsValue_zeros, digitsValue_zeros,
      digitsValue_digits, List.length_replicate, Nat.zero_mul, Nat.zero_add, Nat.add_zero]
  have hexponent : 0 - (fraction.length : Int) + n = d.exponent := by omega
  rw [hvalue, toRat_shift, hexponent]

theorem textValue?_signText (s : Bool) {cs : List Char} (h : StartsWithDigit cs) :
    textValue? (signText s ++ cs) = (read? cs).map fun d => signed s d.toRat := by
  rw [textValue?, splitSign_signText s h]

/-- Both layouts denote the value of their decimal, with the sign in front of them. -/
theorem textValue?_positional (s : Bool) (d : Decimal) :
    textValue? (signText s ++ d.positional) = some (signed s d.toRat) := by
  obtain ⟨r, hr, hvalue⟩ := d.read?_positional_toRat
  rw [textValue?_signText s d.startsWithDigit_positional, hr, Option.map_some, hvalue]

theorem textValue?_scientific (s : Bool) (d : Decimal) :
    textValue? (signText s ++ d.scientific) = some (signed s d.toRat) := by
  rw [textValue?_signText s d.startsWithDigit_scientific, d.read?_scientific, Option.map_some]

/-- Neither layout adds significant digits. -/
theorem length_significantDigits_positional_le (s : Bool) (d : Decimal) :
    (significantDigits (signText s ++ d.positional)).length ≤ d.digits.length := by
  obtain ⟨whole, fraction, h⟩ := d.exists_positionalDigits
  obtain ⟨m, n, hdigits, -⟩ := h.digits_eq
  have hwritten := writtenDigits_eq h.isDigit (.inr rfl) (.inl rfl)
  rw [List.append_nil, List.singleton_append, ← h.text_eq, hdigits] at hwritten
  rw [significantDigits, writtenDigits_signText, hwritten]
  exact length_trimZeros_le m n d.digits

theorem length_significantDigits_scientific_le (s : Bool) (d : Decimal) :
    (significantDigits (signText s ++ d.scientific)).length ≤ d.digits.length := by
  obtain ⟨first, rest, hdigits, heq⟩ := d.scientific_eq
  have hisDigit : ∀ c ∈ [first] ++ rest, c.isDigit = true := by
    have hall := d.isDigit_digits
    rwa [hdigits] at hall
  have hwritten : writtenDigits d.scientific = d.digits := by
    have htail : IsTail ('e' :: writeInt d.leadingPower) := .inr ⟨_, _, rfl, .inl rfl⟩
    rw [heq, hdigits]
    split
    · next hnil =>
      subst hnil
      exact writtenDigits_eq hisDigit (.inl rfl) htail
    · exact writtenDigits_eq hisDigit (.inr rfl) htail
  have hle := length_trimZeros_le 0 0 d.digits
  rw [List.replicate_zero, List.append_nil, List.nil_append] at hle
  rwa [significantDigits, writtenDigits_signText, hwritten]

end Layouts

end TrialSummary.Decimal
