import TrialSummary.Decimal.Reading
import TrialSummary.Proofs.Decimal.NotFinite

/-!
# The parts of a number text

A decimal is made of digits, with at most one point among, before or after them, and of an exponent
behind them, which may be missing. The digits are the coefficient, and those behind the point lower
the exponent. So there are few characters that a number text can have, the letters of the words
included.
-/

namespace TrialSummary

namespace Text

/-- A character that an integer can have: a digit or a sign. -/
def IsIntegerChar (c : Char) : Prop := c.isDigit = true ∨ c = '+' ∨ c = '-'

instance : DecidablePred IsIntegerChar := fun c => by unfold IsIntegerChar; infer_instance

theorem mem_splitSign {cs : List Char} {c : Char} (h : c ∈ cs) :
    c ∈ (splitSign cs).2 ∨ c = '+' ∨ c = '-' := by
  unfold splitSign
  split
  · rcases List.mem_cons.mp h with rfl | h
    · exact .inr (.inl rfl)
    · exact .inl h
  · rcases List.mem_cons.mp h with rfl | h
    · exact .inr (.inr rfl)
    · exact .inl h
  · exact .inl h

theorem isIntegerChar_of_readInt? {cs : List Char} {z : Int} (h : readInt? cs = some z) :
    ∀ c ∈ cs, IsIntegerChar c := by
  have hread : readInt? cs = (readNat? (splitSign cs).2).map fun n =>
      if (splitSign cs).1 then -(n : Int) else n := rfl
  obtain ⟨n, hn, -⟩ := Option.map_eq_some_iff.mp (hread.symm.trans h)
  rw [readNat?] at hn
  split at hn
  · next hdigits =>
    have hall := List.all_eq_true.mp (Bool.and_eq_true_iff.mp hdigits).2
    exact fun c hc => (mem_splitSign hc).imp_left (hall c)
  · cases hn

theorem isIntegerChar_of_readInt64? {cs : List Char} {n : Int64} (h : readInt64? cs = some n) :
    ∀ c ∈ cs, IsIntegerChar c := by
  obtain ⟨z, hz, -⟩ := Option.bind_eq_some_iff.mp h
  exact isIntegerChar_of_readInt? hz

end Text

namespace Decimal

/-- The parts of a text that denotes a decimal: digits, a point that may be missing, more digits, and
what stands for the exponent. -/
structure Parts (cs : List Char) (d : Decimal) (whole point fraction tail : List Char) : Prop where
  text_eq : cs = whole ++ (point ++ (fraction ++ tail))
  point_eq : point = [] ∨ point = ['.']
  isDigit : ∀ c ∈ whole ++ fraction, c.isDigit = true
  value : ∃ e, readExponent? tail = some e ∧
    d = ⟨Text.digitsValue (whole ++ fraction), e - fraction.length⟩

theorem exists_parts {cs : List Char} {d : Decimal} (h : read? cs = some d) :
    ∃ whole point fraction tail, Parts cs d whole point fraction tail := by
  have hdigits (cs : List Char) : ∀ c ∈ cs.takeWhile Char.isDigit, c.isDigit = true :=
    List.all_eq_true.mp List.all_takeWhile
  have hsplit : cs.takeWhile Char.isDigit ++ cs.dropWhile Char.isDigit = cs :=
    List.takeWhile_append_dropWhile
  simp only [read?] at h
  split at h
  · next r hpoint =>
    split at h
    · cases h
    · obtain ⟨e, he, rfl⟩ := Option.map_eq_some_iff.mp h
      refine ⟨cs.takeWhile Char.isDigit, ['.'], r.takeWhile Char.isDigit, r.dropWhile Char.isDigit,
        ?_, .inr rfl, ?_, e, he, rfl⟩
      · rw [List.takeWhile_append_dropWhile, List.singleton_append, ← hpoint, hsplit]
      · exact fun c hc => (List.mem_append.mp hc).elim (hdigits cs c) (hdigits r c)
  · split at h
    · cases h
    · obtain ⟨e, he, rfl⟩ := Option.map_eq_some_iff.mp h
      refine ⟨cs.takeWhile Char.isDigit, [], [], cs.dropWhile Char.isDigit, ?_, .inl rfl, ?_, e, he,
        rfl⟩
      · rw [List.nil_append, List.nil_append, hsplit]
      · rw [List.append_nil]
        exact hdigits cs

/-- An exponent starts with its letter, if there is one. -/
theorem tail_of_readExponent? {tail : List Char} {e : Int} (h : readExponent? tail = some e) :
    tail = [] ∨ ∃ c cs, tail = c :: cs ∧ (c = 'e' ∨ c = 'E') ∧ ∀ d ∈ cs, Text.IsIntegerChar d := by
  cases tail with
  | nil => exact .inl rfl
  | cons c cs =>
    rw [readExponent?] at h
    split at h
    · next hletter => exact .inr ⟨c, cs, rfl, hletter, Text.isIntegerChar_of_readInt? h⟩
    · cases h

end Decimal

namespace Binary64

/-- The letters of number texts, in lower case: those of the words, and that of exponents. -/
def measureLetters : List Char := ['n', 'a', 'i', 'f', 't', 'y', 'e']

/-- A character that a number text of the grammar can have. -/
def IsMeasureChar (c : Char) : Prop :=
  Text.IsIntegerChar c ∨ c = '.' ∨ c.toLower ∈ measureLetters

instance : DecidablePred IsMeasureChar := fun c => by unfold IsMeasureChar; infer_instance

theorem isMeasureChar_of_readWord? {s : Bool} {cs : List Char} {x : Binary64}
    (h : readWord? s (cs.map Char.toLower) = some x) : ∀ c ∈ cs, IsMeasureChar c := by
  have hwords : cs.map Char.toLower ∈
      [['n', 'a', 'n'], ['i', 'n', 'f'], ['i', 'n', 'f', 'i', 'n', 'i', 't', 'y']] := by
    rcases readWord?_eq_some_iff.mp h with ⟨hword, -⟩ | ⟨hword | hword, -⟩ <;> simp [hword]
  have hletters : ∀ word ∈
      [['n', 'a', 'n'], ['i', 'n', 'f'], ['i', 'n', 'f', 'i', 'n', 'i', 't', 'y']],
      ∀ letter ∈ word, letter ∈ measureLetters := by simp [measureLetters]
  exact fun c hc => .inr (.inr (hletters _ hwords _ (List.mem_map_of_mem hc)))

theorem isMeasureChar_of_decimal {cs : List Char} {d : Decimal} (h : Decimal.read? cs = some d) :
    ∀ c ∈ cs, IsMeasureChar c := by
  obtain ⟨whole, point, fraction, tail, parts⟩ := Decimal.exists_parts h
  obtain ⟨e, he, -⟩ := parts.value
  have hpoint : ∀ c ∈ point, IsMeasureChar c := by
    rcases parts.point_eq with rfl | rfl
    · exact List.forall_mem_nil _
    · exact List.forall_mem_singleton.mpr (.inr (.inl rfl))
  have htail : ∀ c ∈ tail, IsMeasureChar c := by
    obtain rfl | ⟨letter, cs', rfl, hletter, hall⟩ := Decimal.tail_of_readExponent? he
    · exact List.forall_mem_nil _
    · refine List.forall_mem_cons.mpr ⟨?_, fun c hc => .inl (hall c hc)⟩
      rcases hletter with rfl | rfl <;> exact .inr (.inr (by decide))
  intro c hc
  rw [parts.text_eq, List.mem_append, List.mem_append, List.mem_append] at hc
  rcases hc with hc | hc | hc | hc
  · exact .inl (.inl (parts.isDigit c (List.mem_append_left _ hc)))
  · exact hpoint c hc
  · exact .inl (.inl (parts.isDigit c (List.mem_append_right _ hc)))
  · exact htail c hc

theorem isMeasureChar_of_read? {cs : List Char} {x : Binary64} (h : read? cs = some x) :
    ∀ c ∈ cs, IsMeasureChar c := by
  intro c hc
  rcases Text.mem_splitSign hc with hbody | hsign
  · rcases read?_eq_some_iff.mp h with hword | ⟨d, hd, -⟩
    · exact isMeasureChar_of_readWord? hword c hbody
    · exact isMeasureChar_of_decimal hd c hbody
  · exact .inl (.inr hsign)

end Binary64

end TrialSummary
