import TrialSummary.Proofs.Decimal.Layout

/-!
# The characters of number texts

Numbers are written with digits, signs, points and a few letters. None of these is a blank, a quote,
a line break or a delimiter of a table, whatever the number. A finite number starts with a digit
behind its sign, so it cannot be mistaken for a word. Every number has a point or a letter, so none
can be mistaken for a count.
-/

namespace TrialSummary

/-- The characters of number texts besides the digits. -/
def numberSigns : List Char := ['-', '.', 'e', 'N', 'a', 'i', 'n', 'f']

/-- A character that may stand in the text of a number. -/
def IsNumberChar (c : Char) : Prop := c.isDigit = true ∨ c ∈ numberSigns

namespace IsNumberChar

theorem of_isDigit {c : Char} (h : c.isDigit = true) : IsNumberChar c := .inl h

theorem minus : IsNumberChar '-' := .inr (by decide)

theorem point : IsNumberChar '.' := .inr (by decide)

theorem exponent : IsNumberChar 'e' := .inr (by decide)

/-- Characters of number texts lie between the minus sign and the tilde. -/
theorem bounds {c : Char} (h : IsNumberChar c) : 0x2d ≤ c.toNat ∧ c.toNat ≤ 0x7e := by
  rcases h with h | h
  · have := Text.toNat_of_isDigit h
    omega
  · simp only [numberSigns, List.mem_cons, List.not_mem_nil, or_false] at h
    rcases h with rfl | rfl | rfl | rfl | rfl | rfl | rfl | rfl <;> decide

theorem isBlank_eq_false {c : Char} (h : IsNumberChar c) : Text.isBlank c = false := by
  have := h.bounds
  exact Text.isBlank_eq_false (by omega) (by omega)

end IsNumberChar

theorem isNumberChar_toDigits (n : Nat) : ∀ c ∈ Nat.toDigits 10 n, IsNumberChar c :=
  fun c hc => .of_isDigit (Text.isDigit_toDigits n c hc)

theorem isNumberChar_writeInt (z : Int) : ∀ c ∈ Text.writeInt z, IsNumberChar c := by
  intro c hc
  rw [Text.writeInt] at hc
  split at hc
  · rcases List.mem_cons.mp hc with rfl | hc
    · exact .minus
    · exact isNumberChar_toDigits _ c hc
  · exact isNumberChar_toDigits _ c hc

namespace Decimal

theorem isNumberChar_positional (d : Decimal) : ∀ c ∈ d.positional, IsNumberChar c := by
  obtain ⟨whole, fraction, heq, h⟩ := d.positional_eq
  intro c hc
  rw [heq] at hc
  rcases List.mem_append.mp hc with hc | hc
  · exact .of_isDigit (h.isDigit c (List.mem_append_left _ hc))
  · rcases List.mem_cons.mp hc with rfl | hc
    · exact .point
    · exact .of_isDigit (h.isDigit c (List.mem_append_right _ hc))

theorem point_mem_positional (d : Decimal) : '.' ∈ d.positional := by
  obtain ⟨whole, fraction, heq, -⟩ := d.positional_eq
  rw [heq]
  exact List.mem_append_right _ List.mem_cons_self

theorem exponent_mem_scientific (d : Decimal) : 'e' ∈ d.scientific := by
  obtain ⟨first, rest, -, heq⟩ := d.scientific_eq
  rw [heq]
  exact List.mem_append_right _ List.mem_cons_self

theorem isNumberChar_scientific (d : Decimal) : ∀ c ∈ d.scientific, IsNumberChar c := by
  obtain ⟨first, rest, hdigits, heq⟩ := d.scientific_eq
  have hall := d.isDigit_digits
  rw [hdigits] at hall
  intro c hc
  rw [heq] at hc
  rcases List.mem_append.mp hc with hc | hc
  · rcases List.mem_cons.mp hc with rfl | hc
    · exact .of_isDigit (hall _ (by simp))
    · split at hc
      · simp at hc
      · rcases List.mem_cons.mp hc with rfl | hc
        · exact .point
        · exact .of_isDigit (hall c (by simp [hc]))
  · rcases List.mem_cons.mp hc with rfl | hc
    · exact .exponent
    · exact isNumberChar_writeInt _ c hc

def StartsWithDigit (cs : List Char) : Prop := ∃ c rest, cs = c :: rest ∧ c.isDigit = true

theorem startsWithDigit_positional (d : Decimal) : StartsWithDigit d.positional := by
  obtain ⟨whole, fraction, heq, h⟩ := d.positional_eq
  obtain ⟨c, cs, rfl⟩ := List.exists_cons_of_ne_nil h.whole_ne_nil
  exact ⟨c, cs ++ '.' :: fraction, heq, h.isDigit c (by simp)⟩

theorem startsWithDigit_scientific (d : Decimal) : StartsWithDigit d.scientific := by
  obtain ⟨first, rest, hdigits, heq⟩ := d.scientific_eq
  exact ⟨first, _, heq, d.isDigit_digits first (by simp [hdigits])⟩

end Decimal

namespace Binary64

theorem isNumberChar_text (x : Binary64) : ∀ c ∈ x.text, IsNumberChar c := by
  have hsign (s : Bool) : ∀ c ∈ signText s, IsNumberChar c := by
    cases s with
    | true => exact fun c hc => List.mem_singleton.mp hc ▸ .minus
    | false => exact fun c hc => absurd hc List.not_mem_nil
  intro c hc
  cases x with
  | nan s =>
    simp only [text, List.mem_cons, List.not_mem_nil, or_false] at hc
    rcases hc with rfl | rfl | rfl <;> exact .inr (by decide)
  | infinity s =>
    rcases List.mem_append.mp hc with hc | hc
    · exact hsign s c hc
    · simp only [List.mem_cons, List.not_mem_nil, or_false] at hc
      rcases hc with rfl | rfl | rfl <;> exact .inr (by decide)
  | finite s k =>
    rcases List.mem_append.mp hc with hc | hc
    · exact hsign s c hc
    · split at hc
      · exact Decimal.isNumberChar_scientific _ c hc
      · split at hc <;> exact Decimal.isNumberChar_positional _ c hc

/-- Both words and both layouts have a character that no count has. -/
theorem exists_mem_text (x : Binary64) : ∃ c ∈ x.text, c ∈ ['N', 'i', 'e', '.'] := by
  cases x with
  | nan s => exact ⟨'N', List.mem_cons_self, by decide⟩
  | infinity s => exact ⟨'i', List.mem_append_right _ List.mem_cons_self, by decide⟩
  | finite s k =>
    rw [text]
    split
    · exact ⟨'e', List.mem_append_right _ (Decimal.exponent_mem_scientific _), by decide⟩
    · refine ⟨'.', List.mem_append_right _ ?_, by decide⟩
      split <;> exact Decimal.point_mem_positional _

/-- No number of this type has the text of a count. -/
theorem readInt64?_text (x : Binary64) : Text.readInt64? x.text = none := by
  obtain ⟨c, hc, hmem⟩ := x.exists_mem_text
  simp only [List.mem_cons, List.not_mem_nil, or_false] at hmem
  rcases hmem with rfl | rfl | rfl | rfl <;>
    exact Text.readInt64?_eq_none_of_mem hc (by decide) (by decide) (by decide)

end Binary64

end TrialSummary
