import TrialSummary.Proofs.Text.LastOccurrence
import TrialSummary.Proofs.Text.Pattern

/-!
# Replacing a word

A word is replaced from left to right. What stands in front of its first occurrence is kept, the
text behind it is treated in the same way, and a text without the word is kept as a whole. So a word
that occurs once is replaced there, and nothing else changes.

A parenthesis in an escaped text stands behind a backslash, and a letter never does. So the group of
digits does not occur in an escaped text, and it does not begin in one and end behind it, whatever
the text was. In a pattern made of an escaped text and the group, the group is the only one.
-/

namespace TrialSummary.Text

variable {word new front back cs : List Char}

/-- The first occurrence of a word in a text stands between `front` and `back`. -/
structure FirstOccurrence (word front back cs : List Char) : Prop where
  text_eq : cs = front ++ (word ++ back)
  first : ∀ front' back', cs = front' ++ (word ++ back') → front.length ≤ front'.length

/-- A word stands in a text between `front` and `back`, and nowhere else. -/
def OnlyOccurrence (word front back cs : List Char) : Prop :=
  ∀ front' back', cs = front' ++ (word ++ back') ↔ front' = front ∧ back' = back

section Replacing

/-- The characters of an occurrence that has been replaced are passed over. -/
theorem replaceFrom_length_append (word new passed cs : List Char) :
    replaceFrom word new passed.length (passed ++ cs) = replaceAll word new cs := by
  induction passed with
  | nil => rfl
  | cons c passed ih => exact ih

theorem replaceAll_append_of_ne_nil (hword : word ≠ []) (new cs : List Char) :
    replaceAll word new (word ++ cs) = new ++ replaceAll word new cs := by
  obtain ⟨c, rest, rfl⟩ := List.exists_cons_of_ne_nil hword
  have hstart : (c :: rest).isPrefixOf (c :: (rest ++ cs)) = true :=
    List.isPrefixOf_iff_prefix.mpr (List.prefix_append (c :: rest) cs)
  have hpassed : replaceFrom (c :: rest) new ((c :: rest).length - 1) (rest ++ cs) =
      replaceAll (c :: rest) new cs := replaceFrom_length_append (c :: rest) new rest cs
  rw [replaceAll, List.cons_append, replaceFrom, if_pos hstart, hpassed]

theorem replaceAll_cons_of_not_start {c : Char} (h : ¬word <+: c :: cs) (new : List Char) :
    replaceAll word new (c :: cs) = c :: replaceAll word new cs := by
  have hstart : ¬word.isPrefixOf (c :: cs) = true := fun hp => h (List.isPrefixOf_iff_prefix.mp hp)
  rw [replaceAll, replaceFrom, if_neg hstart, replaceAll]

theorem replaceAll_of_not_infix (h : ¬word <:+: cs) (new : List Char) :
    replaceAll word new cs = cs := by
  induction cs with
  | nil => rfl
  | cons c cs ih =>
    rw [List.infix_cons_iff, not_or] at h
    rw [replaceAll_cons_of_not_start h.1, ih h.2]

/-- A text with the word is kept up to the first occurrence, and treated alike behind it. -/
theorem FirstOccurrence.replaceAll_eq (hword : word ≠ [])
    (h : FirstOccurrence word front back cs) (new : List Char) :
    replaceAll word new cs = front ++ (new ++ replaceAll word new back) := by
  obtain ⟨rfl, hfirst⟩ := h
  induction front with
  | nil => exact replaceAll_append_of_ne_nil hword new back
  | cons c front ih =>
    have hstart : ¬word <+: c :: (front ++ (word ++ back)) := by
      rintro ⟨back', hback'⟩
      have := hfirst [] back' hback'.symm
      simp at this
    have hrest : ∀ front' back', front ++ (word ++ back) = front' ++ (word ++ back') →
        front.length ≤ front'.length := by
      intro front' back' h
      exact Nat.le_of_succ_le_succ (hfirst (c :: front') back' (congrArg (c :: ·) h))
    rw [List.cons_append, replaceAll_cons_of_not_start hstart, ih hrest, List.cons_append]

theorem OnlyOccurrence.text_eq (h : OnlyOccurrence word front back cs) :
    cs = front ++ (word ++ back) := (h front back).mpr ⟨rfl, rfl⟩

theorem OnlyOccurrence.firstOccurrence (h : OnlyOccurrence word front back cs) :
    FirstOccurrence word front back cs where
  text_eq := h.text_eq
  first front' back' heq := by rw [((h front' back').mp heq).1]

theorem OnlyOccurrence.not_infix_back (hword : word ≠ [])
    (h : OnlyOccurrence word front back cs) : ¬word <:+: back := by
  rw [infix_iff]
  rintro ⟨between, rest, rfl⟩
  have hsecond : cs = (front ++ (word ++ between)) ++ (word ++ rest) := by
    rw [h.text_eq]
    simp only [List.append_assoc]
  have hsame := ((h _ _).mp hsecond).1
  rw [List.append_right_eq_self, List.append_eq_nil_iff] at hsame
  exact hword hsame.1

/-- A word that occurs once is replaced there, and nothing else changes. -/
theorem OnlyOccurrence.replaceAll_eq (hword : word ≠ [])
    (h : OnlyOccurrence word front back cs) (new : List Char) :
    replaceAll word new cs = front ++ (new ++ back) := by
  rw [h.firstOccurrence.replaceAll_eq hword, replaceAll_of_not_infix (h.not_infix_back hword)]

end Replacing

section Escaped

theorem escapePattern_append (cs ds : List Char) :
    escapePattern (cs ++ ds) = escapePattern cs ++ escapePattern ds := List.flatMap_append

/-- A text that does not start with a backslash and a `d` does not do so behind an escaped text. -/
theorem not_start_backslash_d (hcs : ¬['\\', 'd'] <+: cs) (name : List Char) :
    ¬['\\', 'd'] <+: escapePattern name ++ cs := by
  cases name with
  | nil => exact hcs
  | cons c name =>
    intro h
    cases hc : isPatternSign c with
    | true =>
      rw [escapePattern_cons_of_sign hc, List.cons_append, List.cons_append,
        List.cons_prefix_cons, List.cons_prefix_cons] at h
      obtain ⟨-, rfl, -⟩ := h
      exact absurd hc (by decide)
    | false =>
      rw [escapePattern_cons_of_plain hc, List.cons_append, List.cons_prefix_cons] at h
      obtain ⟨rfl, -⟩ := h
      exact absurd hc (by decide)

/-- The group of digits does not begin in an escaped text. The text behind it must not start with a
backslash and a `d`, because an escaped parenthesis could be the last character in front of them. -/
theorem exists_eq_append_of_digitsGroup (hcs : ¬['\\', 'd'] <+: cs) {name : List Char}
    (h : escapePattern name ++ cs = front ++ (digitsGroup ++ back)) :
    ∃ gap, front = escapePattern name ++ gap ∧ cs = gap ++ (digitsGroup ++ back) := by
  induction name generalizing front with
  | nil => exact ⟨front, rfl, h⟩
  | cons c name ih =>
    cases hc : isPatternSign c with
    | true =>
      rw [escapePattern_cons_of_sign hc] at h ⊢
      match front with
      | [] =>
        obtain ⟨hbackslash, -⟩ := List.cons.inj h
        exact absurd hbackslash (by decide)
      | [_] =>
        -- The parenthesis of the group is the escaped character, so the rest starts behind it.
        obtain ⟨-, hrest⟩ := List.cons.inj (List.cons.inj h).2
        exact absurd ⟨'+' :: ')' :: back, hrest.symm⟩ (not_start_backslash_d hcs name)
      | b :: d :: front =>
        obtain ⟨rfl, htail⟩ := List.cons.inj h
        obtain ⟨rfl, hrest⟩ := List.cons.inj htail
        obtain ⟨gap, rfl, hgap⟩ := ih hrest
        exact ⟨gap, rfl, hgap⟩
    | false =>
      rw [escapePattern_cons_of_plain hc] at h ⊢
      match front with
      | [] =>
        obtain ⟨rfl, -⟩ := List.cons.inj h
        exact absurd hc (by decide)
      | b :: front =>
        obtain ⟨rfl, hrest⟩ := List.cons.inj h
        obtain ⟨gap, rfl, hgap⟩ := ih hrest
        exact ⟨gap, rfl, hgap⟩

/-- Behind an escaped text the group of digits is the only one. -/
theorem onlyOccurrence_digitsGroup (name : List Char) :
    OnlyOccurrence digitsGroup (escapePattern name) [] (escapePattern name ++ digitsGroup) := by
  intro front back
  constructor
  · intro h
    obtain ⟨gap, rfl, hgap⟩ := exists_eq_append_of_digitsGroup (by decide) h
    have hlength := congrArg List.length hgap
    simp only [List.length_append] at hlength
    obtain rfl : gap = [] := List.length_eq_zero_iff.mp (by omega)
    obtain rfl : back = [] := List.length_eq_zero_iff.mp (by omega)
    exact ⟨List.append_nil _, rfl⟩
  · rintro ⟨rfl, rfl⟩
    rw [List.append_nil]

end Escaped

end TrialSummary.Text
