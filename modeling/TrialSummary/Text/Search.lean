/-!
# Searching and cutting text

Literal searches on lists of characters: a word at the start, its last occurrence, and the
replacement of every occurrence. Replaced occurrences are taken from left to right and do not
overlap.
-/

namespace TrialSummary.Text

/-- The text behind a word that it starts with. -/
def after? (word cs : List Char) : Option (List Char) :=
  if word.isPrefixOf cs then some (cs.drop word.length) else none

/-- The text in front of the last occurrence of a word. -/
def beforeLast? (word : List Char) : List Char → Option (List Char)
  | [] => if word.isPrefixOf [] then some [] else none
  | c :: cs =>
    match beforeLast? word cs with
    | some p => some (c :: p)
    | none => if word.isPrefixOf (c :: cs) then some [] else none

/-- Every occurrence of a non-empty word replaced; `skip` characters still belong to the one found
last. -/
def replaceFrom (word new : List Char) : Nat → List Char → List Char
  | _, [] => []
  | skip + 1, _ :: cs => replaceFrom word new skip cs
  | 0, c :: cs =>
    if word.isPrefixOf (c :: cs) then new ++ replaceFrom word new (word.length - 1) cs
    else c :: replaceFrom word new 0 cs

/-- Every occurrence of a non-empty word replaced by another text. -/
def replaceAll (word new cs : List Char) : List Char := replaceFrom word new 0 cs

@[simp] theorem after?_append (word cs : List Char) : after? word (word ++ cs) = some cs := by
  simp [after?]

theorem after?_eq_some_iff {word cs rest : List Char} :
    after? word cs = some rest ↔ cs = word ++ rest := by
  constructor
  · intro h
    rw [after?] at h
    split at h
    · next hp =>
      obtain ⟨t, rfl⟩ := List.isPrefixOf_iff_prefix.mp hp
      simp_all
    · simp at h
  · rintro rfl
    simp

end TrialSummary.Text
