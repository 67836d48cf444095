import Mathlib.Data.List.Infix
import TrialSummary.Text.Pattern

/-!
# What a pattern matches

A written pattern has two kinds of parts. A character stands for itself, with a backslash in front
of it if it would mean something else, and a group stands for a run of decimal digits.

A text can start with the parts of a pattern in several ways, because a group may leave digits to
the parts behind it. The ways are listed in the order in which they are preferred. Of all matches in
a text the first to start counts, and of those that start there the preferred one.

For a literal word with a group of digits behind it, this is the run that is found by searching the
word.
-/

namespace TrialSummary.Text

/-- A part of a pattern: a character that stands for itself, or the group of digits. -/
inductive PatternPart where
  | literal (c : Char)
  | digits
  deriving DecidableEq

/-- The parts of a written pattern. Only a group of digits and literal characters can be read. -/
def readPattern? : List Char → Option (List PatternPart)
  | [] => some []
  | '(' :: '\\' :: 'd' :: '+' :: ')' :: cs => (readPattern? cs).map (.digits :: ·)
  | '\\' :: c :: cs =>
    if isPatternSign c then (readPattern? cs).map (.literal c :: ·) else none
  | c :: cs => if isPatternSign c then none else (readPattern? cs).map (.literal c :: ·)

/-- The beginnings of a run that are not empty, the longest first. -/
def beginnings (run : List Char) : List (List Char) :=
  (List.range run.length).reverse.map fun n => run.take (n + 1)

/-- The ways in which a text can start with the parts of a pattern, each told by what the groups
hold in it. More digits in a group are preferred to fewer. -/
def ways : List PatternPart → List Char → List (List (List Char))
  | [], _ => [[]]
  | .literal _ :: _, [] => []
  | .literal c :: parts, d :: cs => if c = d then ways parts cs else []
  | .digits :: parts, cs =>
    (beginnings (cs.takeWhile isDecimalDigit)).flatMap fun run =>
      (ways parts (cs.drop run.length)).map (run :: ·)

/-- What the groups hold in the match that counts: the first to start in the text, and of those that
start there the preferred one. -/
def captures? (parts : List PatternPart) (cs : List Char) : Option (List (List Char)) :=
  cs.tails.findSome? fun rest => (ways parts rest).head?

/-- The parts of a literal word with a group of digits behind it. -/
def countParts (word : List Char) : List PatternPart := word.map .literal ++ [.digits]

section Reading

variable {c : Char} {cs : List Char}

theorem escapePattern_cons_of_sign (h : isPatternSign c = true) (cs : List Char) :
    escapePattern (c :: cs) = '\\' :: c :: escapePattern cs := by
  rw [escapePattern, List.flatMap_cons, if_pos h]
  rfl

theorem escapePattern_cons_of_plain (h : isPatternSign c = false) (cs : List Char) :
    escapePattern (c :: cs) = c :: escapePattern cs := by
  rw [escapePattern, List.flatMap_cons, if_neg (by simp [h])]
  rfl

theorem readPattern?_escaped (h : isPatternSign c = true) :
    readPattern? ('\\' :: c :: cs) = (readPattern? cs).map (.literal c :: ·) := by
  rw [readPattern?, if_pos h]

theorem readPattern?_plain (h : isPatternSign c = false) :
    readPattern? (c :: cs) = (readPattern? cs).map (.literal c :: ·) := by
  have hbackslash : c ≠ '\\' := by
    rintro rfl
    exact absurd h (by decide)
  have hparenthesis : c ≠ '(' := by
    rintro rfl
    exact absurd h (by decide)
  rw [readPattern?, if_neg (by simp [h])]
  · intro _ hc
    exact absurd hc hparenthesis
  · intro _ _ hc
    exact absurd hc hbackslash

/-- An escaped text is read as this text, whatever characters it has. -/
theorem readPattern?_escapePattern_append (name cs : List Char) :
    readPattern? (escapePattern name ++ cs) =
      (readPattern? cs).map (name.map PatternPart.literal ++ ·) := by
  induction name with
  | nil => simp [escapePattern]
  | cons c name ih =>
    have hmap : (readPattern? (escapePattern name ++ cs)).map (.literal c :: ·) =
        (readPattern? cs).map ((c :: name).map PatternPart.literal ++ ·) := by
      rw [ih, Option.map_map]
      rfl
    cases h : isPatternSign c with
    | true =>
      rw [escapePattern_cons_of_sign h, List.cons_append, List.cons_append,
        readPattern?_escaped h, hmap]
    | false =>
      rw [escapePattern_cons_of_plain h, List.cons_append, readPattern?_plain h, hmap]

end Reading

section Matching

variable {word cs : List Char}

@[simp] theorem beginnings_nil : beginnings [] = [] := rfl

theorem head?_beginnings {run : List Char} (h : run ≠ []) :
    (beginnings run).head? = some run := by
  obtain ⟨c, cs, rfl⟩ := List.exists_cons_of_ne_nil h
  rw [beginnings, List.length_cons, List.range_succ, List.reverse_concat, List.map_cons,
    List.head?_cons, List.take_succ_cons, List.take_length]

/-- A group of digits at the end of a pattern prefers the whole run. -/
theorem head?_ways_digits (cs : List Char) :
    (ways [.digits] cs).head? = (digitsBehind? [] cs).map fun run => [run] := by
  have hways : ways [.digits] cs =
      (beginnings (cs.takeWhile isDecimalDigit)).map fun run => [run] := by
    simp only [ways, List.map_singleton]
    exact List.map_eq_flatMap.symm
  have hafter : after? [] cs = some cs := after?_append [] cs
  rw [hways, List.head?_map, digitsBehind?, hafter, Option.bind_some]
  by_cases hrun : cs.takeWhile isDecimalDigit = []
  · simp [hrun]
  · simp [head?_beginnings hrun, hrun]

theorem digitsBehind?_nil (c : Char) : digitsBehind? (c :: word) [] = none := rfl

theorem digitsBehind?_cons (c d : Char) :
    digitsBehind? (c :: word) (d :: cs) = if c = d then digitsBehind? word cs else none := by
  by_cases h : c = d
  · simp [digitsBehind?, after?, h]
  · simp [digitsBehind?, after?, h]

/-- The preferred way to start with a word and digits is the run that stands behind the word. -/
theorem head?_ways_countParts (word cs : List Char) :
    (ways (countParts word) cs).head? = (digitsBehind? word cs).map fun run => [run] := by
  induction word generalizing cs with
  | nil => exact head?_ways_digits cs
  | cons c word ih =>
    have hparts : countParts (c :: word) = .literal c :: countParts word := rfl
    cases cs with
    | nil =>
      rw [hparts, ways, digitsBehind?_nil]
      rfl
    | cons d cs =>
      rw [hparts, ways, digitsBehind?_cons]
      split
      · exact ih cs
      · rfl

/-- A word with a group of digits behind it captures the run behind the first occurrence of the word
that has digits behind it. -/
theorem captures?_countParts (word cs : List Char) :
    captures? (countParts word) cs = (firstDigitsBehind? word cs).map fun run => [run] := by
  induction cs with
  | nil =>
    have htails : ([] : List Char).tails = [[]] := rfl
    rw [captures?, htails, List.findSome?_singleton, head?_ways_countParts, firstDigitsBehind?]
  | cons c cs ih =>
    rw [captures?, List.tails_cons, List.findSome?_cons, head?_ways_countParts, firstDigitsBehind?]
    cases digitsBehind? word (c :: cs) with
    | some run => rfl
    | none => exact ih

end Matching

end TrialSummary.Text
