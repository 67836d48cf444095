import TrialSummary.Text.DecimalDigit
import TrialSummary.Text.Search

/-!
# Numbers behind a word

A counter in a log is recognised by a pattern: a literal word and a run of decimal digits of any
script directly behind it. The word may occur without digits, and the first occurrence that has some
is the one that counts. The run is as long as possible.

In the written pattern the word is escaped, with a backslash before each character that would mean
something else there, and the run of digits is a group.
-/

namespace TrialSummary.Text

/-- The run of decimal digits directly behind a word that the text starts with. -/
def digitsBehind? (word cs : List Char) : Option (List Char) :=
  (after? word cs).bind fun rest =>
    let run := rest.takeWhile isDecimalDigit
    if run.isEmpty then none else some run

/-- The run of decimal digits behind the first occurrence of a word that has one. -/
def firstDigitsBehind? (word : List Char) : List Char → Option (List Char)
  | [] => digitsBehind? word []
  | c :: cs =>
    match digitsBehind? word (c :: cs) with
    | some run => some run
    | none => firstDigitsBehind? word cs

/-- The characters that are not literal in a pattern. -/
def isPatternSign (c : Char) : Bool := "\\.+*?()|[]\x7b\x7d^$#&-~".toList.contains c

/-- A literal text as part of a pattern. -/
def escapePattern (cs : List Char) : List Char :=
  cs.flatMap fun c => if isPatternSign c then ['\\', c] else [c]

/-- The group for a run of decimal digits in a pattern. -/
def digitsGroup : List Char := "(\\d+)".toList

end TrialSummary.Text
