/-!
# Lines of a text

A line ends at a line feed, and a carriage return directly before the line feed belongs to the line
end as well. What follows the last line feed is one more line unless it is empty, and a carriage
return at its end is kept, because no line feed follows it.
-/

namespace TrialSummary.Text

/-- The text without one carriage return at its end. -/
def dropReturn (cs : List Char) : List Char :=
  if cs.getLast? = some '\r' then cs.dropLast else cs

/-- The lines of a text, without their ends. The last of the pieces between line feeds has no line
feed behind it. -/
def lines (cs : List Char) : List (List Char) :=
  let pieces := cs.splitOn '\n'
  pieces.dropLast.map dropReturn ++ pieces.getLast?.toList.filter (· ≠ [])

@[simp] theorem lines_nil : lines [] = [] := rfl

end TrialSummary.Text
