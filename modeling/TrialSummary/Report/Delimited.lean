/-!
# Delimited text

A table is written as text with a delimiter between the cells of a row and a line feed behind each
row. All rows have the width of the first one. A row of another width is refused, but its cells have
been written by then: they stay in the text as the beginning of a row, which the next row goes on
with. The width of what is then one row counts them all.

A cell is quoted if it would not be read back as it is: when it contains the delimiter, a quote or a
line break, or when it is empty and alone in its row.
-/

namespace TrialSummary

/-- A text that is being written. The cells of a refused row are open: they are in the text without
a line end behind them. -/
structure Delimited where
  delimiter : Char
  text : String := ""
  width? : Option Nat := none
  openCells : Nat := 0
  deriving DecidableEq

/-- A row of `found` cells where the rows before have `expected`. -/
structure WidthError where
  found : Nat
  expected : Nat
  deriving DecidableEq

namespace WidthError

/-- What went wrong with the row. -/
def reason (e : WidthError) : String :=
  "CSV error: found record with " ++ e.found.repr ++
    " fields, but the previous record has " ++ e.expected.repr ++ " fields"

def message (e : WidthError) : String := "failed to write output: " ++ e.reason

end WidthError

namespace Delimited

def needsQuotes (delimiter : Char) (alone : Bool) (cell : List Char) : Bool :=
  (alone && cell.isEmpty) ||
    cell.any fun c => c == delimiter || c == '"' || c == '\r' || c == '\n'

/-- A cell as it is written. Quotes inside of quotes are doubled. -/
def cellText (delimiter : Char) (alone : Bool) (cell : String) : List Char :=
  let cs := cell.toList
  if needsQuotes delimiter alone cs then
    '"' :: cs.flatMap (fun c => if c = '"' then ['"', '"'] else [c]) ++ ['"']
  else cs

def joinCells (delimiter : Char) : List (List Char) → List Char
  | [] => []
  | [c] => c
  | c :: cs => c ++ delimiter :: joinCells delimiter cs

/-- The cells of a row as they are written behind `before` open cells. -/
def rowText (delimiter : Char) (before : Nat) (cells : List String) : List Char :=
  let alone := before = 0 && cells.length = 1
  let row := joinCells delimiter (cells.map (cellText delimiter alone))
  if before = 0 then row else delimiter :: row

def write (d : Delimited) (cells : List String) : Delimited × Option WidthError :=
  let found := d.openCells + cells.length
  let text := d.text ++ String.ofList (rowText d.delimiter d.openCells cells)
  let expected := d.width?.getD found
  if found = expected then
    ({ d with text := text ++ "\n", width? := some expected, openCells := 0 }, none)
  else ({ d with text := text, openCells := found }, some ⟨found, expected⟩)

end Delimited

end TrialSummary
