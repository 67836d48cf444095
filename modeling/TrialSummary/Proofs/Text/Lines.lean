import TrialSummary.Text.Line

/-!
# Lines as they are written

A text is written line by line, each line with a line feed behind it or with a carriage return and a
line feed, and at the end there may be a piece without a line end. Reading gives back the lines as
they were written, whichever line ends were used, as long as no line could be taken for something
else: a line holds no line feed, and one that ends in a bare line feed does not end in a carriage
return itself.
-/

namespace TrialSummary.Text

/-- What stands behind a line. -/
inductive LineEnd where
  | feed
  | returnFeed
  deriving DecidableEq

def LineEnd.text : LineEnd → List Char
  | .feed => ['\n']
  | .returnFeed => ['\r', '\n']

/-- A line with its end. -/
structure WrittenLine where
  text : List Char
  ending : LineEnd
  feed_notMem : '\n' ∉ text
  return_ne : ending = .feed → text.getLast? ≠ some '\r'

/-- Lines with their ends, and what stands behind the last of them. -/
structure WrittenText where
  ended : List WrittenLine
  rest : List Char
  feed_notMem : '\n' ∉ rest

@[simp] theorem dropReturn_append_return (cs : List Char) : dropReturn (cs ++ ['\r']) = cs := by
  simp [dropReturn]

theorem dropReturn_of_ne {cs : List Char} (h : cs.getLast? ≠ some '\r') : dropReturn cs = cs := by
  simp [dropReturn, h]

theorem lines_of_notMem {cs : List Char} (h : '\n' ∉ cs) :
    lines cs = if cs = [] then [] else [cs] := by
  rw [lines, List.splitOn_eq_singleton h]
  by_cases hcs : cs = [] <;> simp [hcs]

/-- The first line feed ends the first line. -/
theorem lines_append_feed {cs : List Char} (h : '\n' ∉ cs) (rest : List Char) :
    lines (cs ++ '\n' :: rest) = dropReturn cs :: lines rest := by
  have hpieces : rest.splitOn '\n' ≠ [] := List.splitOn_ne_nil _ _
  rw [lines, lines, List.splitOn_append_cons_self_of_not_mem h,
    List.dropLast_cons_of_ne_nil hpieces, List.getLast?_cons_of_ne_nil hpieces]
  rfl

/-- A text can be cut behind any line feed, and then its lines are cut there. -/
theorem lines_append_feed_append (front back : List Char) :
    lines (front ++ '\n' :: back) = lines (front ++ ['\n']) ++ lines back := by
  have hpieces : back.splitOn '\n' ≠ [] := List.splitOn_ne_nil _ _
  have hlast : (front.splitOn '\n' ++ back.splitOn '\n').getLast? =
      (back.splitOn '\n').getLast? := by
    rw [List.getLast?_append, List.getLast?_eq_some_getLast hpieces]
    rfl
  have hfront : lines (front ++ ['\n']) = (front.splitOn '\n').map dropReturn := by
    simp [lines, List.splitOn_append_cons_self]
  rw [hfront, lines, lines, List.splitOn_append_cons_self, List.dropLast_append_of_ne_nil hpieces,
    hlast, List.map_append, List.append_assoc]

namespace WrittenLine

def chars (l : WrittenLine) : List Char := l.text ++ l.ending.text

/-- A written line is read back, and reading goes on behind its end. -/
theorem lines_append (l : WrittenLine) (rest : List Char) :
    lines (l.chars ++ rest) = l.text :: lines rest := by
  obtain ⟨text, ending, hfeed, hreturn⟩ := l
  cases ending with
  | feed =>
    have hchars : text ++ LineEnd.text .feed ++ rest = text ++ '\n' :: rest := by
      simp [LineEnd.text]
    simp only [chars]
    rw [hchars, lines_append_feed hfeed, dropReturn_of_ne (hreturn rfl)]
  | returnFeed =>
    have hchars : text ++ LineEnd.text .returnFeed ++ rest = (text ++ ['\r']) ++ '\n' :: rest := by
      simp [LineEnd.text]
    have hnotMem : '\n' ∉ text ++ ['\r'] := by simpa using hfeed
    simp only [chars]
    rw [hchars, lines_append_feed hnotMem, dropReturn_append_return]

end WrittenLine

namespace WrittenText

def chars (t : WrittenText) : List Char := t.ended.flatMap WrittenLine.chars ++ t.rest

/-- The lines that were written. An empty rest is no line. -/
def lines (t : WrittenText) : List (List Char) :=
  t.ended.map WrittenLine.text ++ if t.rest = [] then [] else [t.rest]

def bytes (t : WrittenText) : ByteArray := (String.ofList t.chars).toUTF8

theorem lines_chars (t : WrittenText) : Text.lines t.chars = t.lines := by
  obtain ⟨ended, rest, hrest⟩ := t
  simp only [chars, lines]
  induction ended with
  | nil => simpa using lines_of_notMem hrest
  | cons l ended ih =>
    rw [List.flatMap_cons, List.append_assoc, l.lines_append, ih]
    rfl

theorem feed_notMem_of_mem_lines (t : WrittenText) {line : List Char} (h : line ∈ t.lines) :
    '\n' ∉ line := by
  rcases List.mem_append.mp h with h | h
  · obtain ⟨l, -, rfl⟩ := List.mem_map.mp h
    exact l.feed_notMem
  · split at h
    · simp at h
    · rw [List.mem_singleton.mp h]
      exact t.feed_notMem

end WrittenText

end TrialSummary.Text
