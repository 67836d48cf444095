import TrialSummary.Text.CodePoints

/-!
# Blanks

The characters with the Unicode property White_Space. Numbers in result files may have any of them
around, so the property decides what is trimmed. It has more members than the ASCII blanks: the
next-line character, the no-break space, the typographic spaces and the two separators. A zero width
space is not a blank.
-/

namespace TrialSummary.Text

/-- The code points with the property White_Space. -/
def blanks : CodePoints := ⟨
  [(0x9, 0xd), (0x20, 0x20), (0x85, 0x85), (0xa0, 0xa0), (0x1680, 0x1680), (0x2000, 0x200a),
   (0x2028, 0x2029), (0x202f, 0x202f), (0x205f, 0x205f), (0x3000, 0x3000)]⟩

def isBlank (c : Char) : Bool := blanks.contains c

def trimStart (cs : List Char) : List Char := cs.dropWhile isBlank

def trimEnd (cs : List Char) : List Char := (cs.reverse.dropWhile isBlank).reverse

/-- The text without the blanks around it. -/
def trim (cs : List Char) : List Char := trimEnd (trimStart cs)

@[simp] theorem trim_nil : trim [] = [] := rfl

end TrialSummary.Text
