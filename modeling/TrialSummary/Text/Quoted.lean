import TrialSummary.Text.Printable

/-!
# Quoted text

Text from a file is shown in messages between double quotes, so that every character of it can be
told apart. A backslash stands before a double quote and before a backslash, and the tab, the line
breaks and NUL have letters of their own. Any other character that would not show as itself is given
by its code point in lower-case hexadecimal digits between braces.
-/

namespace TrialSummary.Text

/-- The number of a character that is not shown. -/
def codePointEscape (c : Char) : List Char :=
  ['\\', 'u', '\x7b'] ++ Nat.toDigits 16 c.toNat ++ ['\x7d']

/-- How one character is written between the quotes. -/
def quoteChar (c : Char) : List Char :=
  match c with
  | '"' => ['\\', '"']
  | '\\' => ['\\', '\\']
  | '\t' => ['\\', 't']
  | '\n' => ['\\', 'n']
  | '\r' => ['\\', 'r']
  | '\x00' => ['\\', '0']
  | c => if isPrintable c then [c] else codePointEscape c

def quote (cs : List Char) : List Char := '"' :: cs.flatMap quoteChar ++ ['"']

def quoted (s : String) : String := String.ofList (quote s.toList)

end TrialSummary.Text
